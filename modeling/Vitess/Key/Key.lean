import Mathlib.Data.List.Lex
import Mathlib.Data.List.DropRight
import Vitess.Data.SortKey

/-!
# Keyspace ids and key ranges

`go/vt/key/key.go`. A keyspace id is a byte string; two ids are compared after
`Normalize` strips their trailing zero bytes, so `-80`, `00-80` and `0000-8000`
name the same range. A `KeyRange` is the half-open range `[Start, End)` in which
an empty `Start` stands for the minimum and an empty `End` for the maximum, and a
nil range (`Option.none` here) for the whole keyspace.

The helpers below translate the Go functions one for one. Their meaning in the
keyspace order is developed in `Vitess.Key.Span`.
-/

namespace Vitess.Key

/-- A Go `[]byte`. -/
abbrev Bytes := List UInt8

/-- `Normalize` removes the trailing zero bytes of an id. -/
def normalize (id : Bytes) : Bytes :=
  id.rdropWhile (· == 0)

/-- `bytes.Compare`: lexicographic order, a proper prefix first; `-1`, `0` or `1`. -/
def bytesCompare : Bytes → Bytes → Int
  | [], [] => 0
  | [], _ :: _ => -1
  | _ :: _, [] => 1
  | a :: as, b :: bs => if a < b then -1 else if b < a then 1 else bytesCompare as bs

/-- `Compare` compares two ids after normalizing them. -/
def compare (a b : Bytes) : Int :=
  bytesCompare (normalize a) (normalize b)

/-- `Less`. -/
def less (a b : Bytes) : Bool :=
  compare a b < 0

/-- `Equal`. -/
def equal (a b : Bytes) : Bool :=
  compare a b == 0

/-- `Empty`: the id normalizes to no bytes at all. -/
def empty (id : Bytes) : Bool :=
  (normalize id).length == 0

/-- `topodatapb.KeyRange`, with the proto's field names. -/
structure KeyRange where
  Start : Bytes
  End : Bytes
  deriving DecidableEq, Repr

/-- `KeyRangeAdd` joins two adjacent ranges, in either order; `(nil, false)` when
they are not adjacent. -/
def keyRangeAdd : Option KeyRange → Option KeyRange → Option KeyRange × Bool
  | some a, some b =>
    if !empty a.End && equal a.End b.Start then (some ⟨a.Start, b.End⟩, true)
    else if !empty b.End && equal b.End a.Start then (some ⟨b.Start, a.End⟩, true)
    else (none, false)
  | _, _ => (none, false)

/-- `KeyRangeIsComplete`: nil, or both bounds empty. -/
def keyRangeIsComplete (keyRange : Option KeyRange) : Bool :=
  keyRange.all fun kr => empty kr.Start && empty kr.End

/-- `KeyRangeContains`. -/
def keyRangeContains : Option KeyRange → Bytes → Bool
  | none, _ => true
  | some kr, id =>
    if keyRangeIsComplete (some kr) then true
    else (empty kr.Start || compare id kr.Start ≥ 0) && (empty kr.End || compare id kr.End < 0)

/-- `KeyRangeStartCompare`: an empty `Start` is the minimum. The final branch is
only reached with both ranges non-nil, so its default is never read. -/
def keyRangeStartCompare (a b : Option KeyRange) : Int :=
  let aIsMinimum := a.all fun kr => empty kr.Start
  let bIsMinimum := b.all fun kr => empty kr.Start
  if aIsMinimum && bIsMinimum then 0
  else if aIsMinimum then -1
  else if bIsMinimum then 1
  else compare ((a.map (·.Start)).getD []) ((b.map (·.Start)).getD [])

/-- `KeyRangeEndCompare`: an empty `End` is the maximum. -/
def keyRangeEndCompare (a b : Option KeyRange) : Int :=
  let aIsMaximum := a.all fun kr => empty kr.End
  let bIsMaximum := b.all fun kr => empty kr.End
  if aIsMaximum && bIsMaximum then 0
  else if aIsMaximum then 1
  else if bIsMaximum then -1
  else compare ((a.map (·.End)).getD []) ((b.map (·.End)).getD [])

/-- `KeyRangeCompare`: by `Start`, then by `End`. -/
def keyRangeCompare (a b : Option KeyRange) : Int :=
  let v := keyRangeStartCompare a b
  if v ≠ 0 then v else keyRangeEndCompare a b

/-- `KeyRangeLess`. -/
def keyRangeLess (a b : Option KeyRange) : Bool :=
  keyRangeCompare a b < 0

/-- `KeyRangeStartEqual`. -/
def keyRangeStartEqual (a b : Option KeyRange) : Bool :=
  keyRangeStartCompare a b == 0

/-- `KeyRangeEndEqual`. -/
def keyRangeEndEqual (a b : Option KeyRange) : Bool :=
  keyRangeEndCompare a b == 0

/-- `KeyRangeIntersect`: the interval test `b.Start < a.End ∧ a.Start < b.End`,
with the complete range and the empty bounds handled first. -/
def keyRangeIntersect : Option KeyRange → Option KeyRange → Bool
  | some a, some b =>
    if keyRangeIsComplete (some a) || keyRangeIsComplete (some b) then true
    else (empty a.End || less b.Start a.End) && (empty b.End || less a.Start b.End)
  | _, _ => true

/-- `KeyRangeContainsKeyRange`: `a` holds every id of `b`. -/
def keyRangeContainsKeyRange (a b : Option KeyRange) : Bool :=
  if keyRangeIsComplete a then true
  else if keyRangeIsComplete b then keyRangeIsComplete a
  else if keyRangeStartCompare b a ≥ 0 && keyRangeEndCompare b a ≤ 0 then true
  else false

/-! ### Normalized ids -/

/-- Normalizing twice is normalizing once. -/
@[simp] theorem normalize_normalize (id : Bytes) : normalize (normalize id) = normalize id :=
  List.rdropWhile_idempotent _ _

@[simp] theorem normalize_nil : normalize [] = [] := by
  simp [normalize]

/-- A normalized id is empty exactly when every byte of the id is zero. -/
theorem normalize_eq_nil_iff {id : Bytes} : normalize id = [] ↔ ∀ b ∈ id, b = 0 := by
  simp [normalize, List.rdropWhile_eq_nil_iff]

theorem empty_iff {id : Bytes} : empty id = true ↔ normalize id = [] := by
  simp [empty]

/-! ### `bytes.Compare` is the lexicographic order on byte values -/

/-- `bytesCompare` returns the sign of the lexicographic comparison of the byte
values. -/
theorem bytesCompare_eq : ∀ a b : Bytes,
    bytesCompare a b =
      if a.map UInt8.toNat < b.map UInt8.toNat then -1
      else if a = b then 0 else 1
  | [], [] => by simp [bytesCompare]
  | [], _ :: _ => by simp [bytesCompare, List.nil_lt_cons]
  | _ :: _, [] => by simp [bytesCompare, List.not_lt_nil]
  | x :: xs, y :: ys => by
    have tail := bytesCompare_eq xs ys
    simp only [bytesCompare, List.map_cons, List.cons_lt_cons_iff, List.cons.injEq,
      UInt8.lt_iff_toNat_lt, ← UInt8.toNat_inj]
    by_cases below : x.toNat < y.toNat
    · simp [below]
    by_cases above : y.toNat < x.toNat
    · have different : x.toNat ≠ y.toNat := by omega
      simp [below, above, different]
    · have same : x.toNat = y.toNat := by omega
      simp [same, tail]

/-- Numbers of `width` bytes compare as their big-endian encodings. -/
theorem bytesCompare_encode_nonpos_iff {width n m : ℕ} (hn : n < 256 ^ width) (hm : m < 256 ^ width) :
    bytesCompare (SortKey.encode width n) (SortKey.encode width m) ≤ 0 ↔ n ≤ m := by
  simp only [bytesCompare_eq, SortKey.map_encode_lt_iff hn hm, SortKey.encode_inj hn hm]
  split_ifs <;> omega

end Vitess.Key
