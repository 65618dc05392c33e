import Vitess.Key.Span
import Vitess.Go.Int64
import Mathlib.Order.Interval.Set.Union
import Mathlib.Order.SuccPred.IntervalSucc
import Mathlib.Algebra.Group.Nat.Defs
import Mathlib.Algebra.Group.Int.Defs
import Mathlib.Algebra.GroupWithZero.Nat
import Mathlib.Algebra.Ring.Int.Defs
import Mathlib.Data.Int.ConditionallyCompleteOrder
import Mathlib.Order.ConditionallyCompleteLattice.Basic
import Mathlib.Data.Nat.SuccPred
import Mathlib.Tactic.Positivity
import Mathlib.Tactic.NormNum

/-!
# Even shards

`EvenShardsKeyRange(i, n)` in `go/vt/key/key.go` cuts the `uint64` keyspace into
`n` shards of width `MaxUint64 / n + 1` and returns the `i`-th: its bounds are the
big-endian bytes of `i * width` and `i * width + width`, cut to the number of bytes
`n - 1` needs, with an empty `Start` for zero and an empty `End` where the last end
wraps around to zero.

For `n = 2 ^ k` with `k ≤ 62`, every power of two a Go `int` holds, the ranges of
the indices `0 … n - 1` tile the keyspace (`evenShards_tile_keyspace`): each call
succeeds, the first range starts at the minimum and the last ends at the maximum,
neighbours share their bound, no range is empty, and every id lies in exactly one
range. The index is only checked from above: a negative index wraps through
`Uint64Key(i)` and the call returns the range of shard `i mod n`
(`evenShards_index_wraps`).

The tiling is read in the keyspace order of `Vitess.Key.Span`. The bounds of the
ranges are the points `evenBoundary k j` of a monotone sequence, and Mathlib's
covering and disjointness facts for the intervals between consecutive points of
such a sequence finish the argument.
-/

namespace Vitess.Key

open SortKey

/-! ### The model -/

/-- `Uint64Key.Bytes`: the eight bytes of the key, most significant first. -/
def uint64KeyBytes (key : UInt64) : Bytes :=
  encode 8 key.toNat

/-- `math.MaxUint64`. -/
def maxUint64 : UInt64 := 18446744073709551615

/-- The `minBytes` loop: one more byte for each shift of `nn` by eight bits until it
reaches zero. Eight shifts empty any `uint64`, so a fuel of eight never stops the
loop early (`lt_pow_minBytesLoop`). -/
def minBytesLoop : ℕ → UInt64 → ℕ
  | 0, _ => 0
  | fuel + 1, nn => if nn > 0 then minBytesLoop fuel (nn >>> 8) + 1 else 0

/-- `minBytes`: how many bytes the bounds of `n` shards are cut to. -/
def evenShardsMinBytes (n : ℤ) : ℕ :=
  minBytesLoop 8 (UInt64.ofInt (n - 1))

/-- `width := Uint64Key(math.MaxUint64)/Uint64Key(n) + 1`; it wraps to zero for a
single shard. -/
def evenShardsWidth (n : ℤ) : UInt64 :=
  maxUint64 / UInt64.ofInt n + 1

/-- A bound as `EvenShardsKeyRange` writes it: empty for zero, otherwise the first
`minBytes` bytes of the key. -/
def boundBytes (minBytes : ℕ) (key : UInt64) : Bytes :=
  if key = 0 then [] else (uint64KeyBytes key).take minBytes

/-- The range `EvenShardsKeyRange` returns once its checks pass. -/
def evenShardsRange (i n : ℤ) : KeyRange :=
  let width := evenShardsWidth n
  let start := UInt64.ofInt i * width
  let endKey := start + width
  ⟨boundBytes (evenShardsMinBytes n) start, boundBytes (evenShardsMinBytes n) endKey⟩

/-- `EvenShardsKeyRange`, with Go's `int` arguments as integers. For a positive
`n` the test `n&(n-1) != 0` is the same on the natural number `n`. -/
def evenShardsKeyRange (i n : ℤ) : Except String KeyRange :=
  if n ≤ 0 then .error ("the shard count must be > 0: " ++ toString n)
  else if i ≥ n then
    .error ("the index of the shard must be less than the total number of shards: " ++
      toString i ++ " < " ++ toString n)
  else if n.toNat &&& (n.toNat - 1) ≠ 0 then
    .error ("the shard count must be a power of two: " ++ toString n)
  else .ok (evenShardsRange i n)

/-! ### Trailing zero bytes and the keyspace order -/

theorem normalize_cons (x : UInt8) (xs : Bytes) :
    normalize (x :: xs) = if normalize xs = [] ∧ x = 0 then [] else x :: normalize xs := by
  simp only [normalize, List.rdropWhile, List.reverse_cons, List.dropWhile_append,
    List.isEmpty_iff, List.reverse_eq_nil_iff]
  by_cases rest : List.dropWhile (fun b => b == 0) xs.reverse = []
  · by_cases zero : x = 0 <;> simp [rest, zero]
  · simp [rest]

theorem keyPoint_cons (x : UInt8) (xs : Bytes) :
    keyPoint (x :: xs) = if keyPoint xs = [] ∧ x = 0 then [] else x.toNat :: keyPoint xs := by
  simp only [keyPoint, normalize_cons, List.map_eq_nil_iff]
  split_ifs <;> rfl

/-- Zero bytes appended to an id do not move it. -/
@[simp] theorem normalize_append_replicate (id : Bytes) (count : ℕ) :
    normalize (id ++ List.replicate count 0) = normalize id := by
  induction count with
  | zero => simp
  | succ count ih =>
    rw [List.replicate_succ', ← List.append_assoc, normalize,
      List.rdropWhile_concat_pos _ _ _ (by decide), ← normalize, ih]

/-- Two ids of one length with the same normalization are equal: they differ only
in trailing zeros, and as many of them. -/
theorem eq_of_normalize_eq {a b : Bytes} (same : normalize a = normalize b)
    (sameLength : a.length = b.length) : a = b := by
  have zeros : ∀ id : Bytes, id.rtakeWhile (· == 0) = List.replicate (id.rtakeWhile (· == 0)).length 0 :=
    fun id => List.eq_replicate_iff.mpr ⟨rfl, fun b mem => by simpa using List.mem_rtakeWhile_imp mem⟩
  have splitA : normalize a ++ a.rtakeWhile (· == 0) = a := List.rdropWhile_append_rtakeWhile
  have splitB : normalize b ++ b.rtakeWhile (· == 0) = b := List.rdropWhile_append_rtakeWhile
  have tails : (a.rtakeWhile (· == 0)).length = (b.rtakeWhile (· == 0)).length := by
    have lengthA := congrArg List.length splitA
    have lengthB := congrArg List.length splitB
    rw [List.length_append] at lengthA lengthB
    rw [same] at lengthA
    omega
  rw [← splitA, ← splitB, same, zeros a, zeros b, tails]

theorem points_cons_le_cons_iff {x y : ℕ} {xs ys : List ℕ} :
    x :: xs ≤ y :: ys ↔ x < y ∨ x = y ∧ xs ≤ ys := by
  rw [le_iff_lt_or_eq, le_iff_lt_or_eq, List.cons_lt_cons_iff, List.cons.injEq]
  constructor
  · rintro ((smaller | ⟨same, rest⟩) | ⟨same, rest⟩)
    · exact .inl smaller
    · exact .inr ⟨same, .inl rest⟩
    · exact .inr ⟨same, .inr rest⟩
  · rintro (smaller | ⟨same, rest | rest⟩)
    · exact .inl (.inl smaller)
    · exact .inl (.inr ⟨same, rest⟩)
    · exact .inr ⟨same, rest⟩

/-- The keyspace order follows the byte order: stripping trailing zeros keeps `≤`. -/
theorem keyPoint_mono : ∀ {a b : Bytes}, a.map UInt8.toNat ≤ b.map UInt8.toNat → keyPoint a ≤ keyPoint b
  | [], b, _ => nil_le_keyPoint b
  | x :: xs, [], below => by
    rw [List.map_cons, List.map_nil, points_le_nil_iff] at below
    exact absurd below (List.cons_ne_nil _ _)
  | x :: xs, y :: ys, below => by
    rw [List.map_cons, List.map_cons, points_cons_le_cons_iff] at below
    rw [keyPoint_cons x, keyPoint_cons y]
    rcases below with smaller | ⟨same, rest⟩
    · -- a smaller first byte: the right id keeps its first byte, which is not zero
      have nonzero : ¬ (keyPoint ys = [] ∧ y = 0) := fun ⟨_, zero⟩ => by
        rw [zero] at smaller
        exact Nat.not_lt_zero _ smaller
      rw [if_neg nonzero]
      split_ifs
      · exact points_nil_le _
      · exact points_cons_le_cons_iff.mpr (.inl smaller)
    · have sameByte : x = y := UInt8.toNat_inj.mp same
      subst sameByte
      have tail : keyPoint xs ≤ keyPoint ys := keyPoint_mono rest
      by_cases restEmpty : keyPoint ys = []
      · rw [restEmpty, points_le_nil_iff] at tail
        rw [tail, restEmpty]
      · rw [if_neg (show ¬ (keyPoint ys = [] ∧ x = 0) from fun both => restEmpty both.1)]
        split_ifs
        · exact points_nil_le _
        · exact points_cons_le_cons_iff.mpr (.inr ⟨rfl, tail⟩)

theorem keyPoint_encode_le {width x y : ℕ} (le : x ≤ y) (fits : y < 256 ^ width) :
    keyPoint (encode width x) ≤ keyPoint (encode width y) := by
  rcases le.lt_or_eq with smaller | rfl
  · exact keyPoint_mono ((map_encode_lt_iff (smaller.trans fits) fits).mpr smaller).le
  · exact le_refl _

/-- Keys of one width are placed in the keyspace as the numbers compare. -/
theorem keyPoint_encode_lt {width x y : ℕ} (lt : x < y) (fits : y < 256 ^ width) :
    keyPoint (encode width x) < keyPoint (encode width y) := by
  refine lt_of_le_of_ne (keyPoint_encode_le lt.le fits) fun same => ?_
  have bytes := eq_of_normalize_eq (keyPoint_eq_iff.mp same) (by simp)
  exact lt.ne ((encode_inj (lt.trans fits) fits).mp bytes)

@[simp] theorem keyPoint_encode_zero (width : ℕ) : keyPoint (encode width 0) = [] := by
  rw [encode_zero, ← List.nil_append (List.replicate width 0), keyPoint,
    normalize_append_replicate, normalize_nil, List.map_nil]

theorem keyPoint_encode_eq_nil_iff {width x : ℕ} (fits : x < 256 ^ width) :
    keyPoint (encode width x) = [] ↔ x = 0 := by
  constructor
  · intro atBottom
    by_contra nonzero
    have above := keyPoint_encode_lt (Nat.pos_of_ne_zero nonzero) fits
    rw [keyPoint_encode_zero, atBottom] at above
    exact lt_irrefl _ above
  · rintro rfl
    exact keyPoint_encode_zero width

/-- Cutting a key to its first `count` bytes does not move it when the bytes cut
off are zero. -/
theorem keyPoint_take_encode {width count x : ℕ} (le : count ≤ width)
    (aligned : 256 ^ (width - count) ∣ x) :
    keyPoint ((encode width x).take count) = keyPoint (encode width x) := by
  have split : encode width x = encode count (x / 256 ^ (width - count)) ++
      List.replicate (width - count) 0 := by
    rw [← encode_of_dvd aligned, ← encode_add, Nat.add_sub_cancel' le]
  rw [split, List.take_left' (length_encode _ _), keyPoint, keyPoint,
    normalize_append_replicate]

/-! ### The bounds -/

section Bounds

variable {minBytes : ℕ} {key : UInt64}

@[simp] theorem boundBytes_zero (minBytes : ℕ) : boundBytes minBytes 0 = [] := rfl

@[simp] theorem endBound_nil : endBound [] = ⊤ := by
  simp [endBound, empty]

/-- A bound sits at its key when `minBytes` keeps every nonzero byte. -/
theorem keyPoint_boundBytes (enough : minBytes ≤ 8) (aligned : 256 ^ (8 - minBytes) ∣ key.toNat) :
    keyPoint (boundBytes minBytes key) = keyPoint (encode 8 key.toNat) := by
  unfold boundBytes
  split_ifs with zero
  · rw [zero, UInt64.toNat_zero, keyPoint_encode_zero, keyPoint_nil]
  · exact keyPoint_take_encode enough aligned

theorem endBound_boundBytes (enough : minBytes ≤ 8) (aligned : 256 ^ (8 - minBytes) ∣ key.toNat) :
    endBound (boundBytes minBytes key) = if key = 0 then ⊤ else ↑(keyPoint (encode 8 key.toNat)) := by
  have fits : key.toNat < 256 ^ 8 := key.toNat_lt
  have nil_iff : empty (boundBytes minBytes key) = true ↔ key = 0 := by
    rw [← keyPoint_eq_nil_iff, keyPoint_boundBytes enough aligned, keyPoint_encode_eq_nil_iff fits,
      ← UInt64.toNat_zero, UInt64.toNat_inj]
  by_cases zero : key = 0
  · simp [zero]
  · have notEmpty : empty (boundBytes minBytes key) = false :=
      Bool.eq_false_iff.mpr fun isEmpty => zero (nil_iff.mp isEmpty)
    simp [endBound, notEmpty, zero, keyPoint_boundBytes enough aligned]

end Bounds

/-! ### The arithmetic of `minBytes`, `width` and `start` -/

theorem minBytesLoop_le : ∀ (fuel : ℕ) (nn : UInt64), minBytesLoop fuel nn ≤ fuel
  | 0, _ => le_refl 0
  | fuel + 1, nn => by
    rw [minBytesLoop]
    split_ifs
    · exact Nat.succ_le_succ (minBytesLoop_le fuel _)
    · exact Nat.zero_le _

/-- The loop counts enough bytes for `nn`. -/
theorem lt_pow_minBytesLoop : ∀ {fuel : ℕ} {nn : UInt64}, nn.toNat < 256 ^ fuel →
    nn.toNat < 256 ^ minBytesLoop fuel nn
  | 0, _, fits => fits
  | fuel + 1, nn, fits => by
    rw [minBytesLoop]
    split_ifs with positive
    · have shifted : (nn >>> 8).toNat = nn.toNat / 256 := by
        rw [UInt64.toNat_shiftRight, Nat.shiftRight_eq_div_pow]
        rfl
      have rest : (nn >>> 8).toNat < 256 ^ fuel := by
        rw [shifted, Nat.div_lt_iff_lt_mul (by decide), ← pow_succ]
        exact fits
      have counted := lt_pow_minBytesLoop rest
      rw [shifted, Nat.div_lt_iff_lt_mul (by decide)] at counted
      rwa [pow_succ]
    · have zero : nn.toNat = 0 := by
        simpa [UInt64.lt_iff_toNat_lt] using positive
      simp [zero]

theorem toNat_ofInt_natCast {x : ℕ} (small : x < 2 ^ 64) : (UInt64.ofInt x).toNat = x := by
  have cast := Go.toNat_ofInt64 x
  rw [Int.emod_eq_of_lt (Int.natCast_nonneg x) (by exact_mod_cast small)] at cast
  exact_mod_cast cast

theorem two_pow_mul_two_pow_sub {k : ℕ} (fits : k ≤ 64) : 2 ^ k * 2 ^ (64 - k) = 2 ^ 64 := by
  rw [← pow_add, Nat.add_sub_cancel' fits]

/-- Each of the first `2 ^ k` multiples of the width is a `uint64`. -/
theorem mul_width_lt {k j : ℕ} (fits : k ≤ 64) (below : j < 2 ^ k) : j * 2 ^ (64 - k) < 2 ^ 64 :=
  calc j * 2 ^ (64 - k) < 2 ^ k * 2 ^ (64 - k) := Nat.mul_lt_mul_of_pos_right below (Nat.pow_pos (by decide))
    _ = 2 ^ 64 := two_pow_mul_two_pow_sub fits

theorem max_div_two_pow {k : ℕ} (fits : k ≤ 64) : (2 ^ 64 - 1) / 2 ^ k = 2 ^ (64 - k) - 1 := by
  have whole := two_pow_mul_two_pow_sub fits
  have positive : 0 < 2 ^ k := Nat.pow_pos (by decide)
  have wide : 0 < 2 ^ (64 - k) := Nat.pow_pos (by decide)
  apply Nat.div_eq_of_lt_le
  · rw [Nat.sub_one_mul, Nat.mul_comm (2 ^ (64 - k)), whole]
    omega
  · rw [Nat.sub_add_cancel wide, Nat.mul_comm (2 ^ (64 - k)), whole]
    omega

section PowerOfTwo

variable {k : ℕ}

theorem toNat_ofInt_two_pow (fits : k ≤ 62) : (UInt64.ofInt (2 ^ k)).toNat = 2 ^ k := by
  have cast : (2 : ℤ) ^ k = ((2 ^ k : ℕ) : ℤ) := by push_cast; rfl
  rw [cast, toNat_ofInt_natCast (Nat.pow_lt_pow_right (by decide) (by omega))]

theorem toNat_evenShardsWidth (fits : k ≤ 62) :
    (evenShardsWidth (2 ^ k)).toNat = 2 ^ (64 - k) % 2 ^ 64 := by
  have wide : 0 < 2 ^ (64 - k) := Nat.pow_pos (by decide)
  have top : maxUint64.toNat = 2 ^ 64 - 1 := rfl
  rw [evenShardsWidth, UInt64.toNat_add, UInt64.toNat_div, toNat_ofInt_two_pow fits, top,
    max_div_two_pow (by omega), UInt64.toNat_one, Nat.sub_add_cancel wide]

/-- Where shard `i` starts, as an integer: `i * 2 ^ (64 - k)` wrapped to a `uint64`. -/
theorem toNat_evenShardsStart (fits : k ≤ 62) (i : ℤ) :
    ((UInt64.ofInt i * evenShardsWidth (2 ^ k)).toNat : ℤ) = i * 2 ^ (64 - k) % 2 ^ 64 := by
  rw [UInt64.toNat_mul, Int.natCast_mod, Nat.cast_mul, Go.toNat_ofInt64, toNat_evenShardsWidth fits,
    Int.natCast_mod]
  push_cast
  rw [← Int.mul_emod]

theorem toNat_evenShardsStart_of_lt (fits : k ≤ 62) {j : ℕ} (below : j < 2 ^ k) :
    (UInt64.ofInt j * evenShardsWidth (2 ^ k)).toNat = j * 2 ^ (64 - k) := by
  have exact := toNat_evenShardsStart fits j
  have small : (j : ℤ) * 2 ^ (64 - k) < 2 ^ 64 := by exact_mod_cast mul_width_lt (by omega) below
  rw [Int.emod_eq_of_lt (by positivity) small] at exact
  exact_mod_cast exact

/-- The start of shard `2 ^ k`, one past the last, wraps to zero. -/
theorem evenShardsStart_count (fits : k ≤ 62) :
    UInt64.ofInt (2 ^ k) * evenShardsWidth (2 ^ k) = 0 := by
  have exact := toNat_evenShardsStart fits (2 ^ k)
  rw [← pow_add, Nat.add_sub_cancel' (by omega : k ≤ 64), Int.emod_self] at exact
  exact UInt64.toNat_inj.mp (by exact_mod_cast exact)

/-- The bounds of `2 ^ k` shards are cut to at least `k` bits. -/
theorem evenShardsMinBytes_bounds (fits : k ≤ 62) :
    k ≤ 8 * evenShardsMinBytes (2 ^ k) ∧ evenShardsMinBytes (2 ^ k) ≤ 8 := by
  have last : (UInt64.ofInt (2 ^ k - 1)).toNat = 2 ^ k - 1 := by
    have cast : (2 : ℤ) ^ k - 1 = ((2 ^ k - 1 : ℕ) : ℤ) := by push_cast [Nat.one_le_two_pow]; rfl
    have small : 2 ^ k - 1 < 2 ^ 64 := by
      have := Nat.pow_lt_pow_right (by decide : 1 < 2) (by omega : k < 64)
      omega
    rw [cast, toNat_ofInt_natCast small]
  have fitsLoop : (UInt64.ofInt (2 ^ k - 1)).toNat < 256 ^ 8 := UInt64.toNat_lt _
  have counted := lt_pow_minBytesLoop fitsLoop
  rw [last, show (256 : ℕ) = 2 ^ 8 from rfl, ← pow_mul] at counted
  refine ⟨?_, minBytesLoop_le 8 _⟩
  have covered : 2 ^ k ≤ 2 ^ (8 * evenShardsMinBytes (2 ^ k)) := by
    unfold evenShardsMinBytes
    omega
  exact (Nat.pow_le_pow_iff_right (by decide)).mp covered

/-- The multiples of the width keep their nonzero bytes within `minBytes`. -/
theorem aligned_evenShardsStart (fits : k ≤ 62) (j : ℕ) :
    256 ^ (8 - evenShardsMinBytes (2 ^ k)) ∣ j * 2 ^ (64 - k) := by
  obtain ⟨bits, enough⟩ := evenShardsMinBytes_bounds fits
  rw [show (256 : ℕ) = 2 ^ 8 from rfl, ← pow_mul]
  exact Dvd.dvd.mul_left (pow_dvd_pow 2 (by omega)) j

end PowerOfTwo

/-! ### The shards in the keyspace order -/

/-- The `j`-th boundary of `2 ^ k` even shards in the keyspace order: the id of
`j * 2 ^ (64 - k)`, and past every id once `j` reaches `2 ^ k`. -/
def evenBoundary (k j : ℕ) : WithTop (List ℕ) :=
  if j < 2 ^ k then ↑(keyPoint (encode 8 (j * 2 ^ (64 - k)))) else ⊤

section Boundary

variable {k : ℕ}

theorem mul_width_lt_encode (fits : k ≤ 64) {j : ℕ} (below : j < 2 ^ k) :
    j * 2 ^ (64 - k) < 256 ^ 8 :=
  (mul_width_lt fits below).trans_eq (by norm_num)

@[simp] theorem evenBoundary_zero : evenBoundary k 0 = ↑([] : List ℕ) := by
  rw [evenBoundary, if_pos (Nat.pow_pos (by decide)), Nat.zero_mul, keyPoint_encode_zero]

@[simp] theorem evenBoundary_count : evenBoundary k (2 ^ k) = ⊤ := by
  simp [evenBoundary]

theorem evenBoundary_monotone (fits : k ≤ 64) : Monotone (evenBoundary k) := by
  intro j j' le
  unfold evenBoundary
  split_ifs with below below'
  · exact WithTop.coe_le_coe.mpr (keyPoint_encode_le (Nat.mul_le_mul_right _ le)
      (mul_width_lt_encode fits below'))
  · exact le_top
  · omega
  · exact le_refl _

theorem evenBoundary_lt_succ (fits : k ≤ 64) {j : ℕ} (below : j < 2 ^ k) :
    evenBoundary k j < evenBoundary k (j + 1) := by
  unfold evenBoundary
  rw [if_pos below]
  split_ifs with next
  · have step : j * 2 ^ (64 - k) < (j + 1) * 2 ^ (64 - k) :=
      Nat.mul_lt_mul_of_pos_right (Nat.lt_succ_self j) (Nat.pow_pos (by decide))
    exact WithTop.coe_lt_coe.mpr (keyPoint_encode_lt step (mul_width_lt_encode fits next))
  · exact WithTop.coe_lt_top _

end Boundary

/-- The intervals between consecutive points of a monotone sequence cut the interval
from its first to its `N`-th point: each element lies in exactly one of them. -/
theorem existsUnique_mem_Ico_succ {α : Type*} [LinearOrder α] {a : ℕ → α} (mono : Monotone a)
    {N : ℕ} {x : α} (inside : x ∈ Set.Ico (a 0) (a N)) :
    ∃! i, i < N ∧ x ∈ Set.Ico (a i) (a (i + 1)) := by
  obtain ⟨i, range, mem⟩ := Set.mem_iUnion₂.mp (Ico_subset_biUnion_Ico N a inside)
  refine ⟨i, ⟨Finset.mem_range.mp range, mem⟩, ?_⟩
  rintro j ⟨-, other⟩
  by_contra different
  have apart := mono.pairwise_disjoint_on_Ico_succ different
  simp only [Function.onFun, Order.succ_eq_add_one] at apart
  exact Set.disjoint_left.mp apart other mem

/-- Every call with a power of two and an index below it passes the checks. -/
theorem evenShardsKeyRange_pow {k : ℕ} {i : ℤ} (below : i < 2 ^ k) :
    evenShardsKeyRange i (2 ^ k) = .ok (evenShardsRange i (2 ^ k)) := by
  have positive : ¬ (2 : ℤ) ^ k ≤ 0 := not_le.mpr (by positivity)
  have power : ((2 : ℤ) ^ k).toNat &&& (((2 : ℤ) ^ k).toNat - 1) = 0 := by
    rw [show ((2 : ℤ) ^ k).toNat = 2 ^ k by exact_mod_cast Int.toNat_natCast (2 ^ k),
      Nat.and_two_pow_sub_one_eq_mod, Nat.mod_self]
  simp [evenShardsKeyRange, positive, not_le.mpr below, power]

example : evenShardsKeyRange 1 4 = .ok ⟨[0x40], [0x80]⟩ := by decide
example : evenShardsKeyRange 256 512 = .ok ⟨[0x80, 0x00], [0x80, 0x80]⟩ := by decide

/-- The end of shard `i` is written as the start of shard `i + 1`, for any count. -/
theorem evenShardsRange_end (i n : ℤ) :
    (evenShardsRange i n).End = (evenShardsRange (i + 1) n).Start := by
  simp only [evenShardsRange, UInt64.ofInt_add, UInt64.ofInt_one, UInt64.add_mul, UInt64.one_mul]

section Tiling

variable {k : ℕ}

theorem startPoint_evenShardsRange (fits : k ≤ 62) {i : ℕ} (below : i < 2 ^ k) :
    startPoint (some (evenShardsRange i (2 ^ k))) = evenBoundary k i := by
  obtain ⟨-, enough⟩ := evenShardsMinBytes_bounds fits
  have aligned := aligned_evenShardsStart fits i
  rw [← toNat_evenShardsStart_of_lt fits below] at aligned
  simp only [startPoint, rangeStart_some, evenShardsRange, keyPoint_boundBytes enough aligned,
    toNat_evenShardsStart_of_lt fits below, evenBoundary, if_pos below]

theorem endPoint_evenShardsRange (fits : k ≤ 62) {i : ℕ} (below : i < 2 ^ k) :
    endPoint (some (evenShardsRange i (2 ^ k))) = evenBoundary k (i + 1) := by
  obtain ⟨-, enough⟩ := evenShardsMinBytes_bounds fits
  rw [endPoint_some, evenShardsRange_end]
  rcases (Nat.succ_le_of_lt below).lt_or_eq with next | last
  · -- an inner bound: the start of the next shard, which is not zero
    have aligned := aligned_evenShardsStart fits (i + 1)
    rw [← toNat_evenShardsStart_of_lt fits next] at aligned
    have nonzero : UInt64.ofInt ((i + 1 : ℕ) : ℤ) * evenShardsWidth (2 ^ k) ≠ 0 := by
      rw [← UInt64.toNat_inj.ne, toNat_evenShardsStart_of_lt fits next, UInt64.toNat_zero]
      exact Nat.mul_ne_zero (Nat.succ_ne_zero i) (Nat.pow_pos (by decide)).ne'
    have cast : ((i : ℤ) + 1) = ((i + 1 : ℕ) : ℤ) := by push_cast; rfl
    simp only [evenShardsRange, cast, endBound_boundBytes enough aligned, if_neg nonzero,
      toNat_evenShardsStart_of_lt fits next, evenBoundary, if_pos next]
  · -- the last bound wraps to zero and is written empty
    have cast : ((i : ℤ) + 1) = 2 ^ k := by exact_mod_cast last
    rw [show i + 1 = 2 ^ k from last, evenBoundary_count]
    simp only [evenShardsRange, cast, evenShardsStart_count fits, boundBytes_zero, endBound_nil]

theorem span_evenShardsRange (fits : k ≤ 62) {i : ℕ} (below : i < 2 ^ k) :
    span (some (evenShardsRange i (2 ^ k))) = Set.Ico (evenBoundary k i) (evenBoundary k (i + 1)) := by
  rw [span, startPoint_evenShardsRange fits below, endPoint_evenShardsRange fits below]

/-- For a power of two `n = 2 ^ k` that a Go `int` holds, `EvenShardsKeyRange`
cuts the keyspace into `n` ranges: every index below `n` is accepted, the first
range starts at the minimum and the last ends at the maximum, each range ends where
the next starts, none is empty, and every id lies in exactly one of them. -/
theorem evenShards_tile_keyspace (k : ℕ) (fits : k ≤ 62) :
    ∃ ranges : ℕ → KeyRange,
      (∀ i : ℕ, i < 2 ^ k → evenShardsKeyRange i (2 ^ k) = .ok (ranges i)) ∧
      (ranges 0).Start = [] ∧ (ranges (2 ^ k - 1)).End = [] ∧
      (∀ i, i + 1 < 2 ^ k → (ranges i).End = (ranges (i + 1)).Start) ∧
      (∀ i < 2 ^ k, keyRangeContains (some (ranges i)) (ranges i).Start = true) ∧
      ∀ id : Bytes, ∃! i, i < 2 ^ k ∧ keyRangeContains (some (ranges i)) id = true := by
  have positive : 0 < 2 ^ k := Nat.pow_pos (by decide)
  refine ⟨fun i => evenShardsRange i (2 ^ k), fun i below => evenShardsKeyRange_pow (by exact_mod_cast below),
    ?first, ?last, ?adjacent, ?nonempty, ?unique⟩
  case first =>
    simp only [evenShardsRange, Nat.cast_zero, show UInt64.ofInt 0 = 0 from rfl, UInt64.zero_mul,
      boundBytes_zero]
  case last =>
    have cast : ((2 ^ k - 1 : ℕ) : ℤ) + 1 = 2 ^ k := by push_cast [Nat.one_le_two_pow]; omega
    rw [evenShardsRange_end, cast]
    simp only [evenShardsRange, evenShardsStart_count fits, boundBytes_zero]
  case adjacent =>
    intro i _
    simp only [evenShardsRange_end, Nat.cast_add, Nat.cast_one]
  case nonempty =>
    intro i below
    rw [keyRangeContains_iff, span_evenShardsRange fits below, ← startPoint_evenShardsRange fits below]
    exact ⟨le_refl _, (startPoint_evenShardsRange fits below).trans_lt (evenBoundary_lt_succ (by omega) below)⟩
  case unique =>
    intro id
    have inside : ↑(keyPoint id) ∈ Set.Ico (evenBoundary k 0) (evenBoundary k (2 ^ k)) := by
      simp [WithTop.coe_lt_top]
    refine (existsUnique_congr fun i => ?_).mpr
      (existsUnique_mem_Ico_succ (evenBoundary_monotone (by omega)) inside)
    refine and_congr_right fun below => ?_
    rw [keyRangeContains_iff, span_evenShardsRange fits below]

theorem evenShards_tile_four :
    2 ≤ 62 ∧ ∃ ranges : ℕ → KeyRange,
      (∀ i : ℕ, i < 2 ^ 2 → evenShardsKeyRange i (2 ^ 2) = .ok (ranges i)) ∧
      (ranges 0).Start = [] ∧ (ranges (2 ^ 2 - 1)).End = [] ∧
      (∀ i, i + 1 < 2 ^ 2 → (ranges i).End = (ranges (i + 1)).Start) ∧
      (∀ i < 2 ^ 2, keyRangeContains (some (ranges i)) (ranges i).Start = true) ∧
      ∀ id : Bytes, ∃! i, i < 2 ^ 2 ∧ keyRangeContains (some (ranges i)) id = true :=
  ⟨by decide, evenShards_tile_keyspace 2 (by decide)⟩

/-- An index is only checked from above: the call accepts any integer below
`2 ^ k`, a negative one included, and returns the range of the shard of its
remainder modulo `2 ^ k`, since `Uint64Key(i)` wraps it and `2 ^ k` widths make up
the whole `2 ^ 64`. -/
theorem evenShards_index_wraps (k : ℕ) (fits : k ≤ 62) (i : ℤ) (below : i < 2 ^ k) :
    evenShardsKeyRange i (2 ^ k) = .ok (evenShardsRange (i % 2 ^ k) (2 ^ k)) := by
  have positive : (0 : ℤ) < 2 ^ k := by positivity
  have starts : UInt64.ofInt i * evenShardsWidth (2 ^ k) =
      UInt64.ofInt (i % 2 ^ k) * evenShardsWidth (2 ^ k) := by
    apply UInt64.toNat_inj.mp
    apply Int.ofNat_inj.mp
    rw [toNat_evenShardsStart fits, toNat_evenShardsStart fits]
    -- `i` and its remainder differ by a multiple of `2 ^ k`, and `2 ^ k` widths are `2 ^ 64`
    have whole : (2 : ℤ) ^ k * 2 ^ (64 - k) = 2 ^ 64 := by
      rw [← pow_add, Nat.add_sub_cancel' (by omega : k ≤ 64)]
    conv_lhs => rw [← Int.mul_ediv_add_emod i (2 ^ k)]
    rw [Int.add_mul, mul_right_comm, whole, add_comm, Int.add_mul_emod_self_left]
  rw [evenShardsKeyRange_pow below]
  simp only [evenShardsRange, starts]

theorem evenShards_index_wraps_minus_one :
    2 ≤ 62 ∧ (-1 : ℤ) < 2 ^ 2 ∧
      evenShardsKeyRange (-1) (2 ^ 2) = .ok (evenShardsRange (-1 % 2 ^ 2) (2 ^ 2)) :=
  ⟨by decide, by decide, evenShards_index_wraps 2 (by decide) (-1) (by decide)⟩

example : evenShardsKeyRange (-1) 4 = .ok ⟨[0xc0], []⟩ := by decide

end Tiling

end Vitess.Key
