import Vitess.Go.Int64
import Mathlib.Algebra.Order.BigOperators.Group.List
import Mathlib.Algebra.Ring.Int.Defs
import Mathlib.Algebra.GroupWithZero.Nat

/-!
# Cross-shard SUM aggregators

`aggregationSumCount`, `aggregationInt` and `aggregationUint` of
`go/vt/vtgate/evalengine/api_aggregation.go`. A value fed to `Add` is NULL
(`none`) or the integer its text parses to; `ToInt64` and `ToUint64` of an
integral value of the column's type do not fail. The `decimal.Decimal` the
integer aggregators switch to holds an integer here, so it is that integer, and
`none` until it is initialized. `Result` is NULL or the integer its text spells:
`strconv.AppendInt`, `strconv.AppendUint` and `FormatMySQL(0)` of an integral
decimal all print the integer in base 10.

`aggregationInt` adds in 64 bits and switches to a decimal when the wrapped sum
shows an overflow; the invariant `AggregationInt.Holds` makes its sum exact
(`sum_int_exact`). The sum of counts reports the overflow as an error instead
(`sum_of_counts_exact`). `aggregationUint` guards the same switch with a literal
`if false`, so its sum wraps.
-/

namespace Vitess.Evalengine

open Vitess.Go

/-- `dataOutOfRangeError(v1, v2, typ, sign)`:
"%s value is out of range in '(%v %s %v)'" of `typ`, `v1`, `sign`, `v2`. -/
structure DataOutOfRange where
  typ : String
  left : ℤ
  sign : String
  right : ℤ
  deriving DecidableEq, Repr

/-- The state of `aggregationSumCount`. -/
structure AggregationSumCount where
  n : ℤ
  deriving DecidableEq, Repr

/-- `aggregationSumCount.Add`: a 64-bit sum that fails on overflow. -/
def AggregationSumCount.add (s : AggregationSumCount) :
    Option ℤ → Except DataOutOfRange AggregationSumCount
  | none => .ok s
  | some n =>
    let result := wrapInt64 (s.n + n)
    if decide (s.n < result) != decide (0 < n) then .error ⟨"BIGINT", s.n, "+", n⟩
    else .ok ⟨result⟩

/-- `NewSumOfCounts` fed `values`, then `Result`. -/
def sumOfCounts (values : List (Option ℤ)) : Except DataOutOfRange ℤ :=
  (values.foldlM AggregationSumCount.add ⟨0⟩).map AggregationSumCount.n

/-- The state of `aggregationInt`. -/
structure AggregationInt where
  current : ℤ
  dec : Option ℤ
  init : Bool
  deriving DecidableEq, Repr

/-- `aggregationInt.Add`. -/
def AggregationInt.add (s : AggregationInt) : Option ℤ → AggregationInt
  | none => s
  | some n =>
    match s.dec with
    | some d => { s with init := true, dec := some (d + n) }
    | none =>
      let result := wrapInt64 (s.current + n)
      if decide (s.current < result) != decide (0 < n) then
        { s with init := true, dec := some (s.current + n) }
      else { s with init := true, current := result }

/-- `aggregationInt.Result`. -/
def AggregationInt.result (s : AggregationInt) : Option ℤ :=
  if s.init then
    match s.dec with
    | some d => some d
    | none => some s.current
  else none

/-- `NewAggregationSum` of a signed type fed `values`, then `Result`. -/
def sumInt (values : List (Option ℤ)) : Option ℤ :=
  (values.foldl AggregationInt.add ⟨0, none, false⟩).result

/-- The state of `aggregationUint`. -/
structure AggregationUint where
  current : ℕ
  dec : Option ℤ
  init : Bool
  deriving DecidableEq, Repr

/-- `aggregationUint.Add`: the switch to a decimal sits under `if false`. -/
def AggregationUint.add (s : AggregationUint) : Option ℕ → AggregationUint
  | none => s
  | some n =>
    match s.dec with
    | some d => { s with init := true, dec := some (d + n) }
    | none =>
      let result := wrapUint64 (s.current + n)
      if false then { s with init := true, dec := some ((s.current : ℤ) + n) }
      else { s with init := true, current := result }

/-- `aggregationUint.Result`. -/
def AggregationUint.result (s : AggregationUint) : Option ℤ :=
  if s.init then
    match s.dec with
    | some d => some d
    | none => some s.current
  else none

/-- `NewAggregationSum` of an unsigned type fed `values`, then `Result`. -/
def sumUint (values : List (Option ℕ)) : Option ℤ :=
  (values.foldl AggregationUint.add ⟨0, none, false⟩).result

namespace AggregationInt

/-- The state carries the exact sum `total` of what it was fed: in the decimal
once it has switched, else in `current`, which then fits 64 bits. -/
def Holds (s : AggregationInt) (total : ℤ) : Prop :=
  match s.dec with
  | some d => d = total
  | none => s.current = total ∧ InInt64 total

theorem add_init (s : AggregationInt) (v : Option ℤ) :
    (s.add v).init = (s.init || v.isSome) := by
  cases v with
  | none => simp [add]
  | some n =>
    cases decimal : s.dec with
    | some d => simp [add, decimal]
    | none =>
      by_cases overflow : (decide (s.current < wrapInt64 (s.current + n)) != decide (0 < n)) = true
      · simp [add, decimal, overflow]
      · simp [add, decimal, overflow]

/-- One `Add` of an `int64` keeps the sum exact: on the overflow the wrapped
sum reveals, the exact sum moves into the decimal. -/
theorem add_holds {s : AggregationInt} {total n : ℤ} (holds : s.Holds total)
    (inRange : InInt64 n) : (s.add (some n)).Holds (total + n) := by
  unfold Holds at holds
  cases decimal : s.dec with
  | some d =>
    rw [decimal] at holds
    simp [add, Holds, decimal, holds]
  | none =>
    rw [decimal] at holds
    obtain ⟨rfl, currentInRange⟩ := holds
    by_cases overflow : (decide (s.current < wrapInt64 (s.current + n)) != decide (0 < n)) = true
    · simp [add, Holds, decimal, overflow]
    · have fits : InInt64 (s.current + n) :=
        not_not.mp ((addWrapped_test_iff currentInRange inRange).not.mp overflow)
      have sameDirection : s.current < s.current + n ↔ 0 < n := by
        constructor <;> intro <;> omega
      simp [add, Holds, decimal, wrapInt64_of_inInt64 fits, sameDirection, fits]

/-- A run of `Add`s adds the exact sum of the non-NULL values and records
whether there was one. -/
theorem foldl_holds (values : List (Option ℤ)) (inRange : ∀ n ∈ values.filterMap id, InInt64 n)
    {s : AggregationInt} {total : ℤ} (holds : s.Holds total) :
    (values.foldl add s).Holds (total + (values.filterMap id).sum) ∧
      (values.foldl add s).init = (s.init || values.any Option.isSome) := by
  induction values generalizing s total with
  | nil => simpa using holds
  | cons v rest inductionHypothesis =>
    cases v with
    | none =>
      have restInRange : ∀ n ∈ rest.filterMap id, InInt64 n := by simpa using inRange
      simpa [add] using inductionHypothesis restInRange holds
    | some n =>
      have nInRange : InInt64 n := inRange n (by simp)
      have restInRange : ∀ n ∈ rest.filterMap id, InInt64 n := fun m member =>
        inRange m (by simp_all)
      obtain ⟨restHolds, restInit⟩ := inductionHypothesis restInRange (add_holds holds nInRange)
      refine ⟨by simpa [Int.add_assoc] using restHolds, ?_⟩
      simp [restInit, add_init]

theorem result_of_holds {s : AggregationInt} {total : ℤ} (holds : s.Holds total) :
    s.result = if s.init then some total else none := by
  unfold Holds at holds
  unfold result
  cases decimal : s.dec with
  | some d => simp_all
  | none => simp_all

end AggregationInt

/-- A signed SUM is NULL without non-NULL values, and otherwise the exact sum:
never a wrapped 64-bit value. -/
theorem sum_int_exact (values : List (Option ℤ))
    (inRange : ∀ n ∈ values.filterMap id, InInt64 n) :
    sumInt values = if values.any Option.isSome then some (values.filterMap id).sum else none := by
  have start : AggregationInt.Holds ⟨0, none, false⟩ 0 := ⟨rfl, by decide⟩
  obtain ⟨holds, init⟩ := AggregationInt.foldl_holds values inRange start
  rw [sumInt, AggregationInt.result_of_holds holds, init]
  simp

namespace AggregationSumCount

theorem add_none (s : AggregationSumCount) : add s none = pure s :=
  rfl

theorem add_of_fits {acc n : ℤ} (fits : InInt64 (acc + n)) :
    add ⟨acc⟩ (some n) = pure ⟨acc + n⟩ := by
  have sameDirection : acc < acc + n ↔ 0 < n := by
    constructor <;> intro <;> omega
  simp [add, wrapInt64_of_inInt64 fits, sameDirection]
  rfl

theorem add_of_overflow {acc n : ℤ} (accInRange : InInt64 acc) (nInRange : InInt64 n)
    (overflow : ¬ InInt64 (acc + n)) : add ⟨acc⟩ (some n) = .error ⟨"BIGINT", acc, "+", n⟩ := by
  have detected := (addWrapped_test_iff accInRange nInRange).mpr overflow
  simp [add, detected]

/-- Counts added to `acc`: their exact sum when it fits `int64`, else an error. -/
theorem foldlM_add (values : List (Option ℤ))
    (counts : ∀ n ∈ values.filterMap id, 0 ≤ n ∧ InInt64 n) (acc : ℤ)
    (accCount : 0 ≤ acc ∧ InInt64 acc) :
    (InInt64 (acc + (values.filterMap id).sum) →
        values.foldlM add ⟨acc⟩ = .ok ⟨acc + (values.filterMap id).sum⟩) ∧
      (¬ InInt64 (acc + (values.filterMap id).sum) →
        ∃ e, values.foldlM add ⟨acc⟩ = .error e) := by
  induction values generalizing acc with
  | nil =>
    refine ⟨fun _ => by simp; rfl, fun outside => absurd (by simpa using accCount.2) outside⟩
  | cons v rest inductionHypothesis =>
    cases v with
    | none =>
      have restCounts : ∀ n ∈ rest.filterMap id, 0 ≤ n ∧ InInt64 n := by simpa using counts
      simpa [add_none] using inductionHypothesis restCounts acc accCount
    | some n =>
      have nCount : 0 ≤ n ∧ InInt64 n := counts n (by simp)
      have restCounts : ∀ n ∈ rest.filterMap id, 0 ≤ n ∧ InInt64 n := fun m member =>
        counts m (by simp_all)
      have restNonneg : 0 ≤ (rest.filterMap id).sum :=
        List.sum_nonneg fun m member => (restCounts m member).1
      by_cases fits : InInt64 (acc + n)
      · have next := inductionHypothesis restCounts (acc + n) ⟨by omega, fits⟩
        simp only [List.filterMap_cons, id, List.sum_cons, List.foldlM_cons,
          add_of_fits fits, pure_bind]
        simpa [Int.add_assoc] using next
      · -- counts never decrease the sum, so the total is out of range as well
        have totalOutside : ¬ InInt64 (acc + (n + (rest.filterMap id).sum)) := by
          unfold InInt64 at fits ⊢
          omega
        simp only [List.filterMap_cons, id, List.sum_cons, List.foldlM_cons,
          add_of_overflow accCount.2 nCount.2 fits]
        exact ⟨fun inside => absurd inside totalOutside, fun _ => ⟨_, rfl⟩⟩

end AggregationSumCount

/-- The sum of counts is the exact sum of the counts when it fits `int64`, and a
`DataOutOfRange` error exactly when it does not. -/
theorem sum_of_counts_exact (values : List (Option ℤ))
    (counts : ∀ n ∈ values.filterMap id, 0 ≤ n ∧ InInt64 n) :
    (InInt64 (values.filterMap id).sum → sumOfCounts values = .ok (values.filterMap id).sum) ∧
      (¬ InInt64 (values.filterMap id).sum → ∃ e, sumOfCounts values = .error e) := by
  obtain ⟨fitting, overflowing⟩ :=
    AggregationSumCount.foldlM_add values counts 0 ⟨le_refl 0, by decide⟩
  refine ⟨fun inside => ?_, fun outside => ?_⟩
  · rw [sumOfCounts, fitting (by simpa using inside)]
    simp [Except.map]
  · obtain ⟨e, failed⟩ := overflowing (by simpa using outside)
    exact ⟨e, by rw [sumOfCounts, failed]; rfl⟩

namespace AggregationUint

/-- Without the switch, the unsigned state never leaves 64 bits: `current` is
the sum of what it was fed, modulo `2^64`. -/
theorem foldl_wraps (values : List (Option ℕ)) {s : AggregationUint} (noDecimal : s.dec = none)
    (fits : InUint64 s.current) :
    (values.foldl add s).dec = none ∧
      (values.foldl add s).current = (s.current + (values.filterMap id).sum) % 2 ^ 64 ∧
      (values.foldl add s).init = (s.init || values.any Option.isSome) := by
  induction values generalizing s with
  | nil => exact ⟨noDecimal, (Nat.mod_eq_of_lt fits).symm, by simp⟩
  | cons v rest inductionHypothesis =>
    cases v with
    | none => simpa [add] using inductionHypothesis noDecimal fits
    | some n =>
      have stepped : s.add (some n) = { s with init := true, current := (s.current + n) % 2 ^ 64 } := by
        simp [add, noDecimal, wrapUint64]
      obtain ⟨restDecimal, restCurrent, restInit⟩ :=
        inductionHypothesis (s := s.add (some n)) (by rw [stepped]; exact noDecimal)
          (by rw [stepped]; exact Nat.mod_lt _ (by decide))
      rw [List.foldl_cons]
      refine ⟨restDecimal, ?_, ?_⟩
      · rw [restCurrent, stepped]
        simp [Nat.add_assoc]
      · rw [restInit, stepped]
        simp

end AggregationUint

/-- An unsigned SUM is the sum of its values modulo `2^64`: the switch to a
decimal never happens. -/
theorem sum_uint_wraps (values : List (Option ℕ)) :
    sumUint values =
      if values.any Option.isSome then some (((values.filterMap id).sum % 2 ^ 64 : ℕ) : ℤ)
      else none := by
  obtain ⟨noDecimal, current, init⟩ :=
    AggregationUint.foldl_wraps values (s := ⟨0, none, false⟩) rfl (by decide)
  simp only [sumUint, AggregationUint.result, noDecimal, current, init]
  simp

/-- `SUM` over an unsigned column holding `2^63` twice returns `0`, although
the exact sum is `18446744073709551616`; the signed sibling, given values with
the same exact sum, returns it. -/
theorem unsigned_sum_wraps_to_zero :
    sumUint [some (2 ^ 63), some (2 ^ 63)] = some 0 ∧
      sumInt [some (2 ^ 63 - 1), some (2 ^ 63 - 1), some 2] = some 18446744073709551616 := by
  decide

end Vitess.Evalengine
