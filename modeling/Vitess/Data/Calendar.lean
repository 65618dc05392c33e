import Mathlib.Algebra.Order.BigOperators.Group.List
import Mathlib.Algebra.Order.Group.Int
import Mathlib.Order.Monotone.Basic
import Mathlib.Algebra.Ring.Int.Defs
import Mathlib.Data.Int.ConditionallyCompleteOrder
import Mathlib.Order.ConditionallyCompleteLattice.Basic

/-!
# Days of the proleptic Gregorian calendar

The Gregorian calendar extended back to year 1: a year is a leap year when four
divides it, unless a hundred does and four hundred does not. `leapYearsUpTo n`
counts the leap years of `1..n` and `daysBeforeYear y` the days of the years
before `y`; `daysBeforeYear_succ` adds one year at a time, so the year starts
are strictly increasing (`daysBeforeYear_strictMono`).

Within a year the months are a list of lengths, and a day of the year falls in
the first month whose running total reaches it. `locate` walks the lengths:
`locate_spec` says that what it returns is the lengths before the month plus the
day, and `locate_take_sum_add` that it finds every such day back.
-/

namespace Vitess.Calendar

/-- A leap year of the Gregorian calendar. -/
def IsLeapYear (y : ℤ) : Prop :=
  y % 4 = 0 ∧ (y % 100 ≠ 0 ∨ y % 400 = 0)

instance : DecidablePred IsLeapYear :=
  fun _ => inferInstanceAs (Decidable (_ ∧ _))

/-- The number of leap years in `1..n`. -/
def leapYearsUpTo (n : ℤ) : ℤ :=
  n / 4 - n / 100 + n / 400

theorem leapYearsUpTo_succ (n : ℤ) :
    leapYearsUpTo (n + 1) = leapYearsUpTo n + if IsLeapYear (n + 1) then 1 else 0 := by
  unfold leapYearsUpTo IsLeapYear
  split_ifs <;> omega

/-- The days of year `y`. -/
def daysInYear (y : ℤ) : ℤ :=
  if IsLeapYear y then 366 else 365

theorem daysInYear_pos (y : ℤ) : 365 ≤ daysInYear y ∧ daysInYear y ≤ 366 := by
  unfold daysInYear
  split_ifs <;> omega

/-- The days of the years `1..y-1`. -/
def daysBeforeYear (y : ℤ) : ℤ :=
  365 * (y - 1) + leapYearsUpTo (y - 1)

theorem daysBeforeYear_succ (y : ℤ) :
    daysBeforeYear (y + 1) = daysBeforeYear y + daysInYear y := by
  have next := leapYearsUpTo_succ (y - 1)
  rw [sub_add_cancel] at next
  unfold daysBeforeYear daysInYear
  rw [add_sub_cancel_right, next]
  split_ifs <;> omega

theorem daysBeforeYear_strictMono : StrictMono daysBeforeYear :=
  strictMono_int_of_lt_succ fun y => by
    rw [daysBeforeYear_succ]
    have := daysInYear_pos y
    omega

/-! ## Locating a day among the months -/

/-- The segment that position `pos` falls in, among consecutive segments of the
given lengths, counted from `0`, and the position inside it: the first segment
whose running total reaches `pos`. -/
def locate : List ℤ → ℤ → Option (ℕ × ℤ)
  | [], _ => none
  | length :: lengths, pos =>
    if pos ≤ length then some (0, pos)
    else (locate lengths (pos - length)).map fun (index, offset) => (index + 1, offset)

@[simp] theorem locate_nil (pos : ℤ) : locate [] pos = none := rfl

theorem locate_cons_of_le {length pos : ℤ} (lengths : List ℤ) (inside : pos ≤ length) :
    locate (length :: lengths) pos = some (0, pos) := by
  rw [locate, if_pos inside]

theorem locate_cons_of_lt {length pos : ℤ} (lengths : List ℤ) (past : length < pos) :
    locate (length :: lengths) pos =
      (locate lengths (pos - length)).map fun (index, offset) => (index + 1, offset) := by
  rw [locate, if_neg (not_le.mpr past)]

/-- What `locate` returns: a segment, an offset no larger than its length, and
`pos` as the lengths before the segment plus the offset; the offset is positive
when `pos` is. -/
theorem locate_spec {lengths : List ℤ} {pos offset : ℤ} {index : ℕ}
    (located : locate lengths pos = some (index, offset)) :
    ∃ inside : index < lengths.length, offset ≤ lengths[index] ∧
      pos = (lengths.take index).sum + offset ∧ (0 < pos → 0 < offset) := by
  induction lengths generalizing pos index with
  | nil => simp at located
  | cons length lengths ih =>
    rcases le_or_gt pos length with first | past
    · rw [locate_cons_of_le lengths first, Option.some.injEq, Prod.mk.injEq] at located
      obtain ⟨rfl, rfl⟩ := located
      exact ⟨by simp, first, by simp, id⟩
    · rw [locate_cons_of_lt lengths past] at located
      obtain ⟨⟨index', offset'⟩, later, step⟩ := Option.map_eq_some_iff.mp located
      rw [Prod.mk.injEq] at step
      obtain ⟨rfl, rfl⟩ := step
      obtain ⟨inside, le, sum, positive⟩ := ih later
      refine ⟨by simpa using inside, by simpa using le, ?_, fun _ => positive (by omega)⟩
      rw [List.take_succ_cons, List.sum_cons]
      omega

/-- A positive position up to the total length falls in some segment. -/
theorem locate_isSome {lengths : List ℤ} {pos : ℤ} (positive : 0 < pos)
    (within : pos ≤ lengths.sum) :
    (locate lengths pos).isSome := by
  induction lengths generalizing pos with
  | nil =>
    rw [List.sum_nil] at within
    omega
  | cons length lengths ih =>
    rcases le_or_gt pos length with first | past
    · simp [locate_cons_of_le lengths first]
    · rw [locate_cons_of_lt lengths past, Option.isSome_map]
      rw [List.sum_cons] at within
      exact ih (by omega) (by omega)

/-- Among segments of nonnegative lengths, `locate` finds every position back
from its segment and its positive offset. -/
theorem locate_take_sum_add {lengths : List ℤ} (nonneg : ∀ length ∈ lengths, 0 ≤ length)
    {index : ℕ} (inside : index < lengths.length) {offset : ℤ} (positive : 0 < offset)
    (le : offset ≤ lengths[index]) :
    locate lengths ((lengths.take index).sum + offset) = some (index, offset) := by
  induction lengths generalizing index with
  | nil => simp at inside
  | cons length lengths ih =>
    cases index with
    | zero =>
      rw [List.take_zero, List.sum_nil, zero_add]
      exact locate_cons_of_le lengths le
    | succ index =>
      have first : 0 ≤ length := nonneg length List.mem_cons_self
      have rest : 0 ≤ (lengths.take index).sum :=
        List.sum_nonneg fun l mem => nonneg l (List.mem_cons_of_mem _ (List.mem_of_mem_take mem))
      rw [List.take_succ_cons, List.sum_cons, locate_cons_of_lt lengths (by omega),
        show length + (lengths.take index).sum + offset - length =
          (lengths.take index).sum + offset by omega,
        ih (fun l mem => nonneg l (List.mem_cons_of_mem _ mem)) (by simpa using inside) le]
      rfl

end Vitess.Calendar
