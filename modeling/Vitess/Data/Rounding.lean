import Mathlib.Algebra.Order.Floor.Ring
import Mathlib.Tactic.Linarith
import Mathlib.Tactic.Ring
import Mathlib.Data.Int.ConditionallyCompleteOrder

/-!
# Rounding to integers

Truncation toward zero (`towardZero`) and rounding to the nearest integer with
ties away from zero (`roundHalfAway`), over any floor ring. `NearestAway` says
what `roundHalfAway` is for: an integer no farther from `x` than any other, and
of two equally near ones the one farther from zero (`roundHalfAway_nearestAway`). Truncation is monotone (`towardZero_mono`), and an integer is the
truncation of `x` when the rest is less than one and of the sign of `x`
(`towardZero_eq_of_remainder`).

Both can be computed from one more digit: `towardZero (x / b)` is the truncated
quotient `Int.tdiv` (`towardZero_intCast_div`), and `roundHalfAway x` is the
truncation of `10 * x` with five added away from zero, divided by ten
(`roundHalfAway_eq_of_digit`).
-/

namespace Vitess.Rounding

variable {α : Type*} [Field α] [LinearOrder α] [IsStrictOrderedRing α] [FloorRing α]

/-- Truncation toward zero. -/
def towardZero (x : α) : ℤ := if 0 ≤ x then ⌊x⌋ else ⌈x⌉

/-- The nearest integer, a tie going away from zero. -/
def roundHalfAway (x : α) : ℤ := if 0 ≤ x then ⌊x + 1 / 2⌋ else ⌈x - 1 / 2⌉

/-- `n` is an integer nearest to `x`, and of two equally near ones the one
farther from zero. -/
def NearestAway (x : α) (n : ℤ) : Prop :=
  ∀ m : ℤ, |x - n| ≤ |x - m| ∧ (|x - m| = |x - n| → |(m : α)| ≤ |(n : α)|)

variable {x : α} {n : ℤ}

@[simp] theorem towardZero_intCast (n : ℤ) : towardZero (n : α) = n := by
  unfold towardZero
  split_ifs <;> simp

@[simp] theorem roundHalfAway_intCast (n : ℤ) : roundHalfAway (n : α) = n := by
  unfold roundHalfAway
  split_ifs
  · rw [Int.floor_eq_iff]
    constructor <;> linarith
  · rw [Int.ceil_eq_iff]
    constructor <;> linarith

omit [IsStrictOrderedRing α] in
/-- Truncation toward zero is monotone; across zero the ceiling is at most `0`
and the floor at least `0`. -/
theorem towardZero_mono : Monotone (towardZero : α → ℤ) := by
  intro x y le
  unfold towardZero
  by_cases xNonneg : 0 ≤ x
  · rw [if_pos xNonneg, if_pos (xNonneg.trans le)]
    exact Int.floor_mono le
  by_cases yNonneg : 0 ≤ y
  · have ceilNonpos : ⌈x⌉ ≤ 0 := Int.ceil_le.mpr (by simpa using (not_le.mp xNonneg).le)
    have floorNonneg : 0 ≤ ⌊y⌋ := Int.floor_nonneg.mpr yNonneg
    rw [if_neg xNonneg, if_pos yNonneg]
    exact ceilNonpos.trans floorNonneg
  · rw [if_neg xNonneg, if_neg yNonneg]
    exact Int.ceil_mono le

/-- Within half a unit of `x`, no integer is nearer. -/
theorem abs_sub_le_of_error (error : |x - n| ≤ 1 / 2) (m : ℤ) : |x - n| ≤ |x - m| := by
  by_cases same : m = n
  · rw [same]
  have apart : (1 : α) ≤ |(n : α) - m| := by
    have : (1 : ℤ) ≤ |n - m| := Int.one_le_abs (sub_ne_zero.mpr (Ne.symm same))
    exact_mod_cast this
  have triangle := abs_sub_le (n : α) x m
  rw [abs_sub_comm (n : α) x] at triangle
  linarith

/-- Of two integers equally near `x`, the other one is the reflection of `n`. -/
theorem reflect_of_tie {m : ℤ} (tie : |x - m| = |x - n|) (other : m ≠ n) : (m : α) = 2 * x - n := by
  rcases abs_eq_abs.mp tie with same | opposite
  · exact absurd (Int.cast_injective (by linarith : (m : α) = n)) other
  · linarith

/-- For `x ≥ 0`, `⌊x + 1/2⌋` is nearest, and at a tie it is the upper candidate. -/
theorem nearestAway_floor (nonneg : 0 ≤ x) : NearestAway x ⌊x + 1 / 2⌋ := by
  set n := ⌊x + 1 / 2⌋
  have below : (n : α) ≤ x + 1 / 2 := Int.floor_le _
  have above : x + 1 / 2 < n + 1 := Int.lt_floor_add_one _
  have error : |x - n| ≤ 1 / 2 := abs_le.mpr ⟨by linarith, by linarith⟩
  intro m
  refine ⟨abs_sub_le_of_error error m, fun tie => ?_⟩
  by_cases same : m = n
  · rw [same]
  -- the other candidate of a tie is `n - 1`, and `n ≥ 1`
  have reflected := reflect_of_tie tie same
  have lower : m = n - 1 := by
    have low : m - n < 1 := by exact_mod_cast (show ((m - n : ℤ) : α) < 1 by push_cast; linarith)
    have high : -1 ≤ m - n := by
      exact_mod_cast (show ((-1 : ℤ) : α) ≤ ((m - n : ℤ) : α) by push_cast; linarith)
    omega
  have positive : (0 : α) < n := by
    have : (m : α) = n - 1 := by rw [lower]; push_cast; ring
    linarith
  have : 0 < n := Int.cast_pos.mp positive
  rw [abs_of_nonneg (by exact_mod_cast (by omega : 0 ≤ m)), abs_of_nonneg positive.le]
  exact_mod_cast (by omega : m ≤ n)

omit [IsStrictOrderedRing α] [FloorRing α] in
/-- Negating both sides keeps `NearestAway`. -/
theorem NearestAway.neg (nearest : NearestAway x n) : NearestAway (-x) (-n) := by
  intro m
  obtain ⟨closest, tieBreak⟩ := nearest (-m)
  have distance : ∀ k : ℤ, |-x - ((-k : ℤ) : α)| = |x - k| := by
    intro k
    rw [← abs_neg]
    push_cast
    ring_nf
  have distance' : |-x - (m : α)| = |x - ((-m : ℤ) : α)| := by
    rw [← distance (-m), neg_neg]
  rw [distance n, distance']
  refine ⟨closest, fun tie => ?_⟩
  have := tieBreak tie
  push_cast at this ⊢
  simpa only [abs_neg] using this

theorem roundHalfAway_of_neg (negative : x < 0) : roundHalfAway x = -⌊-x + 1 / 2⌋ := by
  rw [roundHalfAway, if_neg (not_le.mpr negative), ← Int.ceil_neg]
  congr 1
  ring

/-- `roundHalfAway x` is the nearest integer to `x`, ties away from zero. -/
theorem roundHalfAway_nearestAway (x : α) : NearestAway x (roundHalfAway x) := by
  by_cases nonneg : 0 ≤ x
  · rw [roundHalfAway, if_pos nonneg]
    exact nearestAway_floor nonneg
  · rw [roundHalfAway_of_neg (not_le.mp nonneg)]
    have reflected := (nearestAway_floor (by linarith : 0 ≤ -x)).neg
    rwa [neg_neg] at reflected

/-- `n` is the truncation of `x` when the rest `x - n` is less than one and lies
on the side of zero that `x` does. -/
theorem towardZero_eq_of_remainder (near : |x - n| < 1) (sameSign : 0 ≤ (x - n) * x) :
    towardZero x = n := by
  obtain ⟨above, below⟩ := abs_lt.mp near
  rcases lt_trichotomy x 0 with negative | zero | positive
  · have behind : x - n ≤ 0 := by nlinarith
    rw [towardZero, if_neg (not_le.mpr negative), Int.ceil_eq_iff]
    constructor <;> linarith
  · -- the only integer less than one away from zero is zero
    subst zero
    have upper : n < 1 := by exact_mod_cast (show (n : α) < 1 by linarith)
    have lower : -1 < n := by exact_mod_cast (show (-1 : α) < n by linarith)
    rw [show n = 0 by omega]
    simp [towardZero]
  · have ahead : 0 ≤ x - n := by nlinarith
    rw [towardZero, if_pos positive.le, Int.floor_eq_iff]
    constructor <;> linarith

/-- Truncating a quotient of integers is `Int.tdiv`. -/
theorem towardZero_intCast_div (a : ℤ) (b : ℕ) : towardZero ((a : α) / b) = a.tdiv b := by
  rcases Nat.eq_zero_or_pos b with rfl | positive
  · simp [towardZero]
  have bPos : (0 : α) < b := by exact_mod_cast positive
  by_cases nonneg : 0 ≤ a
  · have quotient : (0 : α) ≤ a / b := div_nonneg (by exact_mod_cast nonneg) bPos.le
    rw [towardZero, if_pos quotient, Int.floor_div_natCast, Int.floor_intCast,
      Int.tdiv_eq_ediv_of_nonneg nonneg]
  · have quotient : ¬ (0 : α) ≤ a / b := by
      rw [not_le]
      exact div_neg_of_neg_of_pos (by exact_mod_cast not_le.mp nonneg) bPos
    rw [towardZero, if_neg quotient, ← neg_neg ((a : α) / b), Int.ceil_neg, ← neg_div,
      ← Int.cast_neg, Int.floor_div_natCast, Int.floor_intCast, ← Int.tdiv_eq_ediv_of_nonneg
        (by omega), Int.neg_tdiv, neg_neg]

/-- Rounding half away from zero from the truncation to one more digit: five
added away from zero, then a division by ten rounded toward zero. -/
theorem roundHalfAway_eq_of_digit (x : α) :
    roundHalfAway x =
      if towardZero (10 * x) < 0 then -((5 - towardZero (10 * x)) / 10)
      else (towardZero (10 * x) + 5) / 10 := by
  have shifted : ∀ y : α, y + 1 / 2 = (10 * y + (5 : ℤ)) / (10 : ℕ) := by
    intro y
    push_cast
    ring
  by_cases nonneg : 0 ≤ x
  · have digit : towardZero (10 * x) = ⌊10 * x⌋ := by
      rw [towardZero, if_pos (by linarith)]
    have digitNonneg : 0 ≤ ⌊10 * x⌋ := Int.floor_nonneg.mpr (by linarith)
    rw [roundHalfAway, if_pos nonneg, digit, if_neg (by omega), shifted, Int.floor_div_natCast,
      Int.floor_add_intCast]
    rfl
  · have negative : x < 0 := not_le.mp nonneg
    have digit : towardZero (10 * x) = ⌈10 * x⌉ := by
      rw [towardZero, if_neg (by linarith)]
    have digitNonpos : ⌈10 * x⌉ ≤ 0 := Int.ceil_le.mpr (by push_cast; linarith)
    have reflected : ⌊-x + 1 / 2⌋ = (5 - ⌈10 * x⌉) / 10 := by
      rw [shifted, Int.floor_div_natCast, Int.floor_add_intCast, show 10 * -x = -(10 * x) by ring,
        Int.floor_neg]
      push_cast
      ring_nf
    rw [roundHalfAway_of_neg negative, reflected, digit]
    -- a digit of `0` (for `-1/10 < x < 0`) takes the other branch, also `0`
    split_ifs <;> omega

end Vitess.Rounding
