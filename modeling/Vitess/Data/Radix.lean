import Mathlib.Algebra.Group.Nat.Defs
import Mathlib.Algebra.GroupWithZero.Nat
import Mathlib.Order.Lattice

/-!
# Digits in a fixed radix

`digit b w j` is the `j`-th digit of `w` in radix `b`, `w / b ^ j % b`. Counters packed
side by side in a machine word are such digits.

* Adding `b ^ j` to a word whose `j`-th digit is below `b - 1` raises that digit by one
  (`digit_add_pow_self`) and leaves every other digit as it was
  (`digit_add_pow_of_ne`): no carry leaves the digit, so the word also stays below
  every power of `b` it was below (`add_pow_lt`).
* Halving a word in an even radix halves each digit, except that the low bit of the
  next digit moves into the top of this one (`digit_div_two`).
-/

namespace Vitess.Radix

/-- The `j`-th digit of `w` in radix `b`. -/
def digit (b w j : ℕ) : ℕ :=
  w / b ^ j % b

section

variable {b w j : ℕ}

theorem digit_lt (positive : 0 < b) : digit b w j < b :=
  Nat.mod_lt _ positive

/-- The digits up to the `j`-th: the low part of `w` and `b ^ j` times its digit. -/
theorem mod_pow_succ : w % b ^ (j + 1) = w % b ^ j + b ^ j * digit b w j := by
  rw [pow_succ, Nat.mod_mul]
  rfl

/-- Adding `b ^ j` under a digit with room does not reach the digits above it. -/
theorem add_pow_div_pow_succ (room : digit b w j + 1 < b) :
    (w + b ^ j) / b ^ (j + 1) = w / b ^ (j + 1) := by
  have unit : 0 < b ^ j := Nat.pow_pos (by omega)
  have lowBelow : w % b ^ (j + 1) + b ^ j < b ^ (j + 1) := by
    have lowest := Nat.mod_lt w unit
    have widest : b ^ j * (digit b w j + 2) ≤ b ^ j * b := Nat.mul_le_mul_left _ room
    rw [Nat.mul_add] at widest
    rw [mod_pow_succ, pow_succ]
    omega
  calc (w + b ^ j) / b ^ (j + 1)
      = (b ^ (j + 1) * (w / b ^ (j + 1)) + (w % b ^ (j + 1) + b ^ j)) / b ^ (j + 1) := by
        rw [← Nat.add_assoc, Nat.div_add_mod]
    _ = w / b ^ (j + 1) := by
        rw [Nat.mul_add_div (Nat.pow_pos (by omega)), Nat.div_eq_of_lt lowBelow, Nat.add_zero]

/-- Adding `b ^ j` raises a digit with room by one. -/
theorem digit_add_pow_self (room : digit b w j + 1 < b) :
    digit b (w + b ^ j) j = digit b w j + 1 := by
  have unit : 0 < b ^ j := Nat.pow_pos (by omega)
  unfold digit at room ⊢
  rw [Nat.add_div_right _ unit, Nat.add_mod, Nat.mod_eq_of_lt (show 1 < b by omega),
    Nat.mod_eq_of_lt room]

/-- Adding `b ^ j` under a digit with room leaves every other digit unchanged. -/
theorem digit_add_pow_of_ne {k : ℕ} (room : digit b w j + 1 < b) (other : k ≠ j) :
    digit b (w + b ^ j) k = digit b w k := by
  have positive : 0 < b := by omega
  rcases Nat.lt_or_gt_of_ne other with below | above
  · -- a lower digit: `b ^ j` is a multiple of `b ^ (k + 1)`
    obtain ⟨gap, rfl⟩ := Nat.exists_eq_add_of_lt below
    have split : b ^ (k + gap + 1) = b ^ k * (b * b ^ gap) := by
      rw [← pow_succ', ← pow_add, Nat.add_assoc]
    unfold digit
    rw [split, Nat.add_mul_div_left _ _ (Nat.pow_pos positive), Nat.add_mul_mod_self_left]
  · -- a higher digit: read it off the quotient by `b ^ (j + 1)`, which the addition keeps
    obtain ⟨gap, rfl⟩ := Nat.exists_eq_add_of_lt above
    unfold digit
    rw [show j + gap + 1 = (j + 1) + gap by omega, pow_add, ← Nat.div_div_eq_div_mul,
      ← Nat.div_div_eq_div_mul, add_pow_div_pow_succ room]

/-- No carry leaves a digit with room: the word stays below `b ^ n`. -/
theorem add_pow_lt {n : ℕ} (room : digit b w j + 1 < b) (below : w < b ^ n) (inside : j < n) :
    w + b ^ j < b ^ n := by
  have unit : 0 < b ^ (j + 1) := Nat.pow_pos (by omega)
  have whole : b ^ n = b ^ (n - (j + 1)) * b ^ (j + 1) := by
    rw [← pow_add, Nat.sub_add_cancel inside]
  have quotient : w / b ^ (j + 1) < b ^ (n - (j + 1)) := by
    rw [Nat.div_lt_iff_lt_mul unit, ← whole]
    exact below
  rw [← add_pow_div_pow_succ room, Nat.div_lt_iff_lt_mul unit, ← whole] at quotient
  exact quotient

/-- Halving a word in an even radix: each digit is halved and takes the low bit of the
next digit as its top. -/
theorem digit_div_two (even : 2 ∣ b) :
    digit b (w / 2) j = digit b w j / 2 + b / 2 * (digit b w (j + 1) % 2) := by
  obtain ⟨c, rfl⟩ := even
  have swap : w / 2 / (2 * c) ^ j = w / (2 * c) ^ j / 2 := by
    rw [Nat.div_div_eq_div_mul, Nat.div_div_eq_div_mul, Nat.mul_comm]
  unfold digit
  rw [Nat.mul_div_cancel_left c (by decide : 0 < 2), swap, pow_succ,
    ← Nat.div_div_eq_div_mul, Nat.mod_mod_of_dvd _ (Nat.dvd_mul_right 2 c)]
  generalize w / (2 * c) ^ j = a
  rcases Nat.eq_zero_or_pos c with rfl | positive
  · simp
  -- `a = 2c * q + r`: halving gives `c * q + r / 2`, and modulo `2c` only `q % 2` of `q` counts
  have rest : a % (2 * c) < 2 * c := Nat.mod_lt _ (by omega)
  have halved : a / 2 = c * (a / (2 * c)) + a % (2 * c) / 2 := by
    have split := Nat.div_add_mod a (2 * c)
    rw [Nat.mul_assoc] at split
    omega
  have parity : c * (a / (2 * c)) = 2 * c * (a / (2 * c) / 2) + c * (a / (2 * c) % 2) := by
    conv_lhs => rw [← Nat.div_add_mod (a / (2 * c)) 2]
    rw [Nat.mul_add, ← Nat.mul_assoc, Nat.mul_comm c 2]
  have top : c * (a / (2 * c) % 2) ≤ c := by
    have bit : a / (2 * c) % 2 ≤ 1 := by omega
    calc c * (a / (2 * c) % 2) ≤ c * 1 := Nat.mul_le_mul_left c bit
      _ = c := Nat.mul_one c
  rw [halved, parity, Nat.add_assoc, Nat.mul_add_mod, Nat.mod_eq_of_lt (by omega), Nat.add_comm]

end

end Vitess.Radix
