import Vitess.Go.Float64
import Mathlib.Algebra.Order.Field.Power
import Mathlib.Tactic.NormNum

/-!
# Go's `float32`

A `float32` value is kept as the rational it stands for, like a `float64`
(`Vitess.Go.Float64`), but rounded to 24 significant bits (`roundToBinary24`): a
conversion `float32(n)` and the product of two `float32`s are the exact value so rounded.

The one fact the cache needs is a lower bound: rounding never takes a value below a
power of two that lies at or below it (`le_roundToBits`). It rests on `floorLog2_spec`,
which pins `floorLog2` between two powers of two.
-/

namespace Vitess.Go

/-- Round to `p` significant bits, ties to even: `float32` for `p = 24`. -/
def roundToBits (p : ℕ) (q : ℚ) : ℚ :=
  if q = 0 then 0
  else
    let scale := floorLog2 |q| - (p - 1 : ℕ)
    let significand := roundHalfEven (|q| / 2 ^ scale)
    (if q < 0 then -1 else 1) * significand * 2 ^ scale

/-- `roundToBits` for a `float32`. -/
def roundToBinary24 (q : ℚ) : ℚ :=
  roundToBits 24 q

/-- `floorLog2 a` is the exponent of the power of two at or below a positive `a`. -/
theorem floorLog2_spec {a : ℚ} (positive : 0 < a) :
    (2 : ℚ) ^ floorLog2 a ≤ a ∧ a < 2 ^ (floorLog2 a + 1) := by
  have numPos : 0 < a.num := Rat.num_pos.mpr positive
  set n := a.num.natAbs with hn
  set d := a.den with hd
  have nPos : n ≠ 0 := by omega
  have dPos : d ≠ 0 := a.den_nz
  have value : a = (n : ℚ) / d := by
    rw [hn, hd, Nat.cast_natAbs, Int.cast_abs, abs_of_pos (by exact_mod_cast numPos)]
    exact (Rat.num_div_den a).symm
  have nLow : (2 : ℚ) ^ (n.log2 : ℤ) ≤ n := by
    rw [zpow_natCast]; exact_mod_cast Nat.log2_self_le nPos
  have nHigh : (n : ℚ) < 2 ^ ((n.log2 : ℤ) + 1) := by
    rw [← Nat.cast_succ, zpow_natCast]; exact_mod_cast Nat.lt_log2_self
  have dLow : (2 : ℚ) ^ (d.log2 : ℤ) ≤ d := by
    rw [zpow_natCast]; exact_mod_cast Nat.log2_self_le dPos
  have dHigh : (d : ℚ) < 2 ^ ((d.log2 : ℤ) + 1) := by
    rw [← Nat.cast_succ, zpow_natCast]; exact_mod_cast Nat.lt_log2_self
  have two : (2 : ℚ) ≠ 0 := two_ne_zero
  have dPos' : (0 : ℚ) < d := by exact_mod_cast Nat.pos_of_ne_zero dPos
  -- `a = n / d` lies strictly between `2 ^ (k - 1)` and `2 ^ (k + 1)`
  set k : ℤ := (n.log2 : ℤ) - d.log2 with hk
  have above : (2 : ℚ) ^ (k - 1) < a := by
    rw [value, lt_div_iff₀ dPos']
    calc (2 : ℚ) ^ (k - 1) * d < 2 ^ (k - 1) * 2 ^ ((d.log2 : ℤ) + 1) :=
          mul_lt_mul_of_pos_left dHigh (zpow_pos (by norm_num) _)
      _ = 2 ^ (n.log2 : ℤ) := by rw [← zpow_add₀ two]; congr 1; omega
      _ ≤ n := nLow
  have below : a < (2 : ℚ) ^ (k + 1) := by
    rw [value, div_lt_iff₀ dPos']
    calc (n : ℚ) < 2 ^ ((n.log2 : ℤ) + 1) := nHigh
      _ = 2 ^ (k + 1) * 2 ^ (d.log2 : ℤ) := by rw [← zpow_add₀ two]; congr 1; omega
      _ ≤ 2 ^ (k + 1) * d := mul_le_mul_of_nonneg_left dLow (zpow_nonneg (by norm_num) _)
  unfold floorLog2
  dsimp only
  rw [← hn, ← hd, ← hk]
  split_ifs with enough
  · exact ⟨enough, below⟩
  · exact ⟨above.le, by rw [sub_add_cancel]; exact not_le.mp enough⟩

/-- `floorLog2` is at least the exponent of any power of two at or below `a`. -/
theorem le_floorLog2 {a : ℚ} {j : ℤ} (low : (2 : ℚ) ^ j ≤ a) : j ≤ floorLog2 a := by
  have positive : 0 < a := lt_of_lt_of_le (zpow_pos (by norm_num) j) low
  have high := (floorLog2_spec positive).2
  by_contra excess
  have reached : (2 : ℚ) ^ (floorLog2 a + 1) ≤ 2 ^ j := zpow_le_zpow_right₀ (by norm_num) (by omega)
  exact absurd (high.trans_le reached) (not_lt.mpr low)

theorem floor_le_roundHalfEven (x : ℚ) : ⌊x⌋ ≤ roundHalfEven x := by
  unfold roundHalfEven
  dsimp only
  split_ifs <;> omega

/-- Rounding to any number of bits never falls below a power of two at or below the
exact value: the power itself has a representation. -/
theorem le_roundToBits {p : ℕ} {q : ℚ} {j : ℤ} (low : (2 : ℚ) ^ j ≤ q) : (2 : ℚ) ^ j ≤ roundToBits p q := by
  have positive : 0 < q := lt_of_lt_of_le (zpow_pos (by norm_num) j) low
  have least := le_floorLog2 low
  have spec := floorLog2_spec positive
  unfold roundToBits
  rw [if_neg positive.ne', abs_of_pos positive, if_neg (not_lt.mpr positive.le)]
  dsimp only
  rw [one_mul]
  set scale := floorLog2 q - ((p - 1 : ℕ) : ℤ) with hscale
  have unit : (0 : ℚ) < 2 ^ scale := zpow_pos (by norm_num) _
  -- the scaled value has `p` bits before the point, so its floor is at least `2 ^ (p - 1)`
  have leading : (2 : ℚ) ^ ((p - 1 : ℕ) : ℤ) * 2 ^ scale = 2 ^ floorLog2 q := by
    rw [← zpow_add₀ two_ne_zero]
    congr 1
    omega
  have scaledLow : ((2 ^ (p - 1) : ℕ) : ℚ) ≤ q / 2 ^ scale := by
    rw [le_div_iff₀ unit]
    push_cast
    rw [← zpow_natCast, leading]
    exact spec.1
  have significandLow : ((2 ^ (p - 1) : ℕ) : ℤ) ≤ roundHalfEven (q / 2 ^ scale) :=
    (Int.le_floor.mpr (by exact_mod_cast scaledLow)).trans (floor_le_roundHalfEven _)
  calc (2 : ℚ) ^ j ≤ 2 ^ floorLog2 q := zpow_le_zpow_right₀ (by norm_num) least
    _ = ((2 ^ (p - 1) : ℕ) : ℚ) * 2 ^ scale := by push_cast; rw [← zpow_natCast, leading]
    _ ≤ (roundHalfEven (q / 2 ^ scale) : ℚ) * 2 ^ scale :=
        mul_le_mul_of_nonneg_right (by exact_mod_cast significandLow) unit.le

/-- `uint(q)` of a nonnegative `q` is at least every integer at or below `q`. -/
theorem le_truncate {q : ℚ} {n : ℤ} (low : (n : ℚ) ≤ q) (nonneg : 0 ≤ q) : n ≤ truncate q := by
  unfold truncate
  rw [if_pos nonneg]
  exact Int.le_floor.mpr low

end Vitess.Go
