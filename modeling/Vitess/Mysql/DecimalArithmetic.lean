import Vitess.Mysql.Decimal
import Vitess.Data.Rounding

/-!
# Decimal arithmetic against the rationals

`Add`, `Sub`, `Neg`, `Mul` and `Cmp` of `go/mysql/decimal/decimal.go` are exact on
the numbers decimals stand for (`arithmetic_is_exact`), where `rescale` scales by
the exact power of ten, for exponents less than `2 ^ 31` apart. `Mul` returns the
exact product unless it panics, and it panics exactly on two nonzero factors whose
exponents sum past `int32`.

`Div`, which the evaluation engine uses for `/` on decimals, computes its
precision in `int32` (`divScale`). With exponents and increment below `2 ^ 28` in
magnitude nothing wraps, and `Div` returns the quotient truncated toward zero to a
whole number of nine-digit words of fractional digits, at least as many as the two
operands have together and the increment it is given (`div_truncates_quotient`).
-/

namespace Vitess.Decimal

open Vitess.Rounding Go

/-! ## The exact operations -/

@[simp] theorem toRat_neg (d : Decimal) : d.neg.toRat = -d.toRat := by
  simp [neg, toRat]

theorem toRat_zero : zero.toRat = 0 := by
  simp [zero, toRat]

theorem toRat_add {d d2 : Decimal} (near : |d.exp - d2.exp| < 2 ^ 31) : (d.add d2).toRat = d.toRat + d2.toRat := by
  obtain ⟨first, second⟩ := rescalePair_toRat_common near
  rw [first, second, add, toRat]
  push_cast
  ring

theorem toRat_sub {d d2 : Decimal} (near : |d.exp - d2.exp| < 2 ^ 31) : (d.sub d2).toRat = d.toRat - d2.toRat := by
  obtain ⟨first, second⟩ := rescalePair_toRat_common near
  rw [first, second, sub]
  dsimp only
  split_ifs with cancels
  · -- a zero difference gets the exponent `0`, and stands for zero all the same
    rw [(toRat_eq_zero_iff _).mpr rfl, ← sub_mul, ← Int.cast_sub, cancels, Int.cast_zero, zero_mul]
  · rw [toRat]
    push_cast
    ring

/-- `Mul` returns the exact product, and panics exactly on two nonzero factors
whose exponents sum past `int32`. -/
theorem toRat_mul (d d2 : Decimal) :
    (d.mul d2).map toRat =
      if d.value = 0 ∨ d2.value = 0 ∨ InInt32 (d.exp + d2.exp) then some (d.toRat * d2.toRat) else none := by
  unfold mul sign
  by_cases zeroFactor : d.value = 0 ∨ d2.value = 0
  · -- `Zero`, and so is the product
    have product : d.toRat * d2.toRat = 0 := by
      rcases zeroFactor with zero | zero
      · rw [(toRat_eq_zero_iff d).mpr zero, zero_mul]
      · rw [(toRat_eq_zero_iff d2).mpr zero, mul_zero]
    rw [if_pos (by simpa only [Int.sign_eq_zero_iff_zero] using zeroFactor),
      if_pos (zeroFactor.elim .inl (.inr ∘ .inl)), Option.map_some, product, toRat_zero]
  · obtain ⟨nonzero, nonzero2⟩ := not_or.mp zeroFactor
    rw [if_neg (by simpa only [Int.sign_eq_zero_iff_zero] using zeroFactor)]
    simp only [nonzero, nonzero2, false_or]
    split_ifs with fits
    · rw [Option.map_some, Option.some.injEq, toRat, toRat, toRat, zpow_add₀ (by norm_num)]
      push_cast
      ring
    · rfl

/-- For exponents less than `2 ^ 31` apart, `Add`, `Sub` and `Neg` compute the sum,
difference and negation of the numbers the decimals stand for, `Cmp` compares
them, and `Mul` computes their product unless it panics, which it does exactly on
two nonzero factors whose exponents sum past `int32`. -/
theorem arithmetic_is_exact (d d2 : Decimal) (near : |d.exp - d2.exp| < 2 ^ 31) :
    (d.add d2).toRat = d.toRat + d2.toRat ∧ (d.sub d2).toRat = d.toRat - d2.toRat ∧
      d.neg.toRat = -d.toRat ∧
      (d.mul d2).map toRat =
        (if d.value = 0 ∨ d2.value = 0 ∨ InInt32 (d.exp + d2.exp) then some (d.toRat * d2.toRat) else none) ∧
      d.cmp d2 = if d.toRat < d2.toRat then -1 else if d.toRat = d2.toRat then 0 else 1 :=
  ⟨toRat_add near, toRat_sub near, toRat_neg d, toRat_mul d d2, cmp_eq near⟩

/-- `1.5 + -20`, and the other operations, at exponents one apart. -/
theorem arithmetic_is_exact_one_apart :
    |(-1 : ℤ) - 1| < 2 ^ 31 ∧
      ((Decimal.add ⟨15, -1⟩ ⟨-2, 1⟩).toRat = Decimal.toRat ⟨15, -1⟩ + Decimal.toRat ⟨-2, 1⟩ ∧
        (Decimal.sub ⟨15, -1⟩ ⟨-2, 1⟩).toRat = Decimal.toRat ⟨15, -1⟩ - Decimal.toRat ⟨-2, 1⟩ ∧
        (Decimal.neg ⟨15, -1⟩).toRat = -Decimal.toRat ⟨15, -1⟩ ∧
        (Decimal.mul ⟨15, -1⟩ ⟨-2, 1⟩).map toRat =
          (if (15 : ℤ) = 0 ∨ (-2 : ℤ) = 0 ∨ InInt32 (-1 + 1) then
            some (Decimal.toRat ⟨15, -1⟩ * Decimal.toRat ⟨-2, 1⟩) else none) ∧
        Decimal.cmp ⟨15, -1⟩ ⟨-2, 1⟩ =
          if Decimal.toRat ⟨15, -1⟩ < Decimal.toRat ⟨-2, 1⟩ then -1
          else if Decimal.toRat ⟨15, -1⟩ = Decimal.toRat ⟨-2, 1⟩ then 0 else 1) :=
  ⟨by norm_num, arithmetic_is_exact ⟨15, -1⟩ ⟨-2, 1⟩ (by norm_num)⟩

/-! ## `Div` -/

/-- The precision `Div` hands to `QuoRem`, in `int32` as the source computes it:
the operands' fractional digits in whole nine-digit words, and what is left of
the increment beyond the digits those words add. -/
def divScale (d d2 : Decimal) (scaleIncr : ℤ) : ℤ :=
  let s1 := wrapInt32 (-d.exp)
  let s2 := wrapInt32 (-d2.exp)
  let fracLeft := myBigDigits s1
  let fracRight := myBigDigits s2
  let scaleIncr := wrapInt32 (scaleIncr - (fracLeft - s1 + fracRight - s2))
  let scaleIncr := if scaleIncr < 0 then 0 else scaleIncr
  wrapInt32 (myBigDigits (wrapInt32 (fracLeft + fracRight + scaleIncr)) * 9)

theorem div_eq (d d2 : Decimal) (scaleIncr : ℤ) :
    d.div d2 scaleIncr = if d.sign = 0 then zero else (d.quoRem d2 (divScale d d2 scaleIncr)).1 :=
  rfl

/-- Where the sum does not wrap, whole words hold at least the digits they are
counted for, and at most sixteen more. -/
theorem myBigDigits_mul_bounds {digits : ℤ} (fits : InInt32 (digits + 8)) :
    digits ≤ myBigDigits digits * 9 ∧ myBigDigits digits * 9 ≤ digits + 16 := by
  have split := Int.mul_tdiv_add_tmod (digits + 8) 9
  have rest : ((digits + 8).tmod 9).natAbs < 9 := by
    rw [Int.natAbs_tmod]
    exact Nat.mod_lt _ (by decide)
  rw [myBigDigits_of_inInt32 fits]
  omega

/-- With exponents and increment below `2 ^ 28` in magnitude, no step of `Div`'s
`int32` arithmetic wraps: the scale keeps at least the fractional digits of both
operands and the increment, in whole words, and stays below `2 ^ 30`. -/
theorem divScale_bounds {d d2 : Decimal} {scaleIncr : ℤ}
    (bounded : |d.exp| < 2 ^ 28 ∧ |d2.exp| < 2 ^ 28 ∧ |scaleIncr| < 2 ^ 28) :
    -d.exp - d2.exp + scaleIncr ≤ divScale d d2 scaleIncr ∧ divScale d d2 scaleIncr % 9 = 0 ∧
      |divScale d d2 scaleIncr| < 2 ^ 30 := by
  obtain ⟨expBound, exp2Bound, incrBound⟩ := bounded
  rw [abs_lt] at expBound exp2Bound incrBound
  have s1 : wrapInt32 (-d.exp) = -d.exp := wrapInt32_of_inInt32 ⟨by omega, by omega⟩
  have s2 : wrapInt32 (-d2.exp) = -d2.exp := wrapInt32_of_inInt32 ⟨by omega, by omega⟩
  obtain ⟨left, leftHigh⟩ := myBigDigits_mul_bounds (show InInt32 (-d.exp + 8) from ⟨by omega, by omega⟩)
  obtain ⟨right, rightHigh⟩ := myBigDigits_mul_bounds (show InInt32 (-d2.exp + 8) from ⟨by omega, by omega⟩)
  unfold divScale
  dsimp only
  rw [s1, s2]
  generalize myBigDigits (-d.exp) = fracLeft at left leftHigh ⊢
  generalize myBigDigits (-d2.exp) = fracRight at right rightHigh ⊢
  -- the increment less the digits the words add, clamped at zero
  rw [wrapInt32_of_inInt32 (show InInt32 (scaleIncr - (fracLeft - -d.exp + fracRight - -d2.exp)) from
    ⟨by omega, by omega⟩)]
  generalize clamp : (if scaleIncr - (fracLeft - -d.exp + fracRight - -d2.exp) < 0 then 0
    else scaleIncr - (fracLeft - -d.exp + fracRight - -d2.exp)) = rest
  have restBounds : 0 ≤ rest ∧ scaleIncr - (fracLeft - -d.exp + fracRight - -d2.exp) ≤ rest ∧
      rest ≤ max 0 (scaleIncr - (fracLeft - -d.exp + fracRight - -d2.exp)) := by
    rw [← clamp]
    split_ifs <;> omega
  -- the words of the sum, and their digits
  rw [wrapInt32_of_inInt32 (show InInt32 (fracLeft + fracRight + rest) from ⟨by omega, by omega⟩)]
  obtain ⟨words, wordsHigh⟩ :=
    myBigDigits_mul_bounds (show InInt32 (fracLeft + fracRight + rest + 8) from ⟨by omega, by omega⟩)
  generalize myBigDigits (fracLeft + fracRight + rest) = w at words wordsHigh ⊢
  rw [wrapInt32_of_inInt32 (show InInt32 (w * 9) from ⟨by omega, by omega⟩), abs_lt]
  exact ⟨by omega, Int.mul_emod_left _ _, by omega, by omega⟩

/-- A remainder that is zero or of the sign of the dividend has a nonnegative
product with it. -/
theorem mul_nonneg_of_sign {r a : ℤ} (sign : r = 0 ∨ r.sign = a.sign) : 0 ≤ r * a := by
  rcases sign with zero | same
  · rw [zero, zero_mul]
  rcases lt_trichotomy a 0 with negative | zero | positive
  · have : r < 0 :=
      Int.sign_eq_neg_one_iff_neg.mp (same.trans (Int.sign_eq_neg_one_iff_neg.mpr negative))
    nlinarith
  · rw [zero, mul_zero]
  · have : 0 < r := Int.sign_eq_one_iff_pos.mp (same.trans (Int.sign_eq_one_iff_pos.mpr positive))
    nlinarith

/-- Where the `int32` arithmetic of `QuoRem` does not wrap, `Div` returns the
exact quotient truncated toward zero to `divScale` fractional digits: by
`quoRem_spec`, the quotient on the grid `10 ^ -scale` misses the exact one by the
remainder's share, which is less than one step and of the quotient's sign. -/
theorem div_toRat {d d2 : Decimal} {scaleIncr : ℤ} (nonzero : d2.value ≠ 0)
    (scaleFits : InInt32 (-divScale d d2 scaleIncr))
    (eFits : InInt32 (d.exp - d2.exp + divScale d d2 scaleIncr))
    (restFits : InInt32 (-divScale d d2 scaleIncr + d2.exp)) :
    (d.div d2 scaleIncr).toRat =
      towardZero (d.toRat / d2.toRat * 10 ^ divScale d d2 scaleIncr) *
        (10 : ℚ) ^ (-divScale d d2 scaleIncr) := by
  rw [div_eq]
  split_ifs with zeroSign
  · rw [toRat_zero, (toRat_eq_zero_iff d).mpr (Int.sign_eq_zero_iff_zero.mp zeroSign)]
    simp [towardZero]
  obtain ⟨sum, exp, bound, sign⟩ := quoRem_spec nonzero scaleFits eFits restFits
  generalize divScale d d2 scaleIncr = scale at sum exp bound sign ⊢
  generalize d.quoRem d2 scale = qr at sum exp bound sign ⊢
  obtain ⟨q, r⟩ := qr
  dsimp only at sum exp bound sign ⊢
  have divisor : d2.toRat ≠ 0 := mul_ne_zero (by exact_mod_cast nonzero) (zpow_ne_zero _ (by norm_num))
  have power : (0 : ℚ) < 10 ^ scale := zpow_pos (by norm_num) _
  have cancel : (10 : ℚ) ^ (-scale) * 10 ^ scale = 1 := by
    rw [zpow_neg, inv_mul_cancel₀ power.ne']
  have quotient : q.toRat = q.value * 10 ^ (-scale) := by
    rw [toRat, exp]
  -- on the grid the exact quotient is `q.value` and the remainder's share
  have scaled : d.toRat / d2.toRat * 10 ^ scale - q.value = r.toRat / d2.toRat * 10 ^ scale := by
    rw [sum, quotient, zpow_neg]
    field_simp
    ring
  have near : |d.toRat / d2.toRat * 10 ^ scale - q.value| < 1 := by
    rw [scaled, abs_mul, abs_div, abs_of_pos power, div_mul_eq_mul_div,
      div_lt_one (abs_pos.mpr divisor)]
    calc |r.toRat| * 10 ^ scale
        _ < |d2.toRat| * 10 ^ (-scale) * 10 ^ scale := by gcongr
        _ = |d2.toRat| := by rw [mul_assoc, cancel, mul_one]
  have sameSide : 0 ≤ r.toRat * d.toRat := by
    rw [toRat, toRat, mul_mul_mul_comm]
    exact mul_nonneg (by exact_mod_cast mul_nonneg_of_sign sign)
      (mul_nonneg (zpow_pos (by norm_num) _).le (zpow_pos (by norm_num) _).le)
  have sameSign : 0 ≤ (d.toRat / d2.toRat * 10 ^ scale - q.value) * (d.toRat / d2.toRat * 10 ^ scale) := by
    rw [scaled]
    calc (0 : ℚ)
        _ ≤ r.toRat * d.toRat * (10 ^ scale / d2.toRat) ^ 2 := mul_nonneg sameSide (sq_nonneg _)
        _ = r.toRat / d2.toRat * 10 ^ scale * (d.toRat / d2.toRat * 10 ^ scale) := by ring
  rw [towardZero_eq_of_remainder near sameSign, quotient]

-- Near `math.MinInt32` the scale wraps: for `1e-2147483645 / 3` the source computes
-- the precision `-238609278`, far fewer fractional digits than the dividend has.
example : divScale ⟨1, -2147483645⟩ ⟨3, 0⟩ 0 = -238609278 := by decide

end Vitess.Decimal
