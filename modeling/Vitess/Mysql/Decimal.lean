import Vitess.Go.Float64
import Vitess.Go.Int64
import Mathlib.Data.Nat.Size

/-!
# Fixed-point decimals

`decimal.Decimal` of `go/mysql/decimal/decimal.go`: the number
`value × 10 ^ exp`, with an arbitrary-precision `value`. The operations the
evaluation engine applies to decimals are exact except `Div`, which truncates
its quotient to a number of fractional digits derived from the operands'
exponents, and the conversion to `float64`, which rounds as
`strconv.ParseFloat` does.

Exponents are `int32` in the source, and the arithmetic on them wraps as Go's
does: `rescale` scales by `uint64(exp - d.exp)` (`exponentGap`), `Div` and
`myBigDigits` compute in `int32`, and `Mul` is `none` where `mul` panics on a
sum of exponents outside `int32`. Below a gap of `2 ^ 31`, `rescale` scales by
the exact power of ten (`rescale_of_near`), and `RescalePair`, `Cmp` and
`CmpAbs` read the numbers exactly. `QuoRem` computes its exponents in `int32`
as well: where nothing wraps it meets the contract of its comment
(`quoRem_spec`), and an exponent difference past the `int32` range gives a
remainder as large as the dividend.
-/

namespace Vitess

/-- `decimal.Decimal`: `value × 10 ^ exp`. -/
structure Decimal where
  value : ℤ
  exp : ℤ
  deriving DecidableEq, Repr

namespace Decimal

/-- `Zero`, that is `New(0, 0)`. -/
def zero : Decimal := ⟨0, 0⟩

/-- `NewFromInt`. -/
def newFromInt (value : ℤ) : Decimal := ⟨value, 0⟩

/-- `NewFromUint`. -/
def newFromUint (value : ℕ) : Decimal := ⟨value, 0⟩

/-- The rational a decimal stands for. -/
def toRat (d : Decimal) : ℚ := d.value * (10 : ℚ) ^ d.exp

/-- `uint64(a - b)` of two `int32` exponents, the power `rescale` scales by: the
difference wraps in `int32`, and a negative one converts to a `uint64` past
`2 ^ 63`. No decimal of the source has an exponent outside `int32`; there the
difference is taken exactly. -/
def exponentGap (a b : ℤ) : ℕ :=
  if Go.InInt32 a ∧ Go.InInt32 b then Go.toUint64 (Go.wrapInt32 (a - b)) else (a - b).toNat

/-- `rescale`: the same number with exponent `exp`, truncated toward zero
(`big.Int.Quo`) when the exponent grows, by `bigPow10(uint64(exp - d.exp))`. -/
def rescale (d : Decimal) (exp : ℤ) : Decimal :=
  if d.exp < exp then ⟨d.value.tdiv (10 ^ exponentGap exp d.exp), exp⟩
  else if exp < d.exp then ⟨d.value * 10 ^ exponentGap d.exp exp, exp⟩
  else ⟨d.value, exp⟩

/-- `RescalePair`: both decimals at the smaller of their exponents. -/
def rescalePair (d1 d2 : Decimal) : Decimal × Decimal :=
  if d1.exp = d2.exp then (d1, d2)
  else
    let baseScale := min d1.exp d2.exp
    if baseScale ≠ d1.exp then (d1.rescale baseScale, d2) else (d1, d2.rescale baseScale)

/-- `Sign`. -/
def sign (d : Decimal) : ℤ := d.value.sign

/-- `IsZero`. -/
def isZero (d : Decimal) : Bool := d.value = 0

/-- `Exponent`. -/
def exponent (d : Decimal) : ℤ := d.exp

/-- `Add`. -/
def add (d d2 : Decimal) : Decimal :=
  let (rd, rd2) := rescalePair d d2
  ⟨rd.value + rd2.value, rd.exp⟩

/-- `Sub`: a zero difference gets the exponent `0`. -/
def sub (d d2 : Decimal) : Decimal :=
  let (rd, rd2) := rescalePair d d2
  if rd.value - rd2.value = 0 then ⟨0, 0⟩ else ⟨rd.value - rd2.value, rd.exp⟩

/-- `Neg`. -/
def neg (d : Decimal) : Decimal := ⟨-d.value, d.exp⟩

/-- `Mul`: `Zero` when a factor is zero, else `mul`, which sums the exponents in
`int64` and panics with "exponent %v overflows an int32!" (`none`) on a sum
outside `int32`. -/
def mul (d d2 : Decimal) : Option Decimal :=
  if d.sign = 0 ∨ d2.sign = 0 then some zero
  else if Go.InInt32 (d.exp + d2.exp) then some ⟨d.value * d2.value, d.exp + d2.exp⟩
  else none

/-- `QuoRem(d2, precision)`: the quotient truncated to `precision` fractional
digits and the remainder, both from `big.Int.QuoRem` (truncated division). The
source panics on a zero divisor; every caller checks `IsZero` first. `scale`,
`e` and `scalerest` are computed in `int32` and wrap; the check
`e > math.MaxInt32 || e < math.MinInt32` is made on the wrapped value, after
the conversion to `int64`, and never fires. -/
def quoRem (d d2 : Decimal) (precision : ℤ) : Decimal × Decimal :=
  let scale := Go.wrapInt32 (-precision)
  let e := Go.wrapInt32 (d.exp - d2.exp - scale)
  if e < 0 then
    let aa := d.value
    let bb := d2.value * 10 ^ (-e).toNat
    (⟨aa.tdiv bb, scale⟩, ⟨aa.tmod bb, d.exp⟩)
  else
    let aa := d.value * 10 ^ e.toNat
    let bb := d2.value
    (⟨aa.tdiv bb, scale⟩, ⟨aa.tmod bb, Go.wrapInt32 (scale + d2.exp)⟩)

/-- `myBigDigits`: the nine-digit words that hold `digits` digits, `(digits + 8) / 9`
in `int32`: the sum wraps, and the division truncates toward zero. -/
def myBigDigits (digits : ℤ) : ℤ := (Go.wrapInt32 (digits + 8)).tdiv 9

/-- `Div(d2, scaleIncr)`: the quotient of `QuoRem` at a precision of whole
nine-digit words, at least `scaleIncr` digits beyond the operands' own. Every
step is `int32` arithmetic: the negated exponents, the increment less the
digits the words add, and the scale. -/
def div (d d2 : Decimal) (scaleIncr : ℤ) : Decimal :=
  if d.sign = 0 then zero
  else
    let s1 := Go.wrapInt32 (-d.exp)
    let s2 := Go.wrapInt32 (-d2.exp)
    let fracLeft := myBigDigits s1
    let fracRight := myBigDigits s2
    let scaleIncr := Go.wrapInt32 (scaleIncr - (fracLeft - s1 + fracRight - s2))
    let scaleIncr := if scaleIncr < 0 then 0 else scaleIncr
    let scale := Go.wrapInt32 (myBigDigits (Go.wrapInt32 (fracLeft + fracRight + scaleIncr)) * 9)
    (d.quoRem d2 scale).1

/-- `Cmp`: `-1`, `0` or `1`. -/
def cmp (d d2 : Decimal) : ℤ :=
  let (rd, rd2) := rescalePair d d2
  if rd.value < rd2.value then -1 else if rd.value = rd2.value then 0 else 1

/-- `CmpAbs`: `Cmp` of the magnitudes. -/
def cmpAbs (d d2 : Decimal) : ℤ :=
  let (rd, rd2) := rescalePair d d2
  if |rd.value| < |rd2.value| then -1 else if |rd.value| = |rd2.value| then 0 else 1

/-- `Int64`: the integer part, when it fits in an `int64`. -/
def int64 (d : Decimal) : Option ℤ :=
  let scaled := d.rescale 0
  if -2 ^ 63 ≤ scaled.value ∧ scaled.value < 2 ^ 63 then some scaled.value else none

/-- `Uint64`: the integer part, when it fits in a `uint64`. -/
def uint64 (d : Decimal) : Option ℕ :=
  let scaled := d.rescale 0
  if 0 ≤ scaled.value ∧ scaled.value < 2 ^ 64 then some scaled.value.toNat else none

/-- `Float64`: `strconv.ParseFloat` of the decimal's text, the exact value
rounded to 53 bits, and whether it stays below the overflow to an infinity. -/
def float64 (d : Decimal) : ℚ × Bool :=
  let f := Go.roundToBinary53 d.toRat
  (f, decide (|f| < 2 ^ 1024))

/-- `bigLength`: the digits of `x`, estimated from its bit length with
`0x268826A1 / 2^31` for `log10(2)`, then corrected by one comparison. -/
def bigLength (x : ℤ) : ℕ :=
  if x = 0 then 1
  else
    let nb := x.natAbs.size
    -- past `overflowCutoff` the product below would overflow a `uint64`
    let (m, nb) := if nb > 14267572532 then (2 ^ 32 - 1, nb / 14267572532 + nb % 14267572532) else (0, nb)
    let m := m + ((nb + 1) * 0x268826A1) >>> 31
    if x.natAbs < 10 ^ m then m else m + 1

/-- `largestForm`: `10 ^ (integral + fractional) - 1` at the exponent `-fractional`,
negated for `neg`. The source takes the nines from a table up to 19 digits and
from a string of 350 nines after it, and panics past it; the callers ask for at
most 65 digits. -/
def largestForm (integral fractional : ℤ) (neg : Bool) : Decimal :=
  let num : ℤ := 10 ^ (integral + fractional).toNat - 1
  ⟨if neg then -num else num, -fractional⟩

/-- `Clamp`: `d` when it has fewer digits before the point than `integral`,
`largestForm` with the sign of `d` when it has more, and on a tie whichever of the
two is smaller in magnitude. The digits before the point are counted as
`exp + precision()`, in `int32`. -/
def clamp (d : Decimal) (integral fractional : ℤ) : Decimal :=
  let xl := Go.wrapInt32 (d.exp + Go.wrapInt32 (bigLength d.value))
  let yl := integral
  let neg := d.value.sign < 0
  if xl ≠ yl then
    if xl < yl then d else largestForm integral fractional neg
  else
    let limit := largestForm integral fractional neg
    if d.cmpAbs limit ≤ 0 then d else limit

/-! ## Symmetry of the binary operations -/

/-- Decimals with the same value and exponent are equal. -/
@[ext] theorem ext {d d2 : Decimal} (value : d.value = d2.value) (exp : d.exp = d2.exp) : d = d2 := by
  cases d
  cases d2
  simp only [mk.injEq]
  exact ⟨value, exp⟩

@[simp]
theorem rescale_exp (d : Decimal) (exp : ℤ) : (d.rescale exp).exp = exp := by
  unfold rescale
  split_ifs <;> rfl

/-- `RescalePair` does not depend on the order of its arguments. -/
theorem rescalePair_swap (d1 d2 : Decimal) : rescalePair d2 d1 = (rescalePair d1 d2).swap := by
  unfold rescalePair
  rcases lt_trichotomy d1.exp d2.exp with lt | same | gt
  · simp [lt.ne, lt.ne', min_eq_left lt.le, min_eq_right lt.le]
  · simp [same]
  · simp [gt.ne, gt.ne', min_eq_left gt.le, min_eq_right gt.le]

/-- Both decimals of `RescalePair` have one exponent. -/
theorem rescalePair_exp (d1 d2 : Decimal) : (rescalePair d1 d2).2.exp = (rescalePair d1 d2).1.exp := by
  unfold rescalePair
  rcases lt_trichotomy d1.exp d2.exp with lt | same | gt
  · simp [lt.ne, min_eq_left lt.le]
  · simp [same]
  · simp [gt.ne, gt.ne', min_eq_right gt.le]

theorem add_comm (d d2 : Decimal) : d.add d2 = d2.add d := by
  have exp := rescalePair_exp d d2
  simp only [add, rescalePair_swap d d2, Prod.fst_swap, Prod.snd_swap]
  rw [Int.add_comm, exp]

theorem mul_comm (d d2 : Decimal) : d.mul d2 = d2.mul d := by
  unfold mul
  simp only [or_comm, Int.mul_comm, Int.add_comm]

/-- `Cmp` with its arguments swapped is the opposite comparison. -/
theorem cmp_swap (d d2 : Decimal) : d2.cmp d = -d.cmp d2 := by
  simp only [cmp, rescalePair_swap d d2, Prod.fst_swap, Prod.snd_swap]
  rcases lt_trichotomy (rescalePair d d2).1.value (rescalePair d d2).2.value with lt | same | gt
  · simp [lt, lt.ne', not_lt_of_gt lt]
  · simp [same]
  · simp [gt, gt.ne', not_lt_of_gt gt]

/-- The negation of zero is zero. -/
theorem neg_of_isZero {d : Decimal} (zero : d.isZero = true) : d.neg = d := by
  obtain ⟨value, exp⟩ := d
  simp only [isZero, decide_eq_true_eq] at zero
  simp [neg, zero]

/-! ## `QuoRem` -/

section QuoRem

open Go

/-- Exponents of ten add. -/
theorem ten_pow_mul_zpow {k : ℕ} {a b : ℤ} (sum : (k : ℤ) + a = b) :
    (10 : ℚ) ^ k * 10 ^ a = 10 ^ b := by
  rw [← zpow_natCast, ← zpow_add₀ (by norm_num), sum]

/-- Truncated division of `aa` by `bb`, with the quotient at exponent `s` and the
remainder at `t`: when `aa × 10^t` is `d` and `bb × 10^t` is `d2 × 10^s`, this is
division with remainder of `d` by `d2` to a multiple of `10^s`. -/
theorem tdiv_tmod_spec {d d2 : Decimal} {aa bb s t : ℤ} (nonzero : bb ≠ 0)
    (dividend : d.toRat = aa * 10 ^ t) (divisor : (bb : ℚ) * 10 ^ t = d2.toRat * 10 ^ s) :
    d.toRat = d2.toRat * (⟨aa.tdiv bb, s⟩ : Decimal).toRat + (⟨aa.tmod bb, t⟩ : Decimal).toRat ∧
      |(⟨aa.tmod bb, t⟩ : Decimal).toRat| < |d2.toRat| * 10 ^ s ∧
      (aa.tmod bb = 0 ∨ (aa.tmod bb).sign = aa.sign) := by
  have split : (aa : ℚ) = bb * aa.tdiv bb + aa.tmod bb := by
    exact_mod_cast (Int.mul_tdiv_add_tmod aa bb).symm
  have power : (0 : ℚ) < 10 ^ t := zpow_pos (by norm_num) t
  refine ⟨?_, ?_, ?_⟩
  · calc d.toRat
        _ = (bb * 10 ^ t) * aa.tdiv bb + aa.tmod bb * 10 ^ t := by rw [dividend, split]; ring
        _ = d2.toRat * (aa.tdiv bb * 10 ^ s) + aa.tmod bb * 10 ^ t := by rw [divisor]; ring
  · have smaller : |(aa.tmod bb : ℚ)| < |(bb : ℚ)| := by
      rw [← Int.cast_abs, ← Int.cast_abs, Int.cast_lt, Int.abs_eq_natAbs, Int.abs_eq_natAbs, Int.natAbs_tmod]
      exact_mod_cast Nat.mod_lt _ (Int.natAbs_pos.mpr nonzero)
    calc |(⟨aa.tmod bb, t⟩ : Decimal).toRat|
        _ = |(aa.tmod bb : ℚ)| * 10 ^ t := by rw [toRat, abs_mul, abs_of_pos power]
        _ < |(bb : ℚ)| * 10 ^ t := by gcongr
        _ = |d2.toRat| * 10 ^ s := by
          rw [← abs_of_pos power, ← abs_mul, divisor, abs_mul, abs_of_pos (zpow_pos (by norm_num : (0 : ℚ) < 10) s)]
  · by_cases divides : bb ∣ aa
    · exact .inl (Int.tmod_eq_zero_of_dvd divides)
    · exact .inr (by rw [Int.sign_tmod, if_neg divides])

/-- Where no `int32` wraps, `QuoRem` meets the contract of its comment: `d = d2 * q + r`,
`q` a multiple of `10 ^ -precision`, `|r| < |d2| * 10 ^ -precision`, and `r` zero or
of the sign of `d`. -/
theorem quoRem_spec {d d2 : Decimal} {precision : ℤ} (nonzero : d2.value ≠ 0)
    (scaleFits : InInt32 (-precision)) (eFits : InInt32 (d.exp - d2.exp + precision))
    (restFits : InInt32 (-precision + d2.exp)) :
    let qr := d.quoRem d2 precision
    d.toRat = d2.toRat * qr.1.toRat + qr.2.toRat ∧ qr.1.exp = -precision ∧
      |qr.2.toRat| < |d2.toRat| * 10 ^ (-precision) ∧ (qr.2.value = 0 ∨ qr.2.value.sign = d.value.sign) := by
  have scale : wrapInt32 (-precision) = -precision := wrapInt32_of_inInt32 scaleFits
  have e : wrapInt32 (d.exp - d2.exp - -precision) = d.exp - d2.exp + precision := by
    rw [sub_neg_eq_add]
    exact wrapInt32_of_inInt32 eFits
  have rest : wrapInt32 (-precision + d2.exp) = -precision + d2.exp := wrapInt32_of_inInt32 restFits
  have tenPow : ∀ k : ℕ, (10 : ℤ) ^ k ≠ 0 := fun k => pow_ne_zero k (by norm_num)
  dsimp only [quoRem]
  rw [scale, e]
  by_cases below : d.exp - d2.exp + precision < 0
  · -- the divisor is scaled up to the dividend's exponent
    rw [if_pos below]
    have divisor : ((d2.value * 10 ^ (-(d.exp - d2.exp + precision)).toNat : ℤ) : ℚ) * 10 ^ d.exp =
        d2.toRat * 10 ^ (-precision) := by
      have exps : ((-(d.exp - d2.exp + precision)).toNat : ℤ) + d.exp = d2.exp + -precision := by omega
      rw [toRat, Int.cast_mul, Int.cast_pow, Int.cast_ofNat, mul_assoc, mul_assoc, ten_pow_mul_zpow exps,
        zpow_add₀ (by norm_num)]
    obtain ⟨sum, bound, sign⟩ := tdiv_tmod_spec (mul_ne_zero nonzero (tenPow _)) rfl divisor
    exact ⟨sum, rfl, bound, sign⟩
  · -- the dividend is scaled up to the divisor's exponent
    rw [if_neg below, rest]
    have dividend : d.toRat = ((d.value * 10 ^ (d.exp - d2.exp + precision).toNat : ℤ) : ℚ) *
        10 ^ (-precision + d2.exp) := by
      have exps : ((d.exp - d2.exp + precision).toNat : ℤ) + (-precision + d2.exp) = d.exp := by omega
      rw [toRat, Int.cast_mul, Int.cast_pow, Int.cast_ofNat, mul_assoc, ten_pow_mul_zpow exps]
    have divisor : (d2.value : ℚ) * 10 ^ (-precision + d2.exp) = d2.toRat * 10 ^ (-precision) := by
      rw [toRat, mul_assoc, ← zpow_add₀ (by norm_num), Int.add_comm d2.exp]
    obtain ⟨sum, bound, sign⟩ := tdiv_tmod_spec nonzero dividend divisor
    refine ⟨sum, rfl, bound, ?_⟩
    rw [Int.sign_mul, Int.sign_eq_one_of_pos (pow_pos (by norm_num) _), mul_one] at sign
    exact sign

theorem toRat_le_one {d : Decimal} (value : d.value = 1) (exp : d.exp ≤ 0) : d.toRat ≤ 1 := by
  rw [toRat, value, Int.cast_one, one_mul]
  exact zpow_le_one_of_nonpos₀ (by norm_num) exp

theorem one_lt_toRat {d : Decimal} (value : 1 < d.value) (exp : 0 ≤ d.exp) : 1 < d.toRat := by
  have large : (1 : ℚ) < d.value := by exact_mod_cast value
  calc (1 : ℚ)
      _ < d.value := large
      _ ≤ d.value * 10 ^ d.exp := le_mul_of_one_le_right (by positivity) (one_le_zpow₀ (by norm_num) exp)

/-- With the dividend's exponent at the top of the `int32` range and the divisor's
at the bottom, `e` wraps to `-1`: `QuoRem` returns the quotient `0` and the whole
dividend as the remainder, which is larger than the divisor. -/
theorem quoRem_exponent_wraps :
    let d : Decimal := ⟨5, 2 ^ 31 - 1⟩
    let d2 : Decimal := ⟨1, -2 ^ 31⟩
    d.quoRem d2 0 = (⟨0, 0⟩, d) ∧ |d2.toRat| * 10 ^ (-(0 : ℤ)) < |(d.quoRem d2 0).2.toRat| := by
  intro d d2
  have wrapped : d.quoRem d2 0 = (⟨0, 0⟩, d) := by decide
  refine ⟨wrapped, ?_⟩
  rw [wrapped]
  -- the divisor is at most one and the remainder, the dividend, above it
  have small : d2.toRat ≤ 1 := toRat_le_one rfl (by decide)
  have positive : 0 < d2.toRat :=
    mul_pos (by exact_mod_cast (show (0 : ℤ) < d2.value by decide)) (zpow_pos (by norm_num) _)
  have large : 1 < d.toRat := one_lt_toRat (by decide) (by decide)
  calc |d2.toRat| * 10 ^ (-(0 : ℤ))
      _ = d2.toRat := by rw [neg_zero, zpow_zero, mul_one, abs_of_pos positive]
      _ < d.toRat := lt_of_le_of_lt small large
      _ = |d.toRat| := (abs_of_pos (lt_trans one_pos large)).symm
end QuoRem

/-! ## `int32` exponents

`rescale` scales by the power `exponentGap` wraps. Below a gap of `2 ^ 31` that
is the exact difference of the exponents, and so is it outside `int32`; a zero
stays zero whatever the gap. The comparisons read the numbers through
`RescalePair`, so they are exact for exponents less than `2 ^ 31` apart. -/

section Exponents

open Go

theorem exponentGap_of_le {a b : ℤ} (le : b ≤ a) (near : a - b < 2 ^ 31 ∨ ¬ (InInt32 a ∧ InInt32 b)) :
    exponentGap a b = (a - b).toNat := by
  unfold exponentGap
  split_ifs with both
  · have fits : InInt32 (a - b) := by
      rcases near with below | outside
      · exact ⟨by omega, below⟩
      · exact absurd both outside
    rw [wrapInt32_of_inInt32 fits, toUint64, Int.emod_eq_of_lt (by omega) (by have := fits.2; omega)]
  · rfl

/-- Exponents less than `2 ^ 31` apart: `rescale` truncates by, or multiplies by,
the exact power of ten. -/
theorem rescale_of_near {d : Decimal} {exp : ℤ} (near : |exp - d.exp| < 2 ^ 31) :
    d.rescale exp = if d.exp < exp then ⟨d.value.tdiv (10 ^ (exp - d.exp).toNat), exp⟩
      else ⟨d.value * 10 ^ (d.exp - exp).toNat, exp⟩ := by
  have bounds := abs_lt.mp near
  unfold rescale
  split_ifs with grows shrinks
  · rw [exponentGap_of_le grows.le (.inl (by omega))]
  · rw [exponentGap_of_le shrinks.le (.inl (by omega))]
  · have same : exp = d.exp := by omega
    rw [same, sub_self, Int.toNat_zero, pow_zero, Int.mul_one]

/-- A zero stays zero at every exponent, whatever the gap wraps to. -/
theorem rescale_value_of_zero {d : Decimal} (zero : d.value = 0) (exp : ℤ) : (d.rescale exp).value = 0 := by
  unfold rescale
  split_ifs <;> simp [zero]

theorem toRat_rescale_of_le {d : Decimal} {exp : ℤ} (lower : exp ≤ d.exp) (near : |exp - d.exp| < 2 ^ 31) :
    (d.rescale exp).toRat = d.toRat := by
  rw [rescale_of_near near, if_neg (not_lt.mpr lower)]
  show ((d.value * 10 ^ (d.exp - exp).toNat : ℤ) : ℚ) * 10 ^ exp = d.value * 10 ^ d.exp
  rw [Int.cast_mul, Int.cast_pow, Int.cast_ofNat, mul_assoc,
    ten_pow_mul_zpow (show ((d.exp - exp).toNat : ℤ) + exp = d.exp by omega)]

/-- `RescalePair` keeps both numbers of exponents less than `2 ^ 31` apart. -/
theorem rescalePair_toRat {d1 d2 : Decimal} (near : |d1.exp - d2.exp| < 2 ^ 31) :
    (rescalePair d1 d2).1.toRat = d1.toRat ∧ (rescalePair d1 d2).2.toRat = d2.toRat := by
  -- the decimal it scales moves down to the other's exponent
  have gaps : |min d1.exp d2.exp - d1.exp| < 2 ^ 31 ∧ |min d1.exp d2.exp - d2.exp| < 2 ^ 31 := by
    rw [abs_lt] at near
    rw [abs_lt, abs_lt]
    omega
  unfold rescalePair
  split
  · exact ⟨rfl, rfl⟩
  · dsimp only
    split
    · exact ⟨toRat_rescale_of_le (min_le_left _ _) gaps.1, rfl⟩
    · exact ⟨rfl, toRat_rescale_of_le (min_le_right _ _) gaps.2⟩

/-- Both decimals of `RescalePair`, read at their common exponent. -/
theorem rescalePair_toRat_common {d d2 : Decimal} (near : |d.exp - d2.exp| < 2 ^ 31) :
    d.toRat = (rescalePair d d2).1.value * (10 : ℚ) ^ (rescalePair d d2).1.exp ∧
      d2.toRat = (rescalePair d d2).2.value * (10 : ℚ) ^ (rescalePair d d2).1.exp := by
  obtain ⟨first, second⟩ := rescalePair_toRat near
  rw [← first, ← second, toRat, toRat, rescalePair_exp]
  exact ⟨rfl, rfl⟩

theorem rescalePair_fst_value_of_zero {d1 : Decimal} (zero : d1.value = 0) (d2 : Decimal) :
    (rescalePair d1 d2).1.value = 0 := by
  unfold rescalePair
  split
  · exact zero
  · dsimp only
    split
    · exact rescale_value_of_zero zero _
    · exact zero

theorem rescalePair_snd_value_of_zero {d2 : Decimal} (zero : d2.value = 0) (d1 : Decimal) :
    (rescalePair d1 d2).2.value = 0 := by
  have first := rescalePair_fst_value_of_zero zero d1
  rwa [rescalePair_swap, Prod.fst_swap] at first

theorem toRat_eq_zero_iff (d : Decimal) : d.toRat = 0 ↔ d.value = 0 := by
  rw [toRat, mul_eq_zero, Int.cast_eq_zero, or_iff_left (zpow_ne_zero _ (by norm_num))]

theorem abs_toRat (d : Decimal) : |d.toRat| = d.value.natAbs * (10 : ℚ) ^ d.exp := by
  rw [toRat, abs_mul, abs_of_pos (zpow_pos (by norm_num : (0 : ℚ) < 10) _), Nat.cast_natAbs, Int.cast_abs]

/-- `CmpAbs` compares the magnitudes of the numbers. -/
theorem cmpAbs_nonpos_iff {d d2 : Decimal} (near : |d.exp - d2.exp| < 2 ^ 31) :
    d.cmpAbs d2 ≤ 0 ↔ |d.toRat| ≤ |d2.toRat| := by
  obtain ⟨first, second⟩ := rescalePair_toRat near
  have exps := rescalePair_exp d d2
  rw [← first, ← second, abs_toRat, abs_toRat, exps,
    mul_le_mul_iff_of_pos_right (zpow_pos (by norm_num) _), Nat.cast_le, cmpAbs]
  dsimp only
  rw [Int.abs_eq_natAbs, Int.abs_eq_natAbs]
  split_ifs <;> omega

/-- A zero is never larger in magnitude, at whatever exponents. -/
theorem cmpAbs_nonpos_of_zero {d : Decimal} (zero : d.value = 0) (d2 : Decimal) : d.cmpAbs d2 ≤ 0 := by
  have nonneg := abs_nonneg (rescalePair d d2).2.value
  rw [cmpAbs]
  dsimp only
  rw [rescalePair_fst_value_of_zero zero, abs_zero]
  split_ifs <;> omega

/-- `Cmp` is the comparison of the numbers. -/
theorem cmp_eq {d d2 : Decimal} (near : |d.exp - d2.exp| < 2 ^ 31) :
    d.cmp d2 = if d.toRat < d2.toRat then -1 else if d.toRat = d2.toRat then 0 else 1 := by
  obtain ⟨first, second⟩ := rescalePair_toRat_common near
  have power : (0 : ℚ) < 10 ^ (rescalePair d d2).1.exp := zpow_pos (by norm_num) _
  simp only [first, second, mul_lt_mul_iff_of_pos_right power, mul_left_inj' power.ne', Int.cast_lt,
    Int.cast_inj]
  rfl

theorem cmp_nonpos_iff {d d2 : Decimal} (near : |d.exp - d2.exp| < 2 ^ 31) :
    d.cmp d2 ≤ 0 ↔ d.toRat ≤ d2.toRat := by
  rw [cmp_eq near]
  rcases lt_trichotomy d.toRat d2.toRat with below | same | above
  · simp [below, below.le]
  · simp [same]
  · simp [above.ne', not_lt.mpr above.le, not_le.mpr above]

theorem cmp_eq_zero_iff {d d2 : Decimal} (near : |d.exp - d2.exp| < 2 ^ 31) :
    d.cmp d2 = 0 ↔ d.toRat = d2.toRat := by
  rw [cmp_eq near]
  rcases lt_trichotomy d.toRat d2.toRat with below | same | above
  · simp [below, below.ne]
  · simp [same]
  · simp [above.ne', not_lt.mpr above.le]

/-- Two zeros compare equal, at whatever exponents. -/
theorem cmp_eq_zero_of_zero {d d2 : Decimal} (zero : d.value = 0) (zero2 : d2.value = 0) : d.cmp d2 = 0 := by
  rw [cmp]
  dsimp only
  rw [rescalePair_fst_value_of_zero zero, rescalePair_snd_value_of_zero zero2]
  rfl

/-- Where the sum does not wrap, `myBigDigits` is the exact quotient by nine. -/
theorem myBigDigits_of_inInt32 {digits : ℤ} (fits : InInt32 (digits + 8)) :
    myBigDigits digits = (digits + 8).tdiv 9 := by
  rw [myBigDigits, wrapInt32_of_inInt32 fits]

end Exponents

/-! ## `Clamp` -/

section Clamp

open Go

/-- The estimate of `bigLength` below `overflowCutoff`. -/
theorem bigLength_of_ne_zero {x : ℤ} (nonzero : x ≠ 0) (small : x.natAbs.size ≤ 14267572532) :
    bigLength x = if x.natAbs < 10 ^ ((x.natAbs.size + 1) * 646456993 / 2 ^ 31) then
      (x.natAbs.size + 1) * 646456993 / 2 ^ 31 else (x.natAbs.size + 1) * 646456993 / 2 ^ 31 + 1 := by
  rw [bigLength, if_neg nonzero]
  simp only [gt_iff_lt, not_lt.mpr small, if_false, Nat.zero_add, Nat.shiftRight_eq_div_pow]

/-- The estimate is not too low up to 6000 bits, by `2^93 ≤ 10^28`. -/
theorem two_pow_le_ten_pow {nb m : ℕ} (small : nb ≤ 6000) (estimate : (nb + 1) * 646456993 / 2 ^ 31 = m) :
    2 ^ nb ≤ 10 ^ (m + 1) := by
  have powers : (2 ^ nb) ^ 93 ≤ (10 ^ (m + 1)) ^ 93 := by
    calc (2 ^ nb) ^ 93
        _ = (2 ^ 93) ^ nb := by rw [← pow_mul, ← pow_mul, Nat.mul_comm]
        _ ≤ (10 ^ 28) ^ nb := Nat.pow_le_pow_left (by decide) nb
        _ = 10 ^ (28 * nb) := by rw [← pow_mul]
        _ ≤ 10 ^ (93 * (m + 1)) := Nat.pow_le_pow_right (by decide) (by omega)
        _ = (10 ^ (m + 1)) ^ 93 := by rw [← pow_mul, Nat.mul_comm]
  exact (Nat.pow_le_pow_iff_left (by decide)).mp powers

/-- The estimate is not too high, by `10^59 ≤ 2^196`. -/
theorem ten_pow_le_two_pow {nb m : ℕ} (small : nb ≤ 6000) (estimate : (nb + 1) * 646456993 / 2 ^ 31 = m) :
    10 ^ (m - 1) ≤ 2 ^ (nb - 1) := by
  have powers : (10 ^ (m - 1)) ^ 196 ≤ (2 ^ (nb - 1)) ^ 196 := by
    calc (10 ^ (m - 1)) ^ 196
        _ = 10 ^ (196 * (m - 1)) := by rw [← pow_mul, Nat.mul_comm]
        _ ≤ 10 ^ (59 * (nb - 1)) := Nat.pow_le_pow_right (by decide) (by omega)
        _ = (10 ^ 59) ^ (nb - 1) := by rw [← pow_mul]
        _ ≤ (2 ^ 196) ^ (nb - 1) := Nat.pow_le_pow_left (by decide) _
        _ = (2 ^ (nb - 1)) ^ 196 := by rw [← pow_mul, ← pow_mul, Nat.mul_comm]
  exact (Nat.pow_le_pow_iff_left (by decide)).mp powers

/-- Below `2^6000`, `bigLength` counts the digits. -/
theorem bigLength_spec {x : ℤ} (nonzero : x ≠ 0) (small : x.natAbs.size ≤ 6000) :
    10 ^ (bigLength x - 1) ≤ x.natAbs ∧ x.natAbs < 10 ^ bigLength x := by
  have positive : 0 < x.natAbs := Int.natAbs_pos.mpr nonzero
  have above : x.natAbs < 2 ^ x.natAbs.size := Nat.lt_size_self _
  have below : 2 ^ (x.natAbs.size - 1) ≤ x.natAbs :=
    Nat.lt_size.mp (by have := Nat.size_pos.mpr positive; omega)
  rw [bigLength_of_ne_zero nonzero (le_trans small (by decide))]
  obtain ⟨m, estimate⟩ : ∃ m, (x.natAbs.size + 1) * 646456993 / 2 ^ 31 = m := ⟨_, rfl⟩
  rw [estimate]
  split
  · exact ⟨le_trans (ten_pow_le_two_pow small estimate) below, ‹_›⟩
  · rw [Nat.add_sub_cancel]
    exact ⟨Nat.le_of_not_lt ‹_›, lt_of_lt_of_le above (two_pow_le_ten_pow small estimate)⟩

/-- A nonzero number below `2^6000` has no more digits than bits. -/
theorem bigLength_le_size {x : ℤ} (nonzero : x ≠ 0) (small : x.natAbs.size ≤ 6000) :
    bigLength x ≤ x.natAbs.size := by
  have digits := (bigLength_spec nonzero small).1
  have powers : 2 ^ (bigLength x - 1) < 2 ^ x.natAbs.size :=
    lt_of_le_of_lt (le_trans (Nat.pow_le_pow_left (by decide) _) digits) (Nat.lt_size_self _)
  have exponents := (Nat.pow_lt_pow_iff_right (by decide)).mp powers
  omega

/-- A decimal of `n` digits at exponent `exp` lies in `[10^(exp+n-1), 10^(exp+n))`. -/
theorem abs_toRat_bounds {d : Decimal} (nonzero : d.value ≠ 0) (small : d.value.natAbs.size ≤ 6000) :
    (10 : ℚ) ^ (d.exp + bigLength d.value - 1) ≤ |d.toRat| ∧ |d.toRat| < 10 ^ (d.exp + bigLength d.value) := by
  obtain ⟨low, high⟩ := bigLength_spec nonzero small
  have length : 1 ≤ bigLength d.value := by
    rcases Nat.eq_zero_or_pos (bigLength d.value) with zero | positive
    · rw [zero, pow_zero] at high
      exact absurd (Int.natAbs_pos.mpr nonzero) (by omega)
    · exact positive
  have tenPow : (0 : ℚ) < 10 ^ d.exp := zpow_pos (by norm_num) _
  rw [abs_toRat]
  constructor
  · calc (10 : ℚ) ^ (d.exp + bigLength d.value - 1)
        _ = 10 ^ (bigLength d.value - 1) * 10 ^ d.exp := (ten_pow_mul_zpow (by omega)).symm
        _ ≤ d.value.natAbs * 10 ^ d.exp := by gcongr; exact_mod_cast low
  · calc (d.value.natAbs : ℚ) * 10 ^ d.exp
        _ < 10 ^ bigLength d.value * 10 ^ d.exp := by gcongr; exact_mod_cast high
        _ = 10 ^ (d.exp + bigLength d.value) := ten_pow_mul_zpow (by omega)

/-- The magnitude of `largestForm`: `10^integral - 10^-fractional`. -/
theorem abs_toRat_largestForm {integral fractional : ℤ} (integralNonneg : 0 ≤ integral)
    (fractionalNonneg : 0 ≤ fractional) (neg : Bool) :
    |(largestForm integral fractional neg).toRat| = 10 ^ integral - 10 ^ (-fractional) := by
  have nines : (0 : ℚ) ≤ (10 : ℚ) ^ (integral + fractional).toNat - 1 := by
    have : (1 : ℚ) ≤ 10 ^ (integral + fractional).toNat := one_le_pow₀ (by norm_num)
    linarith
  have value : |((if neg then -(10 ^ (integral + fractional).toNat - 1) else 10 ^ (integral + fractional).toNat - 1 : ℤ) : ℚ)| =
      10 ^ (integral + fractional).toNat - 1 := by
    cases neg
    · simp [abs_of_nonneg nines]
    · rw [if_pos rfl, Int.cast_neg, abs_neg]
      push_cast
      exact abs_of_nonneg nines
  rw [largestForm, toRat]
  dsimp only
  rw [abs_mul, value, abs_of_pos (zpow_pos (by norm_num) _), sub_mul, one_mul,
    ten_pow_mul_zpow (show ((integral + fractional).toNat : ℤ) + -fractional = integral by omega)]

/-- With at least one digit, `largestForm` has `integral` digits before the point. -/
theorem largestForm_bounds {integral fractional : ℤ} (digits : 1 ≤ integral + fractional) :
    (10 : ℚ) ^ (integral - 1) ≤ 10 ^ integral - 10 ^ (-fractional) ∧
      (10 : ℚ) ^ integral - 10 ^ (-fractional) < 10 ^ integral := by
  have step : (10 : ℚ) ^ integral = 10 ^ (integral - 1) * 10 := by
    rw [← zpow_add_one₀ (by norm_num), sub_add_cancel]
  have smaller : (10 : ℚ) ^ (-fractional) ≤ 10 ^ (integral - 1) := zpow_le_zpow_right₀ (by norm_num) (by omega)
  have positive : (0 : ℚ) < 10 ^ (-fractional) := zpow_pos (by norm_num) _
  constructor <;> linarith

/-- For a nonzero decimal below `2^6000`, `Clamp` keeps it when its magnitude is at
most that of `largestForm` and gives `largestForm` with its sign otherwise. -/
theorem clamp_spec {d : Decimal} {integral fractional : ℤ} (nonzero : d.value ≠ 0)
    (small : d.value.natAbs.size ≤ 6000) (fits : InInt32 (d.exp + bigLength d.value))
    (integralNonneg : 0 ≤ integral) (fractionalNonneg : 0 ≤ fractional) (digits : 1 ≤ integral + fractional)
    (few : integral + fractional < 2 ^ 31) :
    d.clamp integral fractional =
      if |d.toRat| ≤ |(largestForm integral fractional false).toRat| then d
      else largestForm integral fractional (d.value.sign < 0) := by
  obtain ⟨low, high⟩ := abs_toRat_bounds nonzero small
  obtain ⟨limitLow, limitHigh⟩ := largestForm_bounds digits
  have limit := abs_toRat_largestForm integralNonneg fractionalNonneg
  have length : bigLength d.value < 2 ^ 31 := by
    have := bigLength_le_size nonzero small
    omega
  have inner : wrapInt32 (bigLength d.value) = bigLength d.value := wrapInt32_of_inInt32 ⟨by omega, by omega⟩
  have xl : wrapInt32 (d.exp + wrapInt32 (bigLength d.value)) = d.exp + bigLength d.value := by
    rw [inner, wrapInt32_of_inInt32 fits]
  unfold clamp
  dsimp only
  rw [xl, limit]
  rcases lt_trichotomy (d.exp + bigLength d.value) integral with fewer | same | more
  · -- fewer digits: `d` is below `10^(integral-1)`
    have below : |d.toRat| ≤ 10 ^ integral - 10 ^ (-fractional) :=
      le_trans (le_of_lt (lt_of_lt_of_le high (zpow_le_zpow_right₀ (by norm_num) (by omega)))) limitLow
    rw [if_pos (ne_of_lt fewer), if_pos fewer, if_pos below]
  · -- as many digits: the magnitudes decide, read at exponents less than `2 ^ 31` apart
    have near : |d.exp - (largestForm integral fractional (d.value.sign < 0)).exp| < 2 ^ 31 := by
      have fewer := bigLength_le_size nonzero small
      show |d.exp - -fractional| < 2 ^ 31
      rw [abs_lt]
      omega
    simp only [if_neg (not_not.mpr same), cmpAbs_nonpos_iff near, limit]
  · -- more digits: `d` is at least `10^integral`
    have above : ¬ |d.toRat| ≤ 10 ^ integral - 10 ^ (-fractional) :=
      not_le.mpr (lt_of_lt_of_le limitHigh (le_trans (zpow_le_zpow_right₀ (by norm_num) (by omega)) low))
    rw [if_pos (ne_of_gt more), if_neg (not_lt.mpr more.le), if_neg above]

/-- A zero counts one digit: at an exponent of at least `integral`, `Clamp` takes it
for a number with too many digits. -/
theorem clamp_zero {exp integral fractional : ℤ} (fits : InInt32 (exp + 1)) (above : integral ≤ exp) :
    (⟨0, exp⟩ : Decimal).clamp integral fractional = largestForm integral fractional false := by
  have one : bigLength 0 = 1 := rfl
  have inner : wrapInt32 ((1 : ℕ) : ℤ) = 1 := rfl
  unfold clamp
  dsimp only
  rw [one, inner, wrapInt32_of_inInt32 fits, if_pos (by omega), if_neg (by omega)]
  rfl

/-- A zero with no more digits before the point than `integral` is kept. -/
theorem clamp_zero_of_le {exp integral fractional : ℤ} (fits : InInt32 (exp + 1)) (below : exp + 1 ≤ integral) :
    (⟨0, exp⟩ : Decimal).clamp integral fractional = ⟨0, exp⟩ := by
  have one : bigLength 0 = 1 := rfl
  have inner : wrapInt32 ((1 : ℕ) : ℤ) = 1 := rfl
  unfold clamp
  dsimp only
  rw [one, inner, wrapInt32_of_inInt32 fits]
  rcases below.lt_or_eq with fewer | same
  · rw [if_pos fewer.ne, if_pos fewer]
  · -- on a tie the magnitudes decide, and zero is the smaller
    rw [if_neg (not_not.mpr same), if_pos (cmpAbs_nonpos_of_zero rfl _)]

end Clamp

end Decimal

end Vitess
