import Vitess.Mysql.DecimalFormat
import Vitess.Data.Rounding

/-!
# Rounding decimals

`Truncate`, `Floor`, `Ceil` and `isInteger` of `go/mysql/decimal/decimal.go`,
with `Round` from `Vitess.Mysql.DecimalFormat`, against the integer roundings of
`Vitess.Data.Rounding`, compared by value (`toRat`).

Between exponents less than `2 ^ 31` apart, where the gap `rescale` scales by
does not wrap, `rescale` to a larger exponent truncates toward zero
(`toRat_rescale`), which is all `Truncate` does (`truncate_toRat`).
`Round(places)` truncates to one more digit and rounds that digit half away from
zero (`round_exp`, `round_value`, `round_nearestAway`), for places below `2 ^ 30`
in magnitude, where its `int32` exponents do not wrap (`round_exps`). `Floor` and `Ceil` divide
by a power of ten with `big.Int.DivMod`, unless `isInteger` says the number is
whole already.

`isInteger` counts the digits to check with `abs(d.exp)` in `int32`. At the
exponent `math.MinInt32` the negation wraps, no digit is checked, and `Floor` and
`Ceil` return a number that is not an integer (`floor_ceil_min_exponent`); at
every other exponent both meet their definition (`floor_toRat`, `ceil_toRat`).
-/

namespace Vitess.Decimal

open Rounding

/-- The loop of `isInteger`: `z` more digits to check, `q` what is left of the
value after `q.QuoRem(q, tenInt, &r)`. -/
def isIntegerLoop : ℕ → ℤ → Bool
  | 0, _ => true
  | z + 1, q => if q.tmod 10 ≠ 0 then false else isIntegerLoop z (q.tdiv 10)

/-- `isInteger`: the loop runs `abs(d.exp)` times, an `int32` negation. -/
def isInteger (d : Decimal) : Bool :=
  if d.exp ≥ 0 then true else isIntegerLoop (Go.wrapInt32 (-d.exp)).toNat d.value

/-- `Ceil`: `DivMod` by `10^-exp`, one up when there is a remainder. -/
def ceil (d : Decimal) : Decimal :=
  if d.isInteger then d
  else
    let exp := 10 ^ (-d.exp).toNat
    let z := d.value / exp
    let m := d.value % exp
    ⟨if m ≠ 0 then z + 1 else z, 0⟩

/-- `Floor`: `DivMod` by `10^-exp`. -/
def floor (d : Decimal) : Decimal :=
  if d.isInteger then d
  else ⟨d.value / 10 ^ (-d.exp).toNat, 0⟩

/-- `Truncate(precision)`, with `-precision` an `int32` negation. -/
def truncate (d : Decimal) (precision : ℤ) : Decimal :=
  if Go.wrapInt32 (-precision) > d.exp then d.rescale (Go.wrapInt32 (-precision)) else d

/-! ## Values as rationals -/

/-- A power of ten with a negative exponent divides by the natural power. -/
theorem mul_zpow_of_nonpos (v : ℤ) {a : ℤ} (nonpos : a ≤ 0) :
    (v : ℚ) * 10 ^ a = v / ((10 ^ (-a).toNat : ℕ) : ℚ) := by
  rw [div_eq_mul_inv, Nat.cast_pow, Nat.cast_ofNat, ← zpow_natCast, Int.toNat_of_nonneg (by omega),
    ← zpow_neg, neg_neg]

theorem value_eq_toRat_mul (d : Decimal) : (d.value : ℚ) = d.toRat * 10 ^ (-d.exp) := by
  rw [toRat, mul_assoc, ← zpow_add₀ (by norm_num), add_neg_cancel, zpow_zero, mul_one]

/-- `rescale` keeps the digits of `d` down to `10^exp`, truncated toward zero. -/
theorem rescale_value (d : Decimal) (exp : ℤ) (near : |exp - d.exp| < 2 ^ 31) :
    (d.rescale exp).value = towardZero (d.toRat * 10 ^ (-exp)) := by
  by_cases grows : d.exp < exp
  · -- `big.Int.Quo` by `10^(exp - d.exp)`
    have quotient : d.toRat * 10 ^ (-exp) = (d.value : ℚ) / ((10 ^ (exp - d.exp).toNat : ℕ) : ℚ) := by
      rw [toRat, mul_assoc, ← zpow_add₀ (by norm_num), mul_zpow_of_nonpos _ (by omega)]
      congr 4
      ring
    rw [quotient, towardZero_intCast_div, rescale_of_near near, if_pos grows]
    push_cast
    rfl
  · -- an exact product, or `d` itself
    have integral := value_eq_toRat_mul (d.rescale exp)
    rw [rescale_exp, toRat_rescale_of_le (not_lt.mp grows) near] at integral
    rw [← integral, towardZero_intCast]

/-- `rescale` truncates toward zero to a multiple of `10^exp`. -/
theorem toRat_rescale (d : Decimal) (exp : ℤ) (near : |exp - d.exp| < 2 ^ 31) :
    (d.rescale exp).toRat = towardZero (d.toRat * 10 ^ (-exp)) * 10 ^ exp := by
  rw [toRat, rescale_value d exp near, rescale_exp]

/-! ## `Truncate` and `Round` -/

/-- `Truncate(precision)` is `d` truncated toward zero to a multiple of
`10^-precision`, where `-precision` is an `int32`. -/
theorem truncate_toRat (d : Decimal) (precision : ℤ) (fits : Go.InInt32 (-precision))
    (near : |precision + d.exp| < 2 ^ 31) :
    (d.truncate precision).toRat = towardZero (d.toRat * 10 ^ precision) * 10 ^ (-precision) := by
  have gap : |-precision - d.exp| < 2 ^ 31 := by
    rwa [← abs_neg, show -(-precision - d.exp) = precision + d.exp by ring]
  unfold truncate
  rw [Go.wrapInt32_of_inInt32 fits]
  split_ifs with cut
  · rw [toRat_rescale d _ gap, neg_neg]
  · -- `d` is a multiple of `10^-precision` already
    conv_lhs => rw [← toRat_rescale_of_le (not_lt.mp cut) gap]
    rw [toRat_rescale d _ gap, neg_neg]

/-- The last step of `Round`: five added away from zero, the Euclidean quotient
by ten, and one back toward zero for a negative quotient with a remainder. -/
theorem round_last_digit (t : ℤ) :
    (let value := if t.sign < 0 then t - 5 else t + 5
     let quotient := value / 10
     if quotient.sign < 0 ∧ value % 10 ≠ 0 then quotient + 1 else quotient) =
      if t < 0 then -((5 - t) / 10) else (t + 5) / 10 := by
  simp only [Int.sign_neg_iff]
  split_ifs <;> omega

/-- Places below `2 ^ 30` in magnitude: none of `Round`'s `int32` exponents wraps. -/
theorem round_exps {places : ℤ} (placesFit : |places| < 2 ^ 30) :
    Go.wrapInt32 (-places) = -places ∧ Go.wrapInt32 (-places - 1) = -places - 1 ∧
      Go.wrapInt32 (-places - 1 + 1) = -places := by
  rw [abs_lt] at placesFit
  refine ⟨Go.wrapInt32_of_inInt32 ⟨by omega, by omega⟩, Go.wrapInt32_of_inInt32 ⟨by omega, by omega⟩, ?_⟩
  rw [sub_add_cancel]
  exact Go.wrapInt32_of_inInt32 ⟨by omega, by omega⟩

theorem round_exp (d : Decimal) {places : ℤ} (placesFit : |places| < 2 ^ 30) : (d.round places).exp = -places := by
  obtain ⟨negated, below, raised⟩ := round_exps placesFit
  unfold round
  rw [negated, below]
  split_ifs with same
  · exact same
  · simp only [rescale_exp]
    exact raised

/-- `Round(places)` is the nearest multiple of `10^-places`, half away from zero. -/
theorem round_value (d : Decimal) {places : ℤ} (placesFit : |places| < 2 ^ 30)
    (near : |places + 1 + d.exp| < 2 ^ 31) :
    (d.round places).value = roundHalfAway (d.toRat * 10 ^ places) := by
  obtain ⟨negated, below, -⟩ := round_exps placesFit
  unfold round
  rw [negated, below]
  split_ifs with same
  · rw [← neg_neg places, ← same, ← value_eq_toRat_mul, roundHalfAway_intCast]
  · have gap : |-places - 1 - d.exp| < 2 ^ 31 := by
      rwa [← abs_neg, show -(-places - 1 - d.exp) = places + 1 + d.exp by ring]
    have digit : (d.rescale (-places - 1)).value = towardZero (10 * (d.toRat * 10 ^ places)) := by
      rw [rescale_value d _ gap, show -(-places - 1) = places + 1 by ring, zpow_add_one₀ (by norm_num)]
      ring_nf
    simp only
    rw [digit, round_last_digit, roundHalfAway_eq_of_digit]

/-- The value of `Round(places)` is a multiple of `10^-places` nearest to `d`,
and of two equally near ones the one farther from zero. -/
theorem round_nearestAway (d : Decimal) {places : ℤ} (placesFit : |places| < 2 ^ 30)
    (near : |places + 1 + d.exp| < 2 ^ 31) :
    (d.round places).toRat = (d.round places).value * 10 ^ (-places) ∧
      NearestAway (d.toRat * 10 ^ places) (d.round places).value := by
  refine ⟨by rw [toRat, round_exp d placesFit], ?_⟩
  rw [round_value d placesFit near]
  exact roundHalfAway_nearestAway _

/-! ## `Floor` and `Ceil` -/

/-- The loop of `isInteger` passes only a multiple of `10^z`. -/
theorem dvd_of_isIntegerLoop : ∀ (z : ℕ) (q : ℤ), isIntegerLoop z q = true → (10 : ℤ) ^ z ∣ q
  | 0, q, _ => by simp
  | z + 1, q, passes => by
    rw [isIntegerLoop] at passes
    split_ifs at passes with remainder
    have digit : (10 : ℤ) ∣ q := Int.dvd_of_tmod_eq_zero (not_not.mp remainder)
    obtain ⟨rest, rfl⟩ := digit
    have shifted := dvd_of_isIntegerLoop z _ passes
    rw [Int.mul_tdiv_cancel_left _ (by decide)] at shifted
    rw [pow_succ']
    exact mul_dvd_mul_left 10 shifted

/-- Below the exponent `math.MinInt32`, `isInteger` passes only integers. -/
theorem isInteger_exact {d : Decimal} (fits : -2 ^ 31 < d.exp) (integer : d.isInteger = true) :
    ∃ n : ℤ, d.toRat = n := by
  by_cases nonneg : 0 ≤ d.exp
  · refine ⟨d.value * 10 ^ d.exp.toNat, ?_⟩
    rw [toRat, Int.cast_mul, Int.cast_pow, Int.cast_ofNat, ← zpow_natCast, Int.toNat_of_nonneg nonneg]
  -- `abs(d.exp)` is `-d.exp` above `math.MinInt32`
  have count : Go.wrapInt32 (-d.exp) = -d.exp := Go.wrapInt32_of_inInt32 ⟨by omega, by omega⟩
  rw [isInteger, if_neg (by omega), count] at integer
  obtain ⟨n, multiple⟩ := dvd_of_isIntegerLoop _ _ integer
  refine ⟨n, ?_⟩
  have positive : ((10 ^ (-d.exp).toNat : ℕ) : ℚ) ≠ 0 := Nat.cast_ne_zero.mpr (pow_ne_zero _ (by norm_num))
  rw [toRat, mul_zpow_of_nonpos _ (by omega), multiple, div_eq_iff positive]
  push_cast
  ring

theorem exp_neg_of_not_isInteger {d : Decimal} (notInteger : d.isInteger = false) : d.exp < 0 := by
  by_contra nonneg
  simp [isInteger, not_lt.mp nonneg] at notInteger

/-- `Floor` is the greatest integer not above `d`, at every exponent above
`math.MinInt32`. -/
theorem floor_toRat {d : Decimal} (fits : -2 ^ 31 < d.exp) : d.floor.toRat = ⌊d.toRat⌋ := by
  unfold floor
  cases integer : d.isInteger
  · have negative := exp_neg_of_not_isInteger integer
    rw [if_neg (by simp), toRat, toRat, mul_zpow_of_nonpos _ negative.le, Rat.floor_intCast_div_natCast]
    push_cast
    ring
  · obtain ⟨n, whole⟩ := isInteger_exact fits integer
    rw [if_pos rfl, whole, Int.floor_intCast]

/-- `DivMod` rounded up when there is a remainder is the ceiling of the quotient. -/
theorem ceil_of_divMod {v b : ℤ} (positive : 0 < b) :
    (if v % b ≠ 0 then v / b + 1 else v / b) = -((-v) / b) := by
  have whole := Int.emod_add_mul_ediv v b
  have low := Int.emod_nonneg v positive.ne'
  have high := Int.emod_lt_of_pos v positive
  split_ifs with remainder
  · -- `-v = (b - r) + b * (-q - 1)`
    have negated : (-v) / b = -(v / b) - 1 :=
      ((@Int.ediv_emod_unique (-v) b (b - v % b) (-(v / b) - 1) positive).mpr
        ⟨by linarith, by omega, by omega⟩).1
    omega
  · have zero : v % b = 0 := not_not.mp remainder
    have negated : (-v) / b = -(v / b) :=
      ((@Int.ediv_emod_unique (-v) b 0 (-(v / b)) positive).mpr ⟨by linarith, le_refl 0, positive⟩).1
    omega

/-- `Ceil` is the least integer not below `d`, at every exponent above
`math.MinInt32`. -/
theorem ceil_toRat {d : Decimal} (fits : -2 ^ 31 < d.exp) : d.ceil.toRat = ⌈d.toRat⌉ := by
  unfold ceil
  cases integer : d.isInteger
  · have negative := exp_neg_of_not_isInteger integer
    have positive : (0 : ℤ) < 10 ^ (-d.exp).toNat := pow_pos (by norm_num) _
    rw [if_neg (by simp), toRat, toRat, mul_zpow_of_nonpos _ negative.le, Rat.ceil_intCast_div_natCast]
    simp only [zpow_zero, mul_one]
    rw [ceil_of_divMod positive]
    push_cast
    rfl
  · obtain ⟨n, whole⟩ := isInteger_exact fits integer
    rw [if_pos rfl, whole, Int.ceil_intCast]

/-- At the exponent `math.MinInt32`, `abs(d.exp)` wraps to a negative count, the
loop of `isInteger` does not run, and `Floor` and `Ceil` return
`10^-2147483648` itself, which lies strictly between `0` and `1`. -/
theorem floor_ceil_min_exponent :
    let d : Decimal := ⟨1, -2 ^ 31⟩
    d.floor = d ∧ d.ceil = d ∧ d.floor.toRat ≠ ⌊d.toRat⌋ ∧ d.ceil.toRat ≠ ⌈d.toRat⌉ := by
  intro d
  have integer : d.isInteger = true := by decide
  have positive : 0 < d.toRat := by
    simp only [d, toRat, Int.cast_one, one_mul]
    exact zpow_pos (by norm_num) _
  have belowOne : d.toRat < 1 := by
    simp only [d, toRat, Int.cast_one, one_mul]
    exact zpow_lt_one_of_neg₀ (by norm_num) (by norm_num)
  have floorZero : ⌊d.toRat⌋ = 0 := Int.floor_eq_zero_iff.mpr ⟨positive.le, belowOne⟩
  have ceilOne : ⌈d.toRat⌉ = 1 := Int.ceil_eq_iff.mpr ⟨by norm_num [positive], belowOne.le⟩
  have same : d.floor = d ∧ d.ceil = d := by
    simp [floor, ceil, integer]
  refine ⟨same.1, same.2, ?_, ?_⟩
  · rw [same.1, floorZero]
    exact_mod_cast positive.ne'
  · rw [same.2, ceilOne]
    exact_mod_cast belowOne.ne

end Vitess.Decimal
