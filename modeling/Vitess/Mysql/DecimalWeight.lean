import Vitess.Mysql.DecimalRounding
import Vitess.Key.Key

/-!
# Decimal weight strings

`Decimal.WeightString` of `go/mysql/decimal/weights.go`, the bytes by which the
evaluator sorts and hashes a `DECIMAL(length, precision)` value. The number is
truncated to `precision` fractional digits (`rescale`), clamped to the largest
magnitude of the type (`Clamp`), and its magnitude written big-endian by
`big.Int.FillBytes` into one byte more than `weightStringLengths[length]`. A
negative number has every byte complemented, and the first byte has its top bit
flipped.

For a value of at most 6000 bits after truncation, at an exponent below `2 ^ 30`
in magnitude, where the gap `rescale` scales by does not wrap, the result is one
number, `weightKey`, in big-endian bytes (`weightString_eq`): the clamped value moved
up by `2^7` times the weight of the top byte, less one more below zero. Weight
strings then compare as the numbers do (`weightString_orders_small_decimals`):
a smaller number never weighs more, and two numbers of the type weigh the same
exactly when they are equal.

`Clamp` counts the digits before the point with `int32(bigLength(value))`. A
value of more than `2^31` digits wraps that count to a negative number, `Clamp`
keeps the value, and `FillBytes` panics on a buffer too small for it
(`weightString_panics_past_int32_digits`).
-/

namespace Vitess.Decimal

open Rounding SortKey Go

/-- `weightStringLengths`: the bytes of the magnitude of `length` nines, for
`length` up to `65`. -/
def weightStringLengths : List ℕ :=
  [0, 1, 1, 2, 2, 3, 3, 3, 4, 4, 5, 5, 5, 6, 6, 7, 7, 8, 8, 8,
    9, 9, 10, 10, 10, 11, 11, 12, 12, 13, 13, 13, 14, 14, 15, 15, 15,
    16, 16, 17, 17, 18, 18, 18, 19, 19, 20, 20, 20, 21, 21, 22, 22,
    23, 23, 23, 24, 24, 25, 25, 25, 26, 26, 27, 27, 27]

/-- `big.Int.FillBytes`: the magnitude of `x`, big-endian and padded with zeros
to `size` bytes; `none` where the source panics, on a magnitude that does not
fit. -/
def fillBytes (size : ℕ) (x : ℤ) : Option (List UInt8) :=
  if x.natAbs < 256 ^ size then some (encode size x.natAbs) else none

/-- `WeightString(dst, length, precision)`; `none` where the source panics: an
index past `weightStringLengths`, or a value `FillBytes` cannot hold. `-precision`
and `length - precision` are `int32` arithmetic. -/
def weightString (d : Decimal) (dst : List UInt8) (length precision : ℤ) : Option (List UInt8) := do
  let dec := d.rescale (wrapInt32 (-precision))
  let dec := dec.clamp (wrapInt32 (length - precision)) precision
  let size ← if 0 ≤ length then weightStringLengths[length.toNat]? else none
  let buf ← fillBytes (size + 1) dec.value
  let buf := if dec.value.sign < 0 then buf.map (· ^^^ 0xff) else buf
  -- `buf[0] ^= 0x80`, on a buffer of at least one byte
  return dst ++ buf.modifyHead (· ^^^ 0x80)

/-! ## What the weight stands for -/

/-- A number of the type `DECIMAL(length, precision)`: a multiple of
`10^-precision` of fewer than `length` digits. -/
def Representable (d : Decimal) (length precision : ℤ) : Prop :=
  ∃ k : ℤ, d.toRat = k * 10 ^ (-precision) ∧ |k| < 10 ^ length.toNat

/-- `v` clamped to `length` nines either way. -/
def clampValue (length v : ℤ) : ℤ :=
  max (-(10 ^ length.toNat - 1)) (min v (10 ^ length.toNat - 1))

/-- The number whose `size + 1` big-endian bytes are the weight of the clamped
value `v`: `v` moved up by `2^7` times the weight of the top byte, less one more
below zero. -/
def weightKey (size : ℕ) (v : ℤ) : ℕ :=
  if v < 0 then 128 * 256 ^ size - 1 - v.natAbs else 128 * 256 ^ size + v.natAbs

/-! ## The table and the key -/

/-- Each entry of the table holds `length` nines. -/
theorem weightStringLengths_bound : ∀ i < 66, 10 ^ i ≤ 256 ^ weightStringLengths.getD i 0 := by
  decide +kernel

theorem getElem?_weightStringLengths {i : ℕ} (below : i < 66) :
    weightStringLengths[i]? = some (weightStringLengths.getD i 0) := by
  have inside : i < weightStringLengths.length := below
  rw [List.getElem?_eq_getElem inside, List.getD_eq_getElem _ _ inside]

theorem weightKey_lt {size : ℕ} {v : ℤ} (fits : v.natAbs < 256 ^ size) :
    weightKey size v < 256 ^ (size + 1) := by
  rw [pow_succ, weightKey]
  generalize 256 ^ size = unit at *
  split_ifs <;> omega

/-- Keys of values below `256 ^ size` are in the order of the values. -/
theorem weightKey_le_iff {size : ℕ} {v w : ℤ} (hv : v.natAbs < 256 ^ size) (hw : w.natAbs < 256 ^ size) :
    weightKey size v ≤ weightKey size w ↔ v ≤ w := by
  unfold weightKey
  generalize 256 ^ size = unit at *
  split_ifs <;> omega

theorem weightKey_inj {size : ℕ} {v w : ℤ} (hv : v.natAbs < 256 ^ size) (hw : w.natAbs < 256 ^ size) :
    weightKey size v = weightKey size w ↔ v = w := by
  unfold weightKey
  generalize 256 ^ size = unit at *
  split_ifs <;> omega

/-- The buffer of `WeightString` after `FillBytes`, the complement of a negative
value and the flipped top bit is `weightKey` in big-endian bytes. -/
theorem weightBytes_eq {size : ℕ} {v : ℤ} (fits : v.natAbs < 256 ^ size) :
    (if v.sign < 0 then (encode (size + 1) v.natAbs).map (· ^^^ 0xff)
      else encode (size + 1) v.natAbs).modifyHead (· ^^^ 0x80) = encode (size + 1) (weightKey size v) := by
  have whole : 256 ^ (size + 1) = 256 * 256 ^ size := pow_succ' 256 size
  have below : v.natAbs < 256 ^ (size + 1) := by omega
  by_cases negative : v < 0
  · -- the complement has `255` on top, and the flipped bit makes it `127`
    rw [if_pos (Int.sign_neg_iff.mpr negative), map_xor_encode below, modifyHead_xor_encode (by omega),
      weightKey, if_pos negative, whole]
    generalize 256 ^ size = unit at *
    have shifted : 256 * unit - 1 - v.natAbs + 128 * unit = 128 * unit - 1 - v.natAbs + 256 * unit := by
      omega
    rw [shifted, Nat.add_mod_right, Nat.mod_eq_of_lt (by omega)]
  · rw [if_neg (mt Int.sign_neg_iff.mp negative), modifyHead_xor_encode below, weightKey, if_neg negative,
      Nat.mod_eq_of_lt (by omega), Nat.add_comm v.natAbs]

/-! ## The clamped value -/

/-- `largestForm` of a type of `length` digits, `precision` of them fractional. -/
theorem largestForm_column (length precision : ℤ) (neg : Bool) :
    largestForm (length - precision) precision neg =
      ⟨if neg then -(10 ^ length.toNat - 1) else 10 ^ length.toNat - 1, -precision⟩ := by
  simp only [largestForm, sub_add_cancel]

/-- For a value of at most 6000 bits at the exponent `-precision`, `Clamp` to
`DECIMAL(length, precision)` clamps the value to `length` nines. -/
theorem clamp_column {v length precision : ℤ} (lengthRange : 1 ≤ length ∧ length ≤ 65)
    (precisionRange : 0 ≤ precision ∧ precision ≤ length) (small : v.natAbs.size ≤ 6000) :
    (⟨v, -precision⟩ : Decimal).clamp (length - precision) precision = ⟨clampValue length v, -precision⟩ := by
  have ninesPos : (1 : ℤ) ≤ 10 ^ length.toNat := one_le_pow₀ (by norm_num)
  by_cases zero : v = 0
  · subst zero
    rw [clamp_zero_of_le ⟨by omega, by omega⟩ (by omega), clampValue]
    congr 1
    omega
  have digits : bigLength v ≤ 6000 := (bigLength_le_size zero small).trans small
  have magnitudes : |(⟨v, -precision⟩ : Decimal).toRat| ≤ |(⟨10 ^ length.toNat - 1, -precision⟩ : Decimal).toRat| ↔
      v.natAbs ≤ (10 ^ length.toNat - 1 : ℤ).natAbs := by
    rw [abs_toRat, abs_toRat]
    dsimp only
    rw [mul_le_mul_iff_of_pos_right (zpow_pos (by norm_num) _), Nat.cast_le]
  rw [clamp_spec zero small ⟨by dsimp only; omega, by dsimp only; omega⟩ (by omega) precisionRange.1
    (by omega) (by omega)]
  simp only [largestForm_column, Bool.false_eq_true, if_false, decide_eq_true_eq, magnitudes,
    Int.sign_neg_iff]
  unfold clampValue
  split_ifs <;> ext <;> dsimp only <;> omega

theorem clampValue_mono (length : ℤ) : Monotone (clampValue length) :=
  fun _ _ le => max_le_max le_rfl (min_le_min le le_rfl)

theorem clampValue_of_lt {length v : ℤ} (within : |v| < 10 ^ length.toNat) : clampValue length v = v := by
  rw [abs_lt] at within
  unfold clampValue
  omega

/-- A number of the type is a whole number of units `10^-precision`, which
truncation and clamping keep. -/
theorem Representable.scaled {d : Decimal} {length precision : ℤ} (rep : d.Representable length precision) :
    ∃ k : ℤ, towardZero (d.toRat * 10 ^ precision) = k ∧ clampValue length k = k ∧
      d.toRat = k * 10 ^ (-precision) := by
  obtain ⟨k, value, within⟩ := rep
  have scaled : d.toRat * 10 ^ precision = k := by
    rw [value, mul_assoc, ← zpow_add₀ (by norm_num), neg_add_cancel, zpow_zero, mul_one]
  exact ⟨k, by rw [scaled, towardZero_intCast], clampValue_of_lt within, value⟩

/-- A clamped value fits the table's bytes. -/
theorem natAbs_clampValue_lt {length : ℤ} (lengthRange : 1 ≤ length ∧ length ≤ 65) (v : ℤ) :
    (clampValue length v).natAbs < 256 ^ weightStringLengths.getD length.toNat 0 := by
  have table := weightStringLengths_bound length.toNat (by omega)
  have ninesPos : (1 : ℤ) ≤ 10 ^ length.toNat := one_le_pow₀ (by norm_num)
  have cast : ((10 ^ length.toNat : ℕ) : ℤ) = 10 ^ length.toNat := by push_cast; rfl
  unfold clampValue
  omega

/-! ## The weight string -/

/-- For a value of at most 6000 bits after truncation, at an exponent below
`2 ^ 30` in magnitude, `WeightString` appends `weightKey` of the clamped value in
`weightStringLengths[length] + 1` bytes. -/
theorem weightString_eq {d : Decimal} {length precision : ℤ} (lengthRange : 1 ≤ length ∧ length ≤ 65)
    (precisionRange : 0 ≤ precision ∧ precision ≤ length) (expBound : |d.exp| < 2 ^ 30)
    (small : (towardZero (d.toRat * 10 ^ precision)).natAbs.size ≤ 6000) (dst : List UInt8) :
    d.weightString dst length precision =
      some (dst ++ encode (weightStringLengths.getD length.toNat 0 + 1)
        (weightKey (weightStringLengths.getD length.toNat 0)
          (clampValue length (towardZero (d.toRat * 10 ^ precision))))) := by
  have gap : |-precision - d.exp| < 2 ^ 31 := by
    rw [abs_lt] at expBound ⊢
    omega
  have rescaled : d.rescale (-precision) = ⟨towardZero (d.toRat * 10 ^ precision), -precision⟩ := by
    ext
    · rw [rescale_value d _ gap, neg_neg]
    · rw [rescale_exp]
  have fits := natAbs_clampValue_lt lengthRange (towardZero (d.toRat * 10 ^ precision))
  have fillable : (clampValue length (towardZero (d.toRat * 10 ^ precision))).natAbs <
      256 ^ (weightStringLengths.getD length.toNat 0 + 1) :=
    lt_of_lt_of_le fits (Nat.pow_le_pow_right (by decide) (Nat.le_succ _))
  unfold weightString
  dsimp only
  rw [wrapInt32_of_inInt32 (show InInt32 (-precision) from ⟨by omega, by omega⟩),
    wrapInt32_of_inInt32 (show InInt32 (length - precision) from ⟨by omega, by omega⟩),
    rescaled, clamp_column lengthRange precisionRange small,
    if_pos (by omega : (0 : ℤ) ≤ length), getElem?_weightStringLengths (by omega)]
  simp only [Option.bind_eq_bind, Option.bind_some, fillBytes, if_pos fillable, Option.pure_def]
  rw [weightBytes_eq fits]

/-- For values of at most 6000 bits after truncation, at exponents below `2 ^ 30`
in magnitude, `WeightString` returns, and the weights compare as the numbers: a
number never weighs more than a larger one, and two numbers of the type weigh
the same exactly when they are equal. -/
theorem weightString_orders_small_decimals {length precision : ℤ} (lengthRange : 1 ≤ length ∧ length ≤ 65)
    (precisionRange : 0 ≤ precision ∧ precision ≤ length) {a b : Decimal}
    (expA : |a.exp| < 2 ^ 30) (expB : |b.exp| < 2 ^ 30)
    (smallA : (towardZero (a.toRat * 10 ^ precision)).natAbs.size ≤ 6000)
    (smallB : (towardZero (b.toRat * 10 ^ precision)).natAbs.size ≤ 6000) :
    ∃ wa wb, a.weightString [] length precision = some wa ∧ b.weightString [] length precision = some wb ∧
      (a.cmp b ≤ 0 → Key.bytesCompare wa wb ≤ 0) ∧
      (a.Representable length precision → b.Representable length precision → (wa = wb ↔ a.cmp b = 0)) := by
  have fitsA := natAbs_clampValue_lt lengthRange (towardZero (a.toRat * 10 ^ precision))
  have fitsB := natAbs_clampValue_lt lengthRange (towardZero (b.toRat * 10 ^ precision))
  have near : |a.exp - b.exp| < 2 ^ 31 := by
    rw [abs_lt] at expA expB ⊢
    omega
  refine ⟨_, _, weightString_eq lengthRange precisionRange expA smallA [],
    weightString_eq lengthRange precisionRange expB smallB [], ?_, ?_⟩
  · -- truncation and clamping are monotone, and so is the key
    intro ordered
    have scaled : a.toRat * 10 ^ precision ≤ b.toRat * 10 ^ precision :=
      mul_le_mul_of_nonneg_right ((cmp_nonpos_iff near).mp ordered) (zpow_nonneg (by norm_num) _)
    rw [List.nil_append, List.nil_append,
      Key.bytesCompare_encode_nonpos_iff (weightKey_lt fitsA) (weightKey_lt fitsB), weightKey_le_iff fitsA fitsB]
    exact clampValue_mono length (towardZero_mono scaled)
  · -- numbers of the type are their own clamped truncations
    intro repA repB
    obtain ⟨ka, truncA, clampA, valueA⟩ := repA.scaled
    obtain ⟨kb, truncB, clampB, valueB⟩ := repB.scaled
    rw [List.nil_append, List.nil_append, encode_inj (weightKey_lt fitsA) (weightKey_lt fitsB),
      weightKey_inj fitsA fitsB, truncA, truncB, clampA, clampB, cmp_eq_zero_iff near, valueA, valueB,
      mul_left_inj' (zpow_ne_zero _ (by norm_num)), Int.cast_inj]

/-! ## More than `2^31` digits -/

/-- Between `7136034895` and `8593934588` bits the estimate of `bigLength` is
at least `2^31` and the count stays below `2^32`, so its `int32` is negative. -/
theorem wrapInt32_bigLength_neg {x : ℤ} (sizeLow : 7136034894 < x.natAbs.size)
    (sizeHigh : x.natAbs.size ≤ 8593934588) : wrapInt32 (bigLength x) < 0 := by
  have nonzero : x ≠ 0 := by
    rintro rfl
    simp at sizeLow
  obtain ⟨m, estimate⟩ : ∃ m, (x.natAbs.size + 1) * 646456993 / 2 ^ 31 = m := ⟨_, rfl⟩
  have mLow : 2 ^ 31 ≤ m := by omega
  have mHigh : m + 1 < 2 ^ 32 := by omega
  rw [bigLength_of_ne_zero nonzero (by omega), estimate]
  split
  · rw [wrapInt32_of_le_of_lt (by omega) (by omega)]
    omega
  · rw [wrapInt32_of_le_of_lt (by omega) (by omega)]
    omega

/-- `10^k` has more than `93 * q` bits when `28 * q ≤ k`, by `2^93 ≤ 10^28`,
and for `k > 0` at most `4 * k`, by `10 < 2^4`. -/
theorem size_ten_pow_bounds {k q : ℕ} (low : 28 * q ≤ k) (positive : 0 < k) :
    93 * q < (10 ^ k).size ∧ (10 ^ k).size ≤ 4 * k := by
  constructor
  · apply Nat.lt_size.mpr
    calc 2 ^ (93 * q)
        _ = (2 ^ 93) ^ q := by rw [← pow_mul]
        _ ≤ (10 ^ 28) ^ q := Nat.pow_le_pow_left (by decide) q
        _ = 10 ^ (28 * q) := by rw [← pow_mul]
        _ ≤ 10 ^ k := Nat.pow_le_pow_right (by decide) low
  · apply Nat.size_le.mpr
    calc 10 ^ k
        _ < 16 ^ k := Nat.pow_lt_pow_left (by decide) positive.ne'
        _ = 2 ^ (4 * k) := by rw [pow_mul]; norm_num

/-- `Clamp` keeps a number at the exponent `0` whose digit count wraps to a
negative `int32`: it has fewer digits before the point than any type. -/
theorem clamp_of_wrapped {x integral fractional : ℤ} (wrapped : wrapInt32 (bigLength x) < 0)
    (integralNonneg : 0 ≤ integral) : (⟨x, 0⟩ : Decimal).clamp integral fractional = ⟨x, 0⟩ := by
  have xl : wrapInt32 (0 + wrapInt32 (bigLength x)) = wrapInt32 (bigLength x) := by
    rw [Int.zero_add, wrapInt32_of_inInt32 (wrapInt32_inInt32 _)]
  unfold clamp
  dsimp only
  rw [xl, if_pos (by omega), if_pos (by omega)]

/-- `New(10^1000000, math.MaxInt32).WeightString(nil, 1, 0)` panics: at the
exponent `0` the value has `2148483648` digits, `int32(bigLength)` wraps to a
negative count, `Clamp` keeps the value, and `FillBytes` cannot write it in two
bytes. -/
theorem weightString_panics_past_int32_digits :
    (⟨10 ^ 10 ^ 6, 2 ^ 31 - 1⟩ : Decimal).weightString [] 1 0 = none := by
  -- the exponent is kept a variable, so that no power of it is ever evaluated
  obtain ⟨k, digits⟩ : ∃ k, k = 10 ^ 6 + 2147483647 := ⟨_, rfl⟩
  have rescaled : (⟨10 ^ 10 ^ 6, 2 ^ 31 - 1⟩ : Decimal).rescale 0 = ⟨10 ^ k, 0⟩ := by
    rw [rescale, if_neg (by decide), if_pos (by decide)]
    ext
    · dsimp only
      rw [show exponentGap (2 ^ 31 - 1) 0 = 2147483647 by decide, ← pow_add, digits]
    · rfl
  have natAbs : ((10 : ℤ) ^ k).natAbs = 10 ^ k := by
    rw [Int.natAbs_pow]
    rfl
  obtain ⟨sizeLow, sizeHigh⟩ := @size_ten_pow_bounds k 76731558 (by omega) (by omega)
  have wrapped : wrapInt32 (bigLength (10 ^ k)) < 0 := by
    apply wrapInt32_bigLength_neg
    · rw [natAbs]
      omega
    · rw [natAbs]
      omega
  have tooLarge : ¬ ((10 : ℤ) ^ k).natAbs < 256 ^ (1 + 1) := by
    rw [natAbs, not_lt]
    calc 256 ^ (1 + 1)
        _ ≤ 10 ^ 5 := by decide
        _ ≤ 10 ^ k := Nat.pow_le_pow_right (by decide) (by omega)
  have index : weightStringLengths[(1 : ℤ).toNat]? = some 1 := rfl
  unfold weightString
  dsimp only
  rw [show wrapInt32 (-0) = 0 by decide, rescaled, show wrapInt32 (1 - 0) = 1 by decide,
    clamp_of_wrapped wrapped (by decide), if_pos (by decide), index]
  simp only [Option.bind_eq_bind, Option.bind_some, fillBytes, if_neg tooLarge, Option.bind_none]

end Vitess.Decimal
