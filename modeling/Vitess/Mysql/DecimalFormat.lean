import Vitess.Mysql.Decimal
import Vitess.Go.Strconv

/-!
# Printing decimals

The printers of `go/mysql/decimal`: `formatFast` and `roundString` of
`format.go`, and the two ways `decimal.go` prints a decimal with a number of
fractional digits. `StringFixed(places)` rounds the number with `Round`, half
away from zero, and prints the result as it is. `FormatMySQL(frac)`, with which the
evaluation engine prints every `DECIMAL`, rounds the digit string inside
`formatFast`: it turns `frac` into a count of significant digits and rounds the
mantissa's digits to it with `roundString`.

A byte string of the source is a list of characters; every byte these functions
write is an ASCII digit, `-` or `.`. The mantissa's digits are those of
`strconv.FormatUint` of its magnitude (`formatMantissa`); the source's loop over
`smallsString` for a one-word mantissa writes the same digits
(`formatMantissaWords_eq_formatMantissa`).

Without rounding, `formatFast` prints what the reference printer `formatSlow`
prints, for every decimal (`formatFast_agrees_with_formatSlow`).

`formatFast` gives a number below one printed with no fractional digit the
significant-digit count `0`, and prints `0` for it: `FormatMySQL(0)` of `0.5`
is `0` where `StringFixed(0)` is `1` (`formatMySQL_rounds_half_to_zero`).
-/

namespace Vitess.Decimal

open Go

/-! ## The helpers of `format.go` -/

/-- `appendZeroes`. -/
def appendZeroes (buf : List Char) (n : ℕ) : List Char :=
  buf ++ List.replicate n '0'

/-- `trimTrailingZeroes`: the zeros at the end, and then a `.` left last, dropped.
The source would index before the start of a buffer of zeros only, which its
callers never pass. -/
def trimTrailingZeroes (buf : List Char) : List Char :=
  let trimmed := buf.rdropWhile (· = '0')
  if trimmed.getLast? = some '.' then trimmed.dropLast else trimmed

/-- `allZeros`. -/
def allZeros (b : List Char) : Bool :=
  b.all (· = '0')

/-- The carry loop of `roundString`, on the digits last first: each `9` becomes `0`
and the first other digit goes up by one. -/
def carryDigits : List Char → List Char
  | [] => []
  | c :: cs => if c ≠ '9' then Char.ofNat (c.toNat + 1) :: cs else '0' :: carryDigits cs

/-- `roundString(b, prec)`: the first `prec` digits of `b`, plus one at the last of
them when the next is at least `5`; the second value is `1` when the carry ran
out of the first digit and a `1` was put in front. -/
def roundString (b : List Char) (prec : ℕ) : List Char × ℕ :=
  if prec ≥ b.length then (appendZeroes b (prec - b.length), 0)
  else if allZeros (b.drop prec) then (b.take prec, 0)
  else if b.getD prec '0' < '5' then (b.take prec, 0)
  else
    match (b.take prec).reverse with
    | [] => ([], 0)
    | last :: before =>
      if last ≠ '9' then ((Char.ofNat (last.toNat + 1) :: before).reverse, 0)
      else
        let carried := ('0' :: carryDigits before).reverse
        if carried.head? = some '0' then ('1' :: carried, 1) else (carried, 0)

/-- `formatMantissa`: the digits of the magnitude of the mantissa. -/
def formatMantissa (d : Decimal) : List Char :=
  formatUint d.value.natAbs

/-- `smallsString`: the two digits of every number below `100`. -/
def smallsString : List Char :=
  ("00010203040506070809" ++ "10111213141516171819" ++ "20212223242526272829" ++
    "30313233343536373839" ++ "40414243444546474849" ++ "50515253545556575859" ++
    "60616263646566676869" ++ "70717273747576777879" ++ "80818283848586878889" ++
    "90919293949596979899").toList

/-- The loop of `formatMantissa` on a one-word mantissa `us`: while `us >= 100`
its last two digits are read from `smallsString` and written before those
already written, then its one or two leading digits. -/
def formatWordLoop (us : ℕ) (buf : List Char) : List Char :=
  if us ≥ 100 then
    let is := us % 100 * 2
    formatWordLoop (us / 100) (smallsString.getD is '0' :: smallsString.getD (is + 1) '0' :: buf)
  else
    let is := us * 2
    let buf := smallsString.getD (is + 1) '0' :: buf
    if us ≥ 10 then smallsString.getD is '0' :: buf else buf
termination_by us
decreasing_by omega

/-- `formatMantissa` by the 64-bit words of the mantissa: `0` for no word, the
digit pairs of a one-word mantissa, and `MarshalText` of the magnitude for more. -/
def formatMantissaWords (d : Decimal) : List Char :=
  if d.value = 0 then ['0']
  else if d.value.natAbs < 2 ^ 64 then formatWordLoop d.value.natAbs []
  else formatUint d.value.natAbs

/-- The rounding part of `formatFast` with `round` set: the digits to print, the
exponent of the last of them, the sign, and `prec`, the count of significant
digits the rounding kept (negated when none is kept). -/
def roundDigits (d : Decimal) (prec : ℕ) : List Char × ℤ × ℤ × ℤ :=
  let integral := formatMantissa d
  let iprec := integral.length
  let adj := d.exp + iprec
  let prec : ℤ := if d.exp > 0 then prec + adj else if adj > -(prec : ℤ) then prec + adj else -prec
  if prec > 0 then
    let (rounded, ovf) := roundString integral prec.toNat
    (rounded, d.exp + iprec - rounded.length + ovf, d.value.sign, prec)
  else if prec < 0 then
    -- only the first digit, one place past the cut, can round up
    if adj = prec ∧ integral.headD '0' ≥ '5' then (['1'], prec, d.value.sign, -prec)
    else ([], prec, 0, -prec)
  else (['0'], 0, 0, prec)

/-- `formatFast(prec, round, trim)`. -/
def formatFast (d : Decimal) (prec : ℕ) (round trim : Bool) : List Char :=
  let (integral, exp, sign, prec) :=
    if round then roundDigits d prec
    else (formatMantissa d, d.exp, d.value.sign, ((formatMantissa d).length : ℤ))
  let alloc : List Char := if sign < 0 then ['-'] else []
  if exp > 0 then
    alloc ++ integral ++ (if sign ≠ 0 then List.replicate exp.toNat '0' else [])
  else
    let radix := integral.length + exp
    let (buf, trim) :=
      if radix = 0 then (alloc ++ ['0', '.'] ++ integral, trim)
      else if radix > 0 then
        if radix < integral.length then
          (alloc ++ integral.take radix.toNat ++ '.' :: integral.drop radix.toNat, trim)
        else (alloc ++ integral, false)
      else
        let last := min (integral.length : ℤ) prec
        (alloc ++ ['0', '.'] ++ List.replicate (-radix).toNat '0' ++ integral.take last.toNat, trim)
    if trim then trimTrailingZeroes buf else buf

/-- `formatSlow(trim)`: the reference printer, from the text of the value
(`big.Int.MarshalText`). -/
def formatSlow (d : Decimal) (trim : Bool) : List Char :=
  let integral := formatInt d.value
  if d.exp ≥ 0 then
    if d.value.sign ≠ 0 then appendZeroes integral d.exp.toNat else integral
  else
    -- `if integral[0] == '-'`: the sign moves to the buffer
    let negative := integral.head? = some '-'
    let buf : List Char := if negative then ['-'] else []
    let integral := if negative then integral.tail else integral
    let buf :=
      if (integral.length : ℤ) > -d.exp then
        buf ++ integral.take (integral.length + d.exp).toNat ++ '.' :: integral.drop (integral.length + d.exp).toNat
      else appendZeroes (buf ++ ['0', '.']) (-d.exp - integral.length).toNat ++ integral
    if trim then trimTrailingZeroes buf else buf

/-! ## The printers of `decimal.go` -/

/-- `Round(places)`: the decimal truncated to one more digit, five added away from
zero, and divided by ten with `big.Int.DivMod`, which is Euclidean, then moved
back toward zero for a negative quotient with a remainder. The exponents
`-places`, `-places - 1` and `ret.exp++` are `int32` arithmetic. -/
def round (d : Decimal) (places : ℤ) : Decimal :=
  if d.exp = wrapInt32 (-places) then d
  else
    let ret := d.rescale (wrapInt32 (-places - 1))
    let value := if ret.value.sign < 0 then ret.value - 5 else ret.value + 5
    let quotient := value / 10
    let value := if quotient.sign < 0 ∧ value % 10 ≠ 0 then quotient + 1 else quotient
    ⟨value, wrapInt32 (ret.exp + 1)⟩

/-- `StringFixed(places)`. -/
def stringFixed (d : Decimal) (places : ℤ) : List Char :=
  (d.round places).formatFast 0 false false

/-- `FormatMySQL(frac)`. -/
def formatMySQL (d : Decimal) (frac : ℕ) : List Char :=
  d.formatFast frac true false

/-! ## Rounding at the first digit -/

/-- Below one, no digit is significant at `0` fractional digits. -/
theorem roundDigits_zero_of_lt_one {d : Decimal} (negative : d.exp < 0)
    (below : d.value.natAbs < 10 ^ (-d.exp).toNat) : roundDigits d 0 = (['0'], 0, 0, 0) := by
  have length : ((formatMantissa d).length : ℤ) ≤ -d.exp := by
    have := (Nat.length_toDigits_le_iff (by decide) (by omega : 0 < (-d.exp).toNat)).mpr below
    rw [formatMantissa, formatUint]
    omega
  have notPositive : ¬ (0 < d.exp) := by omega
  have noDigit : ¬ (0 < d.exp + ((formatMantissa d).length : ℤ)) := by omega
  unfold roundDigits
  simp [notPositive, noDigit]

/-- `FormatMySQL(0)` prints `0` for every number below one. -/
theorem formatMySQL_zero_of_lt_one {d : Decimal} (negative : d.exp < 0)
    (below : d.value.natAbs < 10 ^ (-d.exp).toNat) : d.formatMySQL 0 = ['0'] := by
  rw [formatMySQL, formatFast, if_pos rfl, roundDigits_zero_of_lt_one negative below]
  rfl

/-- Truncated to one fractional digit, a number of magnitude in `[1/2, 1)` is a
digit from `5` to `9`, with the number's sign. -/
theorem rescale_digit_of_half {d : Decimal} (negative : d.exp < 0)
    (half : 5 * 10 ^ (-d.exp - 1).toNat ≤ d.value.natAbs) (below : d.value.natAbs < 10 ^ (-d.exp).toNat) :
    let w := (d.rescale (-1)).value
    (0 < d.value → 5 ≤ w ∧ w ≤ 9) ∧ (d.value < 0 → -9 ≤ w ∧ w ≤ -5) := by
  intro w
  have tenPow : 0 < 10 ^ (-d.exp - 1).toNat := Nat.pow_pos (by decide)
  have truncated : w = d.value.tdiv (10 ^ (-d.exp - 1).toNat) := by
    unfold w rescale
    split
    · -- below `math.MinInt32` the gap is exact, and above it less than `2 ^ 31`
      have gap : exponentGap (-1) d.exp = (-d.exp - 1).toNat := by
        rw [exponentGap_of_le (by omega), show -1 - d.exp = -d.exp - 1 by omega]
        by_cases fits : Go.InInt32 d.exp
        · exact .inl (by have := fits.1; omega)
        · exact .inr fun both => fits both.2
      rw [gap]
    · rw [if_neg (by omega), show (-d.exp - 1).toNat = 0 by omega, pow_zero, Int.tdiv_one]
  have ten : 10 ^ (-d.exp).toNat = 10 * 10 ^ (-d.exp - 1).toNat := by
    rw [← pow_succ']
    congr 1
    omega
  have magnitude : w.natAbs = d.value.natAbs / 10 ^ (-d.exp - 1).toNat := by
    rw [truncated, Int.natAbs_tdiv, Int.natAbs_pow]
    rfl
  have five : 5 ≤ w.natAbs := by
    rw [magnitude]
    exact (Nat.le_div_iff_mul_le tenPow).mpr half
  have nine : w.natAbs < 10 := by
    rw [magnitude]
    exact (Nat.div_lt_iff_lt_mul tenPow).mpr (by rw [ten] at below; linarith)
  have notSmall : ¬ d.value.natAbs < ((10 : ℤ) ^ (-d.exp - 1).toNat).natAbs := by
    rw [Int.natAbs_pow]
    show ¬ _ < 10 ^ _
    omega
  have sign : w.sign = d.value.sign := by
    rw [truncated, Int.sign_tdiv, if_neg notSmall,
      Int.sign_eq_one_of_pos (pow_pos (by norm_num : (0 : ℤ) < 10) (-d.exp - 1).toNat), Int.mul_one]
  constructor
  · intro positive
    have := Int.sign_eq_one_of_pos positive
    have : 0 < w := Int.sign_eq_one_iff_pos.mp (by omega)
    omega
  · intro negative
    have := Int.sign_eq_neg_one_of_neg negative
    have : w < 0 := Int.sign_eq_neg_one_iff_neg.mp (by omega)
    omega

/-- `Round(0)` of a number of magnitude in `[1/2, 1)` is `1` with its sign. -/
theorem round_zero_of_half {d : Decimal} (negative : d.exp < 0)
    (half : 5 * 10 ^ (-d.exp - 1).toNat ≤ d.value.natAbs) (below : d.value.natAbs < 10 ^ (-d.exp).toNat) :
    d.round 0 = ⟨if d.value < 0 then -1 else 1, 0⟩ := by
  obtain ⟨up, down⟩ := rescale_digit_of_half negative half below
  have nonzero : d.value ≠ 0 := by
    have : 0 < 10 ^ (-d.exp - 1).toNat := Nat.pow_pos (by decide)
    omega
  -- at `0` places none of the `int32` exponents wraps
  have exps : wrapInt32 (-(0 : ℤ)) = 0 ∧ wrapInt32 (-(0 : ℤ) - 1) = -1 ∧ wrapInt32 (-1 + 1) = 0 := by decide
  unfold round
  rw [exps.1, if_neg (by omega)]
  dsimp only
  rw [exps.2.1, rescale_exp, exps.2.2]
  generalize (d.rescale (-1)).value = w at up down ⊢
  rcases lt_or_gt_of_ne nonzero with negativeValue | positiveValue
  · -- `-9 … -5`: minus five, divided by ten and moved toward zero, is `-1`
    obtain ⟨low, high⟩ := down negativeValue
    have quotient : ((w - 5) / 10).sign = -1 := Int.sign_eq_neg_one_of_neg (by omega)
    rw [Int.sign_eq_neg_one_of_neg (by omega : w < 0), if_pos (show (-1 : ℤ) < 0 by decide), quotient,
      if_pos negativeValue]
    congr 1
    split_ifs <;> omega
  · -- `5 … 9`: plus five, divided by ten, is `1`
    obtain ⟨low, high⟩ := up positiveValue
    have quotient : ((w + 5) / 10).sign = 1 := Int.sign_eq_one_of_pos (by omega)
    rw [Int.sign_eq_one_of_pos (by omega : 0 < w), if_neg (show ¬ (1 : ℤ) < 0 by decide), quotient,
      if_neg (not_lt.mpr positiveValue.le)]
    congr 1
    split_ifs <;> omega

/-- A number of magnitude in `[1/2, 1)` printed with no fractional digit:
`StringFixed` rounds it to `1` or `-1`, and `FormatMySQL` prints `0`. -/
theorem formatMySQL_rounds_half_to_zero {d : Decimal} (negative : d.exp < 0)
    (half : 5 * 10 ^ (-d.exp - 1).toNat ≤ d.value.natAbs) (below : d.value.natAbs < 10 ^ (-d.exp).toNat) :
    d.formatMySQL 0 = ['0'] ∧ d.stringFixed 0 = if d.value < 0 then ['-', '1'] else ['1'] := by
  refine ⟨formatMySQL_zero_of_lt_one negative below, ?_⟩
  rw [stringFixed, round_zero_of_half negative half below]
  split <;> rfl

theorem formatMySQL_rounds_half_to_zero_half :
    (⟨5, -1⟩ : Decimal).formatMySQL 0 = ['0'] ∧ (⟨5, -1⟩ : Decimal).stringFixed 0 = ['1'] :=
  formatMySQL_rounds_half_to_zero (by decide) (by decide) (by decide)

/-! ## The text of `formatFast` without rounding -/

/-- At an exponent of at least zero: the sign, the digits of the magnitude, and
as many zeros as the exponent unless the value is zero. -/
theorem formatFast_of_nonneg {d : Decimal} (nonneg : 0 ≤ d.exp) (trim : Bool) :
    d.formatFast 0 false trim = (if d.value < 0 then ['-'] else []) ++ formatUint d.value.natAbs ++
      (if d.value ≠ 0 then List.replicate d.exp.toNat '0' else []) := by
  have digits : 1 ≤ (formatUint d.value.natAbs).length := List.length_pos_iff.mpr (formatUint_ne_nil _)
  rcases nonneg.lt_or_eq with positive | zero
  · simp only [formatFast, formatMantissa, Bool.false_eq_true, if_false, Int.sign_neg_iff, if_pos positive,
      ne_eq, Int.sign_eq_zero_iff_zero]
  · -- the point would fall after the last digit, so none is written
    have inside : ((formatUint d.value.natAbs).length : ℤ) > 0 := by omega
    simp only [formatFast, formatMantissa, Bool.false_eq_true, if_false, Int.sign_neg_iff, ← zero, lt_irrefl,
      Int.add_zero, if_neg inside.ne', if_pos inside, Int.toNat_zero, List.replicate_zero, ite_self,
      List.append_nil]

/-- Below a zero exponent with digits before the point: the sign, those digits,
the point, and the rest. -/
theorem formatFast_of_inside {d : Decimal} (negative : d.exp < 0)
    (inside : 0 < ((formatUint d.value.natAbs).length : ℤ) + d.exp) (trim : Bool) :
    d.formatFast 0 false trim =
      let buf := (if d.value < 0 then ['-'] else []) ++
        (formatUint d.value.natAbs).take ((formatUint d.value.natAbs).length + d.exp).toNat ++
          '.' :: (formatUint d.value.natAbs).drop ((formatUint d.value.natAbs).length + d.exp).toNat
      if trim then trimTrailingZeroes buf else buf := by
  simp only [formatFast, formatMantissa, Bool.false_eq_true, if_false, Int.sign_neg_iff,
    if_neg (not_lt.mpr negative.le), if_neg inside.ne', if_pos inside,
    if_pos (show ((formatUint d.value.natAbs).length : ℤ) + d.exp < (formatUint d.value.natAbs).length by omega)]

/-- Below a zero exponent with no digit before the point: the sign, `0.`, the
zeros between the point and the digits, and the digits. -/
theorem formatFast_of_before {d : Decimal} (negative : d.exp < 0)
    (before : ((formatUint d.value.natAbs).length : ℤ) + d.exp ≤ 0) (trim : Bool) :
    d.formatFast 0 false trim =
      let buf := (if d.value < 0 then ['-'] else []) ++ ['0', '.'] ++
        List.replicate (-((formatUint d.value.natAbs).length + d.exp)).toNat '0' ++ formatUint d.value.natAbs
      if trim then trimTrailingZeroes buf else buf := by
  simp only [formatFast, formatMantissa, Bool.false_eq_true, if_false, Int.sign_neg_iff,
    if_neg (not_lt.mpr negative.le)]
  rcases before.lt_or_eq with before | atPoint
  · -- `0.000ddd`
    simp only [if_neg before.ne, if_neg (not_lt.mpr before.le), min_self, Int.toNat_natCast, List.take_length]
  · -- `0.ddd`
    simp only [atPoint, if_true, neg_zero, Int.toNat_zero, List.replicate_zero, List.append_nil]

/-! ## The reference printer -/

/-- The text of an integer is its sign, then the digits of its magnitude. -/
theorem formatInt_eq_sign_append (v : ℤ) :
    formatInt v = (if v < 0 then ['-'] else []) ++ formatUint v.natAbs := by
  unfold formatInt
  split_ifs with negative
  · rfl
  · have magnitude : v.toNat = v.natAbs := by omega
    rw [magnitude, List.nil_append]

theorem head?_formatInt_eq_minus_iff (v : ℤ) : (formatInt v).head? = some '-' ↔ v < 0 := by
  unfold formatInt
  split_ifs with negative
  · simp [negative]
  · simp only [negative, iff_false]
    intro head
    exact absurd (isDigit_of_mem_formatUint (List.mem_of_mem_head? head)) (by decide)

/-- Below a zero exponent, the reference printer moves the sign to the buffer
and places the point in the digits of the magnitude. -/
theorem formatSlow_of_neg {v exp : ℤ} (negative : exp < 0) (trim : Bool) :
    (⟨v, exp⟩ : Decimal).formatSlow trim =
      let buf :=
        if ((formatUint v.natAbs).length : ℤ) > -exp then
          (if v < 0 then ['-'] else []) ++ (formatUint v.natAbs).take ((formatUint v.natAbs).length + exp).toNat ++
            '.' :: (formatUint v.natAbs).drop ((formatUint v.natAbs).length + exp).toNat
        else appendZeroes ((if v < 0 then ['-'] else []) ++ ['0', '.']) (-exp - (formatUint v.natAbs).length).toNat ++
          formatUint v.natAbs
      if trim then trimTrailingZeroes buf else buf := by
  have stripped : (if (formatInt v).head? = some '-' then (formatInt v).tail else formatInt v) =
      formatUint v.natAbs := by
    simp only [head?_formatInt_eq_minus_iff]
    rw [formatInt_eq_sign_append]
    split_ifs <;> rfl
  have sign : (if (formatInt v).head? = some '-' then ['-'] else []) = if v < 0 then ['-'] else [] := by
    simp only [head?_formatInt_eq_minus_iff]
  simp only [formatSlow, if_neg (not_le.mpr negative), stripped, sign]

/-- Entry `2k` of the table is the tens digit of `k`, entry `2k + 1` its units. -/
theorem smallsString_digits : ∀ k < 100, smallsString.getD (k * 2) '0' = Nat.digitChar (k / 10) ∧
    smallsString.getD (k * 2 + 1) '0' = Nat.digitChar (k % 10) := by
  decide +kernel

/-- The digit-pair loop writes the decimal digits of `us` before `buf`. -/
theorem formatWordLoop_eq (us : ℕ) (buf : List Char) : formatWordLoop us buf = formatUint us ++ buf := by
  induction us using Nat.strong_induction_on generalizing buf with
  | _ us ih =>
    rw [formatWordLoop]
    obtain ⟨tens, units⟩ := smallsString_digits (us % 100) (Nat.mod_lt _ (by decide))
    by_cases large : us ≥ 100
    · -- two digits come off the end, as two steps of `Nat.toDigits`
      have pair : formatUint us = formatUint (us / 100) ++ [Nat.digitChar (us % 100 / 10), Nat.digitChar (us % 10)] := by
        rw [formatUint, Nat.toDigits_of_base_le (by decide) (by omega),
          Nat.toDigits_of_base_le (by decide) (by omega), Nat.div_div_eq_div_mul,
          show us / 10 % 10 = us % 100 / 10 by omega, List.append_assoc]
        rfl
      rw [if_pos large, ih (us / 100) (by omega), tens, units, pair, Nat.mod_mod_of_dvd us (by decide : 10 ∣ 100),
        List.append_assoc]
      rfl
    · have small : us % 100 = us := Nat.mod_eq_of_lt (not_le.mp large)
      rw [small] at tens units
      rw [if_neg large]
      by_cases twoDigits : us ≥ 10
      · have split : formatUint us = [Nat.digitChar (us / 10), Nat.digitChar (us % 10)] := by
          rw [formatUint, Nat.toDigits_of_base_le (by decide) twoDigits, Nat.toDigits_of_lt_base (by omega)]
          rfl
        rw [if_pos twoDigits, tens, units, split]
        rfl
      · rw [if_neg twoDigits, units, formatUint, Nat.toDigits_of_lt_base (by omega), Nat.mod_eq_of_lt (by omega)]
        rfl

/-- Both ways `formatMantissa` prints the mantissa give the digits of its magnitude. -/
theorem formatMantissaWords_eq_formatMantissa (d : Decimal) : d.formatMantissaWords = d.formatMantissa := by
  unfold formatMantissaWords formatMantissa
  split_ifs with zero small
  · rw [zero]
    rfl
  · rw [formatWordLoop_eq, List.append_nil]
  · rfl

/-- Without rounding, `formatFast` prints what the reference printer prints: the
sign, then the digits of the magnitude with the point placed by the exponent. -/
theorem formatFast_agrees_with_formatSlow (d : Decimal) (trim : Bool) :
    d.formatFast 0 false trim = d.formatSlow trim := by
  rcases lt_or_ge d.exp 0 with negative | nonneg
  · rw [show d = ⟨d.value, d.exp⟩ from rfl, formatSlow_of_neg negative]
    rcases lt_or_ge 0 ((formatUint d.value.natAbs).length + d.exp) with inside | before
    · -- `dd.ddd`
      rw [formatFast_of_inside negative inside]
      simp only [if_pos (show ((formatUint d.value.natAbs).length : ℤ) > -d.exp by omega)]
    · -- `0.ddd` and `0.000ddd`: zeros between the point and the digits
      have zeros : (-d.exp - (formatUint d.value.natAbs).length).toNat =
          (-((formatUint d.value.natAbs).length + d.exp)).toNat := by omega
      rw [formatFast_of_before negative before]
      simp only [if_neg (show ¬ ((formatUint d.value.natAbs).length : ℤ) > -d.exp by omega), appendZeroes,
        zeros, List.append_assoc]
  · -- the digits, then as many zeros as the exponent unless the value is zero
    rw [formatFast_of_nonneg nonneg]
    simp only [formatSlow, if_pos nonneg, formatInt_eq_sign_append, appendZeroes, ne_eq,
      Int.sign_eq_zero_iff_zero]
    by_cases zero : d.value = 0
    · rw [if_neg (not_not.mpr zero), if_neg (not_not.mpr zero), List.append_nil]
    · rw [if_pos zero, if_pos zero]

end Vitess.Decimal
