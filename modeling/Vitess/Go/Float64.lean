import Mathlib.Algebra.Order.Round
import Mathlib.Data.Rat.Floor

/-!
# Go's `float64`

A `float64` is kept as the rational it stands for. Go's conversions into it
(`float64(i)` of an integer, `strconv.ParseFloat` of a decimal text) round the
exact value to the nearest number with 53 significant bits, ties to the even
one (`roundToBinary53`). The values this project converts lie far inside the
normal range of the format, where no overflow or subnormal rounding occurs.
`float64bits` is `math.Float64bits` on such values: sign, biased exponent and the
52 stored bits of the significand. The result of `+`, `-`, `*` and `/` is the
exact result so rounded; `isInf` tells when it overflows to an infinity.
-/

namespace Vitess.Go

/-- `⌊log₂ a⌋` of a positive rational. -/
def floorLog2 (a : ℚ) : ℤ :=
  let k : ℤ := (Nat.log2 a.num.natAbs : ℤ) - Nat.log2 a.den
  if (2 : ℚ) ^ k ≤ a then k else k - 1

/-- The integer nearest to `x`, ties to the even one. -/
def roundHalfEven (x : ℚ) : ℤ :=
  let below := ⌊x⌋
  let fraction := x - below
  if fraction < 1 / 2 then below
  else if 1 / 2 < fraction then below + 1
  else if below % 2 = 0 then below else below + 1

/-- Round to 53 significant bits, ties to even. -/
def roundToBinary53 (q : ℚ) : ℚ :=
  if q = 0 then 0
  else
    let scale := floorLog2 |q| - 52
    let significand := roundHalfEven (|q| / 2 ^ scale)
    (if q < 0 then -1 else 1) * significand * 2 ^ scale

/-- `math.IsInf(f, 0)` of a rounded result: its magnitude reached `2^1024`, where
round to nearest goes to an infinity. -/
def isInf (f : ℚ) : Bool :=
  decide (2 ^ 1024 ≤ |f|)

/-- The integer part of `q`, rounded toward zero. -/
def truncate (q : ℚ) : ℤ :=
  if 0 ≤ q then ⌊q⌋ else ⌈q⌉

/-- `math.Mod(x, y)`: the remainder of the truncated quotient, which a
`float64` holds exactly. -/
def mod (x y : ℚ) : ℚ :=
  x - y * truncate (x / y)

/-- `math.Float64bits` of a normal `float64` value. -/
def float64bits (f : ℚ) : ℕ :=
  if f = 0 then 0
  else
    let exponent := floorLog2 |f|
    let significand := (|f| / 2 ^ (exponent - 52)).floor
    (if f < 0 then 2 ^ 63 else 0) + (exponent + 1023).toNat * 2 ^ 52 +
      (significand - 2 ^ 52).toNat

end Vitess.Go
