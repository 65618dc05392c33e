import Vitess.Evalengine.Types
import Vitess.Go.Float64
import Vitess.Go.Int64

/-!
# Hash keys and comparison of numeric values

`NullsafeHashcode128` (`go/vt/vtgate/evalengine/api_hash.go`) and
`compareNumeric` (`compare.go`), on the values of numeric columns. A value is
taken as the eval `valueToEval` makes of it: an `int64`, a `uint64`, a `float64`
(the rational it stands for) or a decimal (its exact value); `ToInt64`,
`ToUint64` and `ToFloat64` of the value's text read the same number, the last
rounded as `strconv.ParseFloat` rounds.

The hash writes a two-byte prefix and the value in the coerced type. Where a
coercion would lose precision, the signed and unsigned targets refuse a float
that is not an integer (`ErrHashCoercionIsNotExact`); the float target rounds
integers and decimals to 53 bits without such a check. The hash of a decimal
(`decimal.Hash`), `decimal.NewFromFloat` and the slow path
`nullsafeHashcode128Default` are parameters: no result below reads them.
-/

namespace Vitess.Evalengine

open Vitess.Sqltypes Vitess.Go

/-- A numeric eval: `evalInt64`, `evalUint64`, `evalFloat`, `evalDecimal`. -/
inductive NumericEval where
  | int64 (i : ℤ)
  | uint64 (u : ℕ)
  | float (f : ℚ)
  | decimal (d : ℚ)
  deriving DecidableEq, Repr

/-- `-1`, `0` or `1` as Go's `switch { case a == b: 0; case a < b: -1 }; 1`. -/
def compareOrdered {α : Type*} [LinearOrder α] (a b : α) : ℤ :=
  if a = b then 0 else if a < b then -1 else 1

/-- Comparing the other way round gives the opposite result. -/
theorem compareOrdered_swap {α : Type*} [LinearOrder α] (a b : α) :
    compareOrdered b a = -compareOrdered a b := by
  unfold compareOrdered
  rcases lt_trichotomy a b with lt | same | gt
  · simp [lt.ne, lt.ne', not_lt_of_gt lt, lt]
  · simp [same]
  · simp [gt.ne, gt.ne', not_lt_of_gt gt, gt]

/-- `compareNumeric`: the two values brought to one type the way MySQL does,
then compared. A decimal's `Float64()` fails only on an infinity, which no
decimal of MySQL's range reaches. -/
def compareNumeric : NumericEval → NumericEval → ℤ
  | .int64 l, .int64 r => compareOrdered l r
  | .int64 l, .uint64 r => if l < 0 then -1 else compareOrdered l.toNat r
  | .int64 l, .float r => compareOrdered (roundToBinary53 l) r
  | .int64 l, .decimal r => compareOrdered (l : ℚ) r
  | .uint64 l, .int64 r => if r < 0 then 1 else compareOrdered l r.toNat
  | .uint64 l, .uint64 r => compareOrdered l r
  | .uint64 l, .float r => compareOrdered (roundToBinary53 l) r
  | .uint64 l, .decimal r => compareOrdered (l : ℚ) r
  | .float l, .int64 r => compareOrdered l (roundToBinary53 r)
  | .float l, .uint64 r => if l < 0 then -1 else compareOrdered l (roundToBinary53 r)
  | .float l, .float r => compareOrdered l r
  | .float l, .decimal r => compareOrdered l (roundToBinary53 r)
  | .decimal l, .int64 r => compareOrdered l r
  | .decimal l, .uint64 r => compareOrdered l r
  | .decimal l, .float r => compareOrdered (roundToBinary53 l) r
  | .decimal l, .decimal r => compareOrdered l r

/-- `hashPrefixNil`, `hashPrefixFloat`, `hashPrefixIntegralNegative`,
`hashPrefixIntegralPositive` and `hashPrefixDecimal`. -/
def hashPrefixNil : ℕ := 0x0000
def hashPrefixFloat : ℕ := 0xAAAA
def hashPrefixIntegralNegative : ℕ := 0xBBB1
def hashPrefixIntegralPositive : ℕ := 0xBBB0
def hashPrefixDecimal : ℕ := 0xDDDD

/-- `Write16`: two little-endian bytes. -/
def write16 (u : ℕ) : List UInt8 :=
  [UInt8.ofNat u, UInt8.ofNat (u / 256)]

/-- `Write64`: eight little-endian bytes. -/
def write64 (u : ℕ) : List UInt8 :=
  (List.range 8).map fun i => UInt8.ofNat (u / 256 ^ i)

/-- The key of an integral value: the sign prefix and the 64-bit word. -/
def integralKey (neg : Bool) (u : ℕ) : List UInt8 :=
  write16 (if neg then hashPrefixIntegralNegative else hashPrefixIntegralPositive) ++ write64 u

/-- The `float64` the float target hashes: `float64(ival)`, `float64(uval)`, or
`ToFloat64` of the value. -/
def toFloat64 : NumericEval → ℚ
  | .int64 i => roundToBinary53 i
  | .uint64 u => roundToBinary53 u
  | .float f => f
  | .decimal d => roundToBinary53 d

/-- `ErrHashCoercionIsNotExact`, or an error of the slow path. -/
inductive HashError where
  | notExact
  | other (message : String)
  deriving DecidableEq, Repr

/-- `NullsafeHashcode128` of a non-NULL numeric value coerced to `coerceTo`: the
bytes written to the hasher. -/
def nullsafeHashcode128 (decimalHash : ℚ → List UInt8) (newFromFloat : ℚ → ℚ)
    (hashDefault : NumericEval → QueryType → Except HashError (List UInt8))
    (v : NumericEval) (coerceTo : QueryType) : Except HashError (List UInt8) :=
  if IsNull coerceTo then .ok (write16 hashPrefixNil)
  else if IsFloat coerceTo then
    .ok (write16 hashPrefixFloat ++ write64 (float64bits (toFloat64 v)))
  else if IsSigned coerceTo then
    match v with
    | .int64 i => .ok (integralKey (i < 0) (i % 2 ^ 64).toNat)
    | .uint64 u => .ok (integralKey false u)
    | .float f =>
      if f ≠ ⌊f⌋ then .error .notExact
      else .ok (integralKey (⌊f⌋ < 0) (⌊f⌋ % 2 ^ 64).toNat)
    | .decimal _ => hashDefault v coerceTo
  else if IsUnsigned coerceTo then
    match v with
    | .int64 i => .ok (integralKey (i < 0) (i % 2 ^ 64).toNat)
    | .uint64 u => .ok (integralKey false u)
    | .float f =>
      if f ≠ ⌊f⌋ ∨ f < 0 then .error .notExact
      else .ok (integralKey false ⌊f⌋.toNat)
    | .decimal _ => hashDefault v coerceTo
  else if IsDecimal coerceTo then
    match v with
    | .int64 i => .ok (write16 hashPrefixDecimal ++ decimalHash i)
    | .uint64 u => .ok (write16 hashPrefixDecimal ++ decimalHash u)
    | .decimal d => .ok (write16 hashPrefixDecimal ++ decimalHash d)
    | .float f => .ok (write16 hashPrefixDecimal ++ decimalHash (newFromFloat f))
  else hashDefault v coerceTo

section Targets

variable (decimalHash : ℚ → List UInt8) (newFromFloat : ℚ → ℚ)
  (hashDefault : NumericEval → QueryType → Except HashError (List UInt8))

/-- Coerced to a float type, every numeric value writes the float prefix and the
bits of its `float64`. -/
theorem nullsafeHashcode128_of_isFloat {coerceTo : QueryType} (float : IsFloat coerceTo = true)
    (v : NumericEval) :
    nullsafeHashcode128 decimalHash newFromFloat hashDefault v coerceTo =
      .ok (write16 hashPrefixFloat ++ write64 (float64bits (toFloat64 v))) := by
  cases coerceTo <;> first | rfl | exact absurd float (by decide)

end Targets

/-- A BIGINT column joined with a DECIMAL column: `CoerceTypes` picks `FLOAT64`,
and the BIGINT `9007199254740993` (`2^53 + 1`) and the DECIMAL
`9007199254740992` round to the same `float64`, so they write the same bytes to
the hasher, while `compareNumeric` tells them apart. -/
theorem bigint_decimal_keys_collide (mergeCollations : EvalType → EvalType → Except CoerceError ℕ)
    (decimalHash : ℚ → List UInt8) (newFromFloat : ℚ → ℚ)
    (hashDefault : NumericEval → QueryType → Except HashError (List UInt8)) :
    coerceTypes mergeCollations ⟨.INT64, 63, true, true, 20, 0⟩ ⟨.DECIMAL, 63, true, true, 16, 0⟩ =
        .ok ⟨.FLOAT64, 63, true, true, 0, 0⟩ ∧
      nullsafeHashcode128 decimalHash newFromFloat hashDefault (.int64 9007199254740993) .FLOAT64 =
        nullsafeHashcode128 decimalHash newFromFloat hashDefault (.decimal 9007199254740992)
          .FLOAT64 ∧
      compareNumeric (.int64 9007199254740993) (.decimal 9007199254740992) = 1 := by
  have sameFloat : toFloat64 (.int64 9007199254740993) = toFloat64 (.decimal 9007199254740992) := by
    decide +kernel
  refine ⟨rfl, ?_, by decide⟩
  rw [nullsafeHashcode128_of_isFloat decimalHash newFromFloat hashDefault rfl,
    nullsafeHashcode128_of_isFloat decimalHash newFromFloat hashDefault rfl, sameFloat]

end Vitess.Evalengine
