import Vitess.Mysql.Decimal
import Vitess.Evalengine.Aggregation
import Vitess.Evalengine.Hashcode

/-!
# Numeric evals and their arithmetic

The numeric values of `go/vt/vtgate/evalengine` (`evalInt64`, `evalUint64`,
`evalFloat`, `evalDecimal`), NULL being `none`, and the arithmetic of
`arithmetic.go` that both the interpreter and the VM call: the checked 64-bit
helpers `mathAdd_ii0` … `mathMod_ui0`, the decimal and float helpers, and the
interpreter's `addNumericWithError` … `modNumericWithError`, which dispatch on
the runtime types of their operands. They fail with an error of the arithmetic,
and the product of two decimals with a Go panic where `decimal.Mul` panics. `compareNumeric` of `compare.go` and
`negate` complete the operations of the expression fragment modelled here.

A float is the rational it stands for, and a float operation rounds its exact
result (`Vitess.Go.roundToBinary53`). The conversion of a float to a decimal,
`decimal.NewFromFloatMySQL`, is the parameter `newFromFloat`. Hex and bit
literals, whose evals carry a flag that `negate` reads, are not part of the
fragment.
-/

namespace Vitess.Evalengine

open Vitess.Go

/-- `evalDecimal`: a decimal and the number of fractional digits it prints with. -/
structure EvalDecimal where
  dec : Decimal
  length : ℤ
  deriving DecidableEq, Repr

/-- The numeric evals. -/
inductive Eval where
  | int64 (i : ℤ)
  | uint64 (u : ℕ)
  | float (f : ℚ)
  | decimal (d : EvalDecimal)
  deriving DecidableEq, Repr

/-- `SQLType` of each eval. -/
def Eval.sqlType : Eval → Sqltypes.QueryType
  | .int64 _ => .INT64
  | .uint64 _ => .UINT64
  | .float _ => .FLOAT64
  | .decimal _ => .DECIMAL

/-- `newEvalDecimal(dec, 0, 0)`: the precision is the decimal's own scale. -/
def newEvalDecimal (dec : Decimal) : EvalDecimal :=
  ⟨dec, -dec.exponent⟩

/-- `newEvalDecimal(dec, m, d)`, the decimal of a `DECIMAL(m, d)`: clamped to the
type when `m` is given, with `m - d` in `int32`. -/
def newEvalDecimalTyped (dec : Decimal) (m d : ℤ) : EvalDecimal :=
  if m = 0 ∧ d = 0 then ⟨dec, -dec.exponent⟩
  else if m = 0 then ⟨dec, d⟩
  else ⟨dec.clamp (wrapInt32 (m - d)) d, d⟩

/-- The errors of the arithmetic, by their messages. -/
inductive EvalError where
  /-- `dataOutOfRangeError` of two integers. -/
  | dataOutOfRange (e : DataOutOfRange)
  /-- `dataOutOfRangeError(v1, v2, "DOUBLE", "/")`. -/
  | doubleOutOfRange (left right : ℚ)
  /-- `dataOutOfRangeErrorDecimal(v1, v2, typ, "DIV")`. -/
  | decimalOutOfRangeIn (typ : String) (left right : Decimal)
  /-- `errDecimalOutOfRange`: "DECIMAL value is out of range". -/
  | decimalOutOfRange
  /-- "invalid arithmetic between: %s %s" -/
  | invalidArithmetic (left right : Eval)
  deriving DecidableEq, Repr

/-- How an evaluation fails: an error it returns, the VM's request to
re-evaluate with the interpreter (`errDeoptimize`), or a Go panic. -/
inductive Failure where
  | error (err : EvalError)
  | deoptimize
  | panic
  deriving DecidableEq, Repr

/-- An error of the arithmetic as a failure. -/
def liftError {α : Type} : Except EvalError α → Except Failure α
  | .ok a => .ok a
  | .error err => .error (.error err)

@[simp]
theorem liftError_ok {α : Type} (a : α) : liftError (.ok a : Except EvalError α) = .ok a := rfl

@[simp]
theorem liftError_map {α β : Type} (x : Except EvalError α) (f : α → β) :
    liftError (x.map f) = (liftError x).map f := by
  cases x <;> rfl

@[simp]
theorem liftError_ite {α : Type} (p : Prop) [Decidable p] (a b : Except EvalError α) :
    liftError (if p then a else b) = if p then liftError a else liftError b := by
  split <;> rfl

section Conversions

variable (newFromFloat : ℚ → Decimal)

/-- `toDecimal(0, 0)` of a numeric eval. -/
def Eval.toDecimal : Eval → EvalDecimal
  | .int64 i => newEvalDecimal (Decimal.newFromInt i)
  | .uint64 u => newEvalDecimal (Decimal.newFromUint u)
  | .float f => newEvalDecimal (newFromFloat f)
  | .decimal d => d

end Conversions

/-- `toFloat` of a numeric eval: the float, and whether it is finite. -/
def Eval.toFloat : Eval → ℚ × Bool
  | .int64 i => (roundToBinary53 i, true)
  | .uint64 u => (roundToBinary53 u, true)
  | .float f => (f, true)
  | .decimal d => d.dec.float64

/-- `negate` of a numeric eval: the negation of `math.MinInt64`, and of an
unsigned value beyond it, becomes a decimal. -/
def Eval.negate : Eval → Eval
  | .int64 i =>
    if i = -2 ^ 63 then .decimal ⟨(Decimal.newFromInt i).neg, 0⟩ else .int64 (-i)
  | .uint64 u =>
    if 2 ^ 63 + 1 ≤ u then .decimal ⟨(Decimal.newFromUint u).neg, 0⟩
    else .int64 (wrapInt64 (-toInt64 u))
  | .float f => .float (-f)
  | .decimal d => if d.dec.isZero then .decimal d else .decimal ⟨d.dec.neg, d.length⟩

/-! ## The checked 64-bit helpers -/

/-- `mathAdd_ii0`. -/
def mathAdd_ii0 (v1 v2 : ℤ) : Except EvalError ℤ :=
  let result := wrapInt64 (v1 + v2)
  if decide (v1 < result) != decide (0 < v2) then .error (.dataOutOfRange ⟨"BIGINT", v1, "+", v2⟩)
  else .ok result

/-- `mathAdd_ui0`. -/
def mathAdd_ui0 (v1 : ℕ) (v2 : ℤ) : Except EvalError ℕ :=
  let result := wrapUint64 (v1 + toUint64 v2)
  if v2 < 0 ∧ v1 < toUint64 (wrapInt64 (-v2)) ∨
      0 < v2 ∧ (result < v1 ∨ result < toUint64 v2) then
    .error (.dataOutOfRange ⟨"BIGINT UNSIGNED", v1, "+", v2⟩)
  else .ok result

/-- `mathAdd_uu0`. -/
def mathAdd_uu0 (v1 v2 : ℕ) : Except EvalError ℕ :=
  let result := wrapUint64 (v1 + v2)
  if result < v1 ∨ result < v2 then .error (.dataOutOfRange ⟨"BIGINT UNSIGNED", v1, "+", v2⟩)
  else .ok result

/-- `mathSub_ii0`. -/
def mathSub_ii0 (v1 v2 : ℤ) : Except EvalError ℤ :=
  let result := wrapInt64 (v1 - v2)
  if decide (result < v1) != decide (0 < v2) then .error (.dataOutOfRange ⟨"BIGINT", v1, "-", v2⟩)
  else .ok result

/-- `mathSub_uu0`. -/
def mathSub_uu0 (v1 v2 : ℕ) : Except EvalError ℕ :=
  if v1 < v2 then .error (.dataOutOfRange ⟨"BIGINT UNSIGNED", v1, "-", v2⟩)
  else .ok (v1 - v2)

/-- `mathSub_iu0`. -/
def mathSub_iu0 (v1 : ℤ) (v2 : ℕ) : Except EvalError ℕ :=
  if v1 < 0 then .error (.dataOutOfRange ⟨"BIGINT UNSIGNED", v1, "-", v2⟩)
  else mathSub_uu0 (toUint64 v1) v2

/-- `mathSub_ui0`: subtracting a negative number adds its magnitude. -/
def mathSub_ui0 (v1 : ℕ) (v2 : ℤ) : Except EvalError ℕ :=
  if 0 < v2 ∧ v1 < toUint64 v2 then .error (.dataOutOfRange ⟨"BIGINT UNSIGNED", v1, "-", v2⟩)
  else if v2 < 0 then mathAdd_uu0 v1 (toUint64 (wrapInt64 (-v2)))
  else mathSub_uu0 v1 (toUint64 v2)

/-- `mathMul_ii0`: the overflow test divides the wrapped product back. -/
def mathMul_ii0 (v1 v2 : ℤ) : Except EvalError ℤ :=
  let result := wrapInt64 (v1 * v2)
  if v1 ≠ 0 ∧ wrapInt64 (result.tdiv v1) ≠ v2 then
    .error (.dataOutOfRange ⟨"BIGINT", v1, "*", v2⟩)
  else .ok result

/-- `mathMul_uu0`. -/
def mathMul_uu0 (v1 v2 : ℕ) : Except EvalError ℕ :=
  if v1 = 0 ∨ v2 = 0 then .ok 0
  else
    let result := wrapUint64 (v1 * v2)
    if result < v2 ∨ result < v1 then .error (.dataOutOfRange ⟨"BIGINT UNSIGNED", v1, "*", v2⟩)
    else .ok result

/-- `mathMul_ui0`. -/
def mathMul_ui0 (v1 : ℕ) (v2 : ℤ) : Except EvalError ℕ :=
  if v1 = 0 ∨ v2 = 0 then .ok 0
  else if v2 < 0 then .error (.dataOutOfRange ⟨"BIGINT UNSIGNED", v1, "*", v2⟩)
  else mathMul_uu0 v1 (toUint64 v2)

/-- `mathIntDiv_iu0`. -/
def mathIntDiv_iu0 (v1 : ℤ) (v2 : ℕ) : Except EvalError ℕ :=
  if v1 < 0 then
    if 2 ^ 63 - 1 ≤ v2 then .ok 0
    else
      let result := v1.tdiv (toInt64 v2)
      if result < 0 then .error (.dataOutOfRange ⟨"BIGINT UNSIGNED", v1, "DIV", v2⟩)
      else .ok (toUint64 result)
  else .ok (toUint64 v1 / v2)

/-- `mathIntDiv_ui0`. -/
def mathIntDiv_ui0 (v1 : ℕ) (v2 : ℤ) : Except EvalError ℕ :=
  if v2 < 0 then
    if 2 ^ 63 - 1 ≤ v1 then .error (.dataOutOfRange ⟨"BIGINT UNSIGNED", v1, "DIV", v2⟩)
    else
      let result := (toInt64 v1).tdiv v2
      if result < 0 then .error (.dataOutOfRange ⟨"BIGINT UNSIGNED", v1, "DIV", v2⟩)
      else .ok (toUint64 result)
  else .ok (v1 / toUint64 v2)

/-- `mathMod_iu0`. -/
def mathMod_iu0 (v1 : ℤ) (v2 : ℕ) : ℤ :=
  if v1 = -2 ^ 63 ∧ v2 = 2 ^ 63 then 0
  else if 2 ^ 63 - 1 < v2 then v1
  else v1.tmod (toInt64 v2)

/-- `mathMod_ui0`. -/
def mathMod_ui0 (v1 : ℕ) (v2 : ℤ) : ℕ :=
  if v2 < 0 then v1 % toUint64 (wrapInt64 (-v2)) else v1 % toUint64 v2

/-- `mathIntDiv_ii`: NULL on a zero divisor. Go's `/` truncates toward zero and
wraps `math.MinInt64 / -1`. -/
def mathIntDiv_ii (v1 v2 : ℤ) : Except EvalError (Option Eval) :=
  if v2 = 0 then .ok none else .ok (some (.int64 (wrapInt64 (v1.tdiv v2))))

/-- `mathIntDiv_uu`. -/
def mathIntDiv_uu (v1 v2 : ℕ) : Except EvalError (Option Eval) :=
  if v2 = 0 then .ok none else .ok (some (.uint64 (v1 / v2)))

/-- `mathMod_ii`: Go's `%` is the remainder of the truncated division. -/
def mathMod_ii (v1 v2 : ℤ) : Except EvalError (Option Eval) :=
  if v2 = 0 then .ok none else .ok (some (.int64 (v1.tmod v2)))

/-- `mathMod_uu`. -/
def mathMod_uu (v1 v2 : ℕ) : Except EvalError (Option Eval) :=
  if v2 = 0 then .ok none else .ok (some (.uint64 (v1 % v2)))

/-! ## Decimal and float helpers -/

/-- `mathAdd_dd`, and the fields `mathAdd_dd0` writes in place. -/
def mathAdd_dd (v1 v2 : EvalDecimal) : EvalDecimal :=
  ⟨v1.dec.add v2.dec, max v1.length v2.length⟩

/-- `mathSub_dd`, and the fields `mathSub_dd0` writes in place. -/
def mathSub_dd (v1 v2 : EvalDecimal) : EvalDecimal :=
  ⟨v1.dec.sub v2.dec, max v1.length v2.length⟩

/-- `mathMul_dd`, and the fields `mathMul_dd0` writes in place; `none` where
`decimal.Mul` panics. -/
def mathMul_dd (v1 v2 : EvalDecimal) : Option EvalDecimal :=
  (v1.dec.mul v2.dec).map fun dec => ⟨dec, v1.length + v2.length⟩

/-- `divPrecisionIncrement`. -/
def divPrecisionIncrement : ℤ := 4

/-- `mathDiv_dd`, and the fields `mathDiv_dd0` writes in place: NULL on a zero
divisor. -/
def mathDiv_dd (v1 v2 : EvalDecimal) (incrPrecision : ℤ) : Option EvalDecimal :=
  if v2.dec.isZero then none
  else some ⟨v1.dec.div v2.dec incrPrecision, v1.length + incrPrecision⟩

/-- `mathMod_dd0`: the remainder of the integer quotient, at the larger
precision. -/
def mathMod_dd0 (v1 v2 : EvalDecimal) : EvalDecimal :=
  ⟨(v1.dec.quoRem v2.dec 0).2, max v1.length v2.length⟩

/-- `mathMod_dd`: NULL on a zero divisor. -/
def mathMod_dd (v1 v2 : EvalDecimal) : Option EvalDecimal :=
  if v2.dec.isZero then none else some (mathMod_dd0 v1 v2)

/-- `mathIntDiv_di0`: the integer quotient as an `int64`. -/
def mathIntDiv_di0 (v1 v2 : EvalDecimal) : Except EvalError ℤ :=
  match (v1.dec.quoRem v2.dec 0).1.int64 with
  | some result => .ok result
  | none => .error (.decimalOutOfRangeIn "BIGINT" v1.dec v2.dec)

/-- `mathIntDiv_du0`: the integer quotient as a `uint64`. -/
def mathIntDiv_du0 (v1 v2 : EvalDecimal) : Except EvalError ℕ :=
  match (v1.dec.quoRem v2.dec 0).1.uint64 with
  | some result => .ok result
  | none => .error (.decimalOutOfRangeIn "BIGINT UNSIGNED" v1.dec v2.dec)

/-- `mathDiv_ff0`: the rounded quotient, an error when it overflows. -/
def mathDiv_ff0 (v1 v2 : ℚ) : Except EvalError ℚ :=
  let result := roundToBinary53 (v1 / v2)
  if isInf result then .error (.doubleOutOfRange v1 v2) else .ok result

/-- `mathDiv_ff`: NULL on a zero divisor. -/
def mathDiv_ff (v1 v2 : ℚ) : Except EvalError (Option Eval) :=
  if v2 = 0 then .ok none else (mathDiv_ff0 v1 v2).map (some ∘ .float)

/-- `mathMod_ff`: NULL on a zero divisor. -/
def mathMod_ff (v1 v2 : ℚ) : Option Eval :=
  if v2 = 0 then none else some (.float (Go.mod v1 v2))

/-- The float a numeric operand converts to, or `errDecimalOutOfRange`. -/
def floatOperand (v : Eval) : Except EvalError ℚ :=
  let (f, ok) := v.toFloat
  if ok then .ok f else .error .decimalOutOfRange

section Interpreter

variable (newFromFloat : ℚ → Decimal)

/-! ## The interpreter's arithmetic -/

/-- `makeNumericAndPrioritize`: the operand of the type that wins (float, then
decimal, then unsigned, then signed) comes first. -/
def makeNumericAndPrioritize (left right : Eval) : Eval × Eval :=
  match left, right with
  | .int64 _, .uint64 _ | .int64 _, .float _ | .int64 _, .decimal _ => (right, left)
  | .uint64 _, .float _ | .uint64 _, .decimal _ => (right, left)
  | .decimal _, .float _ => (right, left)
  | _, _ => (left, right)

/-- `addNumericWithError`. A signed first operand is only left with a signed
second one, whose type assertion the source makes without a check. -/
def addNumericWithError (left right : Eval) : Except EvalError Eval :=
  match makeNumericAndPrioritize left right with
  | (.int64 v1, .int64 v2) => (mathAdd_ii0 v1 v2).map .int64
  | (.uint64 v1, .int64 v2) => (mathAdd_ui0 v1 v2).map .uint64
  | (.uint64 v1, .uint64 v2) => (mathAdd_uu0 v1 v2).map .uint64
  | (.decimal v1, v2) => .ok (.decimal (mathAdd_dd v1 (v2.toDecimal newFromFloat)))
  | (.float v1, v2) => (floatOperand v2).map fun v2f => .float (roundToBinary53 (v1 + v2f))
  | (v1, v2) => .error (.invalidArithmetic v1 v2)

/-- `subtractNumericWithError`: no reordering, since subtraction does not
commute. -/
def subtractNumericWithError (left right : Eval) : Except EvalError Eval :=
  match left, right with
  | .int64 v1, .int64 v2 => (mathSub_ii0 v1 v2).map .int64
  | .int64 v1, .uint64 v2 => (mathSub_iu0 v1 v2).map .uint64
  | .uint64 v1, .int64 v2 => (mathSub_ui0 v1 v2).map .uint64
  | .uint64 v1, .uint64 v2 => (mathSub_uu0 v1 v2).map .uint64
  | .float v1, v2 => (floatOperand v2).map fun v2f => .float (roundToBinary53 (v1 - v2f))
  | v1, .float v2 => (floatOperand v1).map fun v1f => .float (roundToBinary53 (v1f - v2))
  | .decimal v1, v2 => .ok (.decimal (mathSub_dd v1 (v2.toDecimal newFromFloat)))
  | v1, .decimal v2 => .ok (.decimal (mathSub_dd (v1.toDecimal newFromFloat) v2))

/-- `multiplyNumericWithError`: its errors, and the panic of `decimal.Mul` on two
decimals whose exponents sum past `int32`. -/
def multiplyNumericWithError (left right : Eval) : Except Failure Eval :=
  match makeNumericAndPrioritize left right with
  | (.int64 v1, .int64 v2) => liftError ((mathMul_ii0 v1 v2).map .int64)
  | (.uint64 v1, .int64 v2) => liftError ((mathMul_ui0 v1 v2).map .uint64)
  | (.uint64 v1, .uint64 v2) => liftError ((mathMul_uu0 v1 v2).map .uint64)
  | (.float v1, v2) => liftError ((floatOperand v2).map fun v2f => .float (roundToBinary53 (v1 * v2f)))
  | (.decimal v1, v2) =>
    match mathMul_dd v1 (v2.toDecimal newFromFloat) with
    | some product => .ok (.decimal product)
    | none => .error .panic
  | (v1, v2) => .error (.error (.invalidArithmetic v1 v2))

/-- `divideNumericWithError(left, right, true)`: in floats when either operand
is one, else in decimals with `divPrecisionIncrement` more digits. -/
def divideNumericWithError (left right : Eval) : Except EvalError (Option Eval) :=
  match left, right with
  | .float v1, v2 => do
    let v2f ← floatOperand v2
    mathDiv_ff v1 v2f
  | v1, .float v2 => do
    let v1f ← floatOperand v1
    mathDiv_ff v1f v2
  | v1, v2 =>
    .ok ((mathDiv_dd (v1.toDecimal newFromFloat) (v2.toDecimal newFromFloat)
      divPrecisionIncrement).map .decimal)

/-- `mathIntDiv_di`: NULL on a zero divisor. -/
def mathIntDiv_di (v1 v2 : EvalDecimal) : Except EvalError (Option Eval) :=
  if v2.dec.isZero then .ok none else (mathIntDiv_di0 v1 v2).map (some ∘ .int64)

/-- `mathIntDiv_du`: NULL on a zero divisor. -/
def mathIntDiv_du (v1 v2 : EvalDecimal) : Except EvalError (Option Eval) :=
  if v2.dec.isZero then .ok none else (mathIntDiv_du0 v1 v2).map (some ∘ .uint64)

/-- `integerDivideNumericWithError`: in integers when both operands are
integers, else through decimals; the result is unsigned when an unsigned operand
meets a non-negative one of its own kind or a decimal meets an unsigned one. -/
def integerDivideNumericWithError (left right : Eval) : Except EvalError (Option Eval) :=
  let dec := Eval.toDecimal newFromFloat
  match left, right with
  | .int64 v1, .int64 v2 =>
    if v2 = 0 then .ok none else .ok (some (.int64 (wrapInt64 (v1.tdiv v2))))
  | .int64 v1, .uint64 v2 =>
    if v2 = 0 then .ok none else (mathIntDiv_iu0 v1 v2).map (some ∘ .uint64)
  | .int64 _, .float _ => mathIntDiv_di (dec left) (dec right)
  | .int64 _, .decimal v2 => mathIntDiv_di (dec left) v2
  | .uint64 v1, .int64 v2 =>
    if v2 = 0 then .ok none else (mathIntDiv_ui0 v1 v2).map (some ∘ .uint64)
  | .uint64 v1, .uint64 v2 => if v2 = 0 then .ok none else .ok (some (.uint64 (v1 / v2)))
  | .uint64 _, .float _ => mathIntDiv_du (dec left) (dec right)
  | .uint64 _, .decimal v2 => mathIntDiv_du (dec left) v2
  | .float _, .uint64 _ => mathIntDiv_du (dec left) (dec right)
  | .float _, _ => mathIntDiv_di (dec left) (dec right)
  | .decimal v1, .uint64 _ => mathIntDiv_du v1 (dec right)
  | .decimal v1, _ => mathIntDiv_di v1 (dec right)

/-- `modNumericWithError(left, right, true)`. -/
def modNumericWithError (left right : Eval) : Except EvalError (Option Eval) :=
  let dec := Eval.toDecimal newFromFloat
  match left, right with
  | .int64 v1, .int64 v2 => if v2 = 0 then .ok none else .ok (some (.int64 (v1.tmod v2)))
  | .int64 v1, .uint64 v2 => if v2 = 0 then .ok none else .ok (some (.int64 (mathMod_iu0 v1 v2)))
  | .int64 _, .float v2 => (floatOperand left).map fun v1f => mathMod_ff v1f v2
  | .int64 _, .decimal v2 => .ok ((mathMod_dd (dec left) v2).map .decimal)
  | .uint64 v1, .int64 v2 => if v2 = 0 then .ok none else .ok (some (.uint64 (mathMod_ui0 v1 v2)))
  | .uint64 v1, .uint64 v2 => if v2 = 0 then .ok none else .ok (some (.uint64 (v1 % v2)))
  | .uint64 _, .float v2 => (floatOperand left).map fun v1f => mathMod_ff v1f v2
  | .uint64 _, .decimal v2 => .ok ((mathMod_dd (dec left) v2).map .decimal)
  | .decimal _, .float v2 => (floatOperand left).map fun v1f => mathMod_ff v1f v2
  | .decimal v1, _ => .ok ((mathMod_dd v1 (dec right)).map .decimal)
  | .float v1, _ => (floatOperand right).map fun v2f => mathMod_ff v1 v2f

end Interpreter

/-- `compareNumeric`: the two values brought to one type the way MySQL does,
then compared. -/
def Eval.compareNumeric (left right : Eval) : Except EvalError ℤ :=
  match left, right with
  | .int64 l, .int64 r => .ok (compareOrdered l r)
  | .int64 l, .uint64 r => if l < 0 then .ok (-1) else .ok (compareOrdered (toUint64 l) r)
  | .int64 l, .float r => .ok (compareOrdered (roundToBinary53 l) r)
  | .int64 l, .decimal r => .ok ((Decimal.newFromInt l).cmp r.dec)
  | .uint64 l, .int64 r => if r < 0 then .ok 1 else .ok (compareOrdered l (toUint64 r))
  | .uint64 l, .uint64 r => .ok (compareOrdered l r)
  | .uint64 l, .float r => .ok (compareOrdered (roundToBinary53 l) r)
  | .uint64 l, .decimal r => .ok ((Decimal.newFromUint l).cmp r.dec)
  | .float l, .int64 r => .ok (compareOrdered l (roundToBinary53 r))
  | .float l, .uint64 r => if l < 0 then .ok (-1) else .ok (compareOrdered l (roundToBinary53 r))
  | .float l, .float r => .ok (compareOrdered l r)
  | .float l, .decimal r =>
    let (f, ok) := r.dec.float64
    if ok then .ok (compareOrdered l f) else .error .decimalOutOfRange
  | .decimal l, .int64 r => .ok (l.dec.cmp (Decimal.newFromInt r))
  | .decimal l, .uint64 r => .ok (l.dec.cmp (Decimal.newFromUint r))
  | .decimal l, .float r =>
    let (f, ok) := l.dec.float64
    if ok then .ok (compareOrdered f r) else .error .decimalOutOfRange
  | .decimal l, .decimal r => .ok (l.dec.cmp r.dec)

/-! ## Casts to `DECIMAL(m, d)` -/

/-- `CAST(0 AS DECIMAL(m, m))`: `Clamp` counts one digit before the point in the
zero, more than the type's none, and replaces it by `0.99…9`, `m` nines. -/
theorem cast_zero_clamps_to_nines {m : ℤ} (positive : 0 < m) :
    newEvalDecimalTyped Decimal.zero m m = ⟨Decimal.largestForm 0 m false, m⟩ ∧
      |(Decimal.largestForm 0 m false).toRat| = 1 - 10 ^ (-m) := by
  have clamped : Decimal.zero.clamp (wrapInt32 (m - m)) m = Decimal.largestForm 0 m false := by
    rw [sub_self]
    exact Decimal.clamp_zero (by decide) le_rfl
  refine ⟨?_, ?_⟩
  · rw [newEvalDecimalTyped, if_neg (by omega), if_neg (by omega), clamped]
  · rw [Decimal.abs_toRat_largestForm le_rfl positive.le, zpow_zero]

theorem cast_zero_clamps_to_nines_three :
    newEvalDecimalTyped Decimal.zero 3 3 = ⟨⟨999, -3⟩, 3⟩ ∧ |(⟨999, -3⟩ : Decimal).toRat| = 1 - 10 ^ (-3 : ℤ) :=
  cast_zero_clamps_to_nines (by decide)

end Vitess.Evalengine
