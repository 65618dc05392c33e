import Vitess.Evalengine.Arithmetic
import Vitess.Sqlparser.Ast

/-!
# Expressions and the interpreter

The nodes of the evaluation engine's IR that `Translate` builds for an
expression over literals, typed columns, unary minus, the arithmetic operators,
the comparisons, `AND`, `OR`, `XOR`, `NOT` and `IS`, and the tree-walking
interpreter `eval` of `expr_literal.go`, `expr_column.go`,
`expr_arithmetic.go`, `expr_compare.go` and `expr_logical.go`: each node
evaluates its operands left to right and returns early on an error or, where the
source does, on a NULL operand.

A column is an offset into the row with its declared type, an integral, decimal
or NULL type. A row is given by the values its columns parse to: the
interpreter's `valueToEval` and the VM's pushes parse a column's text with the
same functions (`fastparse.ParseInt64`, `fastparse.ParseUint64`,
`decimal.NewFromMySQL`). Reading past the row, like a failed type assertion, is
a Go panic.
-/

namespace Vitess.Evalengine

open Vitess.Sqltypes

/-- `boolean`: the three-valued truth of SQL. -/
inductive Boolean where
  | boolFalse
  | boolTrue
  | boolNULL
  deriving DecidableEq, Repr

/-- `makeboolean`. -/
def makeboolean (b : Bool) : Boolean :=
  if b then .boolTrue else .boolFalse

/-- `makeboolean2`: NULL when `isNull`. -/
def makeboolean2 (b isNull : Bool) : Boolean :=
  if isNull then .boolNULL else makeboolean b

/-- `boolean.eval`: `1`, `0` or NULL. -/
def Boolean.eval : Boolean → Option Eval
  | .boolTrue => some (.int64 1)
  | .boolFalse => some (.int64 0)
  | .boolNULL => none

/-- `boolean.not`. -/
def Boolean.not : Boolean → Boolean
  | .boolFalse => .boolTrue
  | .boolTrue => .boolFalse
  | .boolNULL => .boolNULL

/-- `evalIsTruthy`. -/
def evalIsTruthy : Option Eval → Boolean
  | none => .boolNULL
  | some (.int64 i) => makeboolean (i ≠ 0)
  | some (.uint64 u) => makeboolean (u ≠ 0)
  | some (.float f) => makeboolean (f ≠ 0)
  | some (.decimal d) => makeboolean !d.dec.isZero

/-- `newEvalBool`. -/
def newEvalBool (b : Bool) : Eval :=
  .int64 (if b then 1 else 0)

/-- The `Check` that `translateIsExpr` attaches to each operator. -/
def isCheck : Sqlparser.IsExprOperator → Option Eval → Bool
  | .IsNullOp, e => e.isNone
  | .IsNotNullOp, e => e.isSome
  | .IsTrueOp, e => evalIsTruthy e == .boolTrue
  | .IsNotTrueOp, e => evalIsTruthy e != .boolTrue
  | .IsFalseOp, e => evalIsTruthy e == .boolFalse
  | .IsNotFalseOp, e => evalIsTruthy e != .boolFalse

/-! ## Comparison of two values -/

/-- `compareAsSameNumericType`. -/
def compareAsSameNumericType (l r : QueryType) : Bool :=
  IsIntegral l && IsIntegral r || IsFloat l && IsFloat r || IsDecimal l && IsDecimal r

/-- `compareAsDecimal`. -/
def compareAsDecimal (l r : QueryType) : Bool :=
  IsDecimal l && (IsIntegral r || IsFloat r) || IsDecimal r && (IsIntegral l || IsFloat l)

/-- `evalCompare` on numeric values: `compareNumeric` when the types meet as
integers, floats or decimals, else both as floats. -/
def evalCompare (left right : Eval) : Except EvalError ℤ :=
  if compareAsSameNumericType left.sqlType right.sqlType ||
      compareAsDecimal left.sqlType right.sqlType then
    left.compareNumeric right
  else (Eval.float left.toFloat.1).compareNumeric (.float right.toFloat.1)

/-- `evalCompareAll` of two values: NULL when one is. -/
def evalCompareAll (left right : Option Eval) : Except EvalError (ℤ × Bool) :=
  match left, right with
  | some l, some r => (evalCompare l r).map fun cmp => (cmp, false)
  | _, _ => .ok (0, true)

/-- `evalCompareNullSafe`: NULL is below every value and equal to itself. -/
def evalCompareNullSafe : Option Eval → Option Eval → Except EvalError ℤ
  | none, none => .ok 0
  | none, some _ => .ok (-1)
  | some _, none => .ok 1
  | some l, some r => evalCompare l r

/-- The comparison operators. -/
inductive ComparisonOp where
  | compareEQ | compareNE | compareLT | compareLE | compareGT | compareGE | compareNullSafeEQ
  deriving DecidableEq, Repr

/-- `compare` of each operator. -/
def ComparisonOp.compare (op : ComparisonOp) (left right : Option Eval) :
    Except EvalError Boolean :=
  match op with
  | .compareEQ => (evalCompareAll left right).map fun (cmp, isNull) => makeboolean2 (cmp = 0) isNull
  | .compareNE => (evalCompareAll left right).map fun (cmp, isNull) => makeboolean2 (cmp ≠ 0) isNull
  | .compareLT => (evalCompareAll left right).map fun (cmp, isNull) => makeboolean2 (cmp < 0) isNull
  | .compareLE => (evalCompareAll left right).map fun (cmp, isNull) => makeboolean2 (cmp ≤ 0) isNull
  | .compareGT => (evalCompareAll left right).map fun (cmp, isNull) => makeboolean2 (0 < cmp) isNull
  | .compareGE => (evalCompareAll left right).map fun (cmp, isNull) => makeboolean2 (0 ≤ cmp) isNull
  | .compareNullSafeEQ => (evalCompareNullSafe left right).map fun cmp => makeboolean (cmp = 0)

/-! ## The IR -/

/-- `opArith`. -/
inductive OpArith where
  | opArithAdd | opArithSub | opArithMul | opArithDiv | opArithIntDiv | opArithMod
  deriving DecidableEq, Repr

/-- `opLogical`. -/
inductive OpLogical where
  | opLogicalAnd | opLogicalOr | opLogicalXor
  deriving DecidableEq, Repr

/-- A typed `Column`: its offset in the row, its declared type, which is
integral, decimal or NULL, and whether it may hold NULL. -/
structure Column where
  offset : ℕ
  typ : QueryType
  nullable : Bool
  numeric : (IsIntegral typ || IsDecimal typ || IsNull typ) = true
  deriving DecidableEq

/-- The IR nodes of the fragment. -/
inductive IR where
  | literal (inner : Option Eval)
  | column (c : Column)
  | arithmeticExpr (op : OpArith) (left right : IR)
  | negateExpr (inner : IR)
  | comparisonExpr (op : ComparisonOp) (left right : IR)
  | logicalExpr (op : OpLogical) (left right : IR)
  | notExpr (inner : IR)
  | isExpr (inner : IR) (op : Sqlparser.IsExprOperator)
  deriving DecidableEq

/-- A row: the values its columns parse to, NULL being `none`. -/
abbrev Row := List (Option Eval)

section Interpreter

variable (newFromFloat : ℚ → Decimal)

/-- `opArith.eval` on two non-NULL operands. -/
def OpArith.eval (op : OpArith) (left right : Eval) : Except Failure (Option Eval) :=
  match op with
  | .opArithAdd => liftError ((addNumericWithError newFromFloat left right).map some)
  | .opArithSub => liftError ((subtractNumericWithError newFromFloat left right).map some)
  | .opArithMul => (multiplyNumericWithError newFromFloat left right).map some
  | .opArithDiv => liftError (divideNumericWithError newFromFloat left right)
  | .opArithIntDiv => liftError (integerDivideNumericWithError newFromFloat left right)
  | .opArithMod => liftError (modNumericWithError newFromFloat left right)

/-- `opLogical.eval`, given the operands' evaluations: the right operand is
evaluated only when the left one does not decide the result. -/
def OpLogical.eval (op : OpLogical) (left : Except Failure (Option Eval))
    (right : Unit → Except Failure (Option Eval)) : Except Failure Boolean := do
  let l ← left
  match op with
  | .opLogicalAnd =>
    let lb := evalIsTruthy l
    if lb = .boolFalse then return .boolFalse
    let rb := evalIsTruthy (← right ())
    if lb = .boolTrue ∧ rb = .boolTrue then return .boolTrue
    else if rb = .boolFalse then return .boolFalse
    else return .boolNULL
  | .opLogicalOr =>
    let lb := evalIsTruthy l
    if lb = .boolTrue then return .boolTrue
    let rb := evalIsTruthy (← right ())
    if lb = .boolNULL then return (if rb = .boolTrue then .boolTrue else .boolNULL)
    else if rb = .boolNULL then return .boolNULL
    else return (if rb = .boolTrue then .boolTrue else .boolFalse)
  | .opLogicalXor =>
    let lb := evalIsTruthy l
    if lb = .boolNULL then return .boolNULL
    let rb := evalIsTruthy (← right ())
    if rb = .boolNULL then return .boolNULL
    else return (if lb ≠ rb then .boolTrue else .boolFalse)

/-- The interpreter: `eval` of each node on a row. -/
def IR.eval (row : Row) : IR → Except Failure (Option Eval)
  | .literal inner => .ok inner
  | .column c =>
    match row[c.offset]? with
    | some v => .ok v
    | none => .error .panic
  | .arithmeticExpr op left right => do
    let some l ← left.eval row | return none
    let some r ← right.eval row | return none
    op.eval newFromFloat l r
  | .negateExpr inner => do
    let some e ← inner.eval row | return none
    return some e.negate
  | .comparisonExpr op left right => do
    let l ← left.eval row
    if op ≠ .compareNullSafeEQ ∧ l = none then return none
    let r ← right.eval row
    if op ≠ .compareNullSafeEQ ∧ r = none then return none
    let cmp ← liftError (op.compare l r)
    return cmp.eval
  | .logicalExpr op left right =>
    (op.eval (left.eval row) fun _ => right.eval row).map Boolean.eval
  | .notExpr inner => do
    let e ← inner.eval row
    return (evalIsTruthy e).not.eval
  | .isExpr inner op => do
    let e ← inner.eval row
    return some (newEvalBool (isCheck op e))

end Interpreter

end Vitess.Evalengine
