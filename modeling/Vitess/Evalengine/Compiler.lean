import Vitess.Evalengine.Vm

/-!
# The compiler

`compile` of each IR node (`expr_literal.go`, `expr_column.go`,
`expr_arithmetic.go`, `expr_compare.go`, `expr_logical.go`) with the helpers of
`compiler.go`, and `EvaluateVM`, which runs the compiled code and falls back to
the interpreter when an instruction asks to de-optimize.

The compiler picks every instruction from the static type (`ctype`) it computes
for each operand, and each node's code is a block: the code of its operands,
the NULL checks, the conversions and the operation. A NULL check is emitted
only for an operand whose type may be NULL, and jumps to the end of the node's
block with NULL as the node's value. The static types of the fragment are
`INT64`, `UINT64`, `FLOAT64`, `DECIMAL` and `NULL_TYPE`; on these, the switches
of the source over textual, temporal and JSON types take their numeric
branches, which are the ones modelled. The size, scale and collation of a
`ctype` steer nothing here and are left out.
-/

namespace Vitess.Evalengine

open Vitess.Sqltypes

/-- `flagNull`. -/
def flagNull : ℕ := 1

/-- `flagNullable`. -/
def flagNullable : ℕ := 2

/-- `flagIsBoolean`. -/
def flagIsBoolean : ℕ := 4

/-- `flagIntegerUdf`: a literal `math.MinInt64`. -/
def flagIntegerUdf : ℕ := 32

/-- `flagIntegerCap`: a literal `-math.MinInt64`. -/
def flagIntegerCap : ℕ := 64

/-- `flagIntegerOvf`: a literal beyond `-math.MinInt64`. -/
def flagIntegerOvf : ℕ := 128

/-- `flagHex`. -/
def flagHex : ℕ := 256

/-- `flagBit`. -/
def flagBit : ℕ := 512

/-- `ctype`: the static type of a compiled expression, with its flags. -/
structure CType where
  typ : QueryType
  flag : ℕ
  deriving DecidableEq, Repr

/-- `ctype.nullable`. -/
def CType.nullable (ct : CType) : Bool :=
  ct.flag &&& flagNullable != 0

/-- `nullableFlags`. -/
def nullableFlags (flag : ℕ) : ℕ :=
  flag &&& (flagNull ||| flagNullable)

/-- `compileNullCheck1` followed by `rest`: the check jumps over `rest`. -/
def compileNullCheck1 (ct : CType) (rest : List Instr) : List Instr :=
  if ct.nullable then .nullCheck1 rest.length :: rest else rest

/-- `compileNullCheck1r` followed by `rest`. -/
def compileNullCheck1r (ct : CType) (rest : List Instr) : List Instr :=
  if ct.nullable then .nullCheck1r rest.length :: rest else rest

/-- `compileToNumeric(ct, offset, fallback, _)` with the fallback `DECIMAL`
(`toDecimal`) or `FLOAT64`, the two the fragment's callers pass. -/
def compileToNumeric (ct : CType) (offset : ℕ) (toDecimal : Bool) : List Instr × CType :=
  if IsNumber ct.typ then ([], ct)
  else if toDecimal then ([.convert_xd offset], ⟨.DECIMAL, ct.flag⟩)
  else ([.convert_xf offset], ⟨.FLOAT64, ct.flag⟩)

/-- `compileToFloat`. -/
def compileToFloat (ct : CType) (offset : ℕ) : List Instr × CType :=
  if IsFloat ct.typ then ([], ct)
  else
    let code : List Instr := match ct.typ with
      | .INT64 => [.convert_if offset]
      | .UINT64 => [.convert_uf offset]
      | _ => [.convert_xf offset]
    (code, ⟨.FLOAT64, ct.flag⟩)

/-- `compileToDecimal`. -/
def compileToDecimal (ct : CType) (offset : ℕ) : List Instr × CType :=
  if IsDecimal ct.typ then ([], ct)
  else
    let code : List Instr := match ct.typ with
      | .INT64 => [.convert_id offset]
      | .UINT64 => [.convert_ud offset]
      | _ => [.convert_xd offset]
    (code, ⟨.DECIMAL, ct.flag⟩)

/-- `compileNumericPriority`: the operand of the winning type first, and
whether the two were swapped. -/
def compileNumericPriority (lt rt : CType) : CType × CType × Bool :=
  match lt.typ, rt.typ with
  | .INT64, .UINT64 | .INT64, .FLOAT64 | .INT64, .DECIMAL => (rt, lt, true)
  | .UINT64, .FLOAT64 | .UINT64, .DECIMAL => (rt, lt, true)
  | .DECIMAL, .FLOAT64 => (rt, lt, true)
  | _, _ => (lt, rt, false)

/-- `compareNumericTypes`: the comparison instruction, and whether it compares
the right operand with the left one. -/
def compareNumericTypes (lt rt : CType) : List Instr × Bool :=
  match lt.typ, rt.typ with
  | .INT64, .INT64 => ([.cmpNum_ii], false)
  | .INT64, .UINT64 => ([.cmpNum_iu 2 1], false)
  | .INT64, .FLOAT64 => ([.cmpNum_if 2 1], false)
  | .INT64, .DECIMAL => ([.cmpNum_id 2 1], false)
  | .UINT64, .INT64 => ([.cmpNum_iu 1 2], true)
  | .UINT64, .UINT64 => ([.cmpNum_uu], false)
  | .UINT64, .FLOAT64 => ([.cmpNum_uf 2 1], false)
  | .UINT64, .DECIMAL => ([.cmpNum_ud 2 1], false)
  | .FLOAT64, .INT64 => ([.cmpNum_if 1 2], true)
  | .FLOAT64, .UINT64 => ([.cmpNum_uf 1 2], true)
  | .FLOAT64, .FLOAT64 => ([.cmpNum_ff], false)
  | .FLOAT64, .DECIMAL => ([.cmpNum_fd 2 1], false)
  | .DECIMAL, .INT64 => ([.cmpNum_id 1 2], true)
  | .DECIMAL, .UINT64 => ([.cmpNum_ud 1 2], true)
  | .DECIMAL, .FLOAT64 => ([.cmpNum_fd 1 2], true)
  | .DECIMAL, .DECIMAL => ([.cmpNum_dd], false)
  | _, _ => ([], false)

/-- `Literal.typeof`. -/
def literalType : Option Eval → CType
  | none => ⟨.NULL_TYPE, flagNull ||| flagNullable⟩
  | some (.int64 i) => ⟨.INT64, if i = -2 ^ 63 then flagIntegerUdf else 0⟩
  | some (.uint64 u) =>
    ⟨.UINT64, (if u = 2 ^ 63 then flagIntegerCap else 0) |||
      (if 2 ^ 63 + 1 ≤ u then flagIntegerOvf else 0)⟩
  | some (.float _) => ⟨.FLOAT64, 0⟩
  | some (.decimal _) => ⟨.DECIMAL, 0⟩

/-- `Column.compile`: the push for the declared type, and the static type. The
column's type is integral, decimal or NULL, so the branches of the source for
other types are not reached. -/
def Column.compile (c : Column) : List Instr × CType :=
  let flag := if c.nullable then flagNullable else 0
  if IsSigned c.typ then ([.pushColumn c.offset], ⟨.INT64, flag⟩)
  else if IsUnsigned c.typ then ([.pushColumn c.offset], ⟨.UINT64, flag⟩)
  else if IsDecimal c.typ then ([.pushColumn c.offset], ⟨c.typ, flag⟩)
  else ([.pushNull], ⟨c.typ, flag⟩)

/-- The operation of `opArithAdd.compile` after the conversions to numbers. -/
def compileAdd (lt rt : CType) : List Instr × QueryType :=
  let (lt, rt, swap) := compileNumericPriority lt rt
  let offset := if swap then 2 else 1
  match lt.typ with
  | .INT64 => ([.add_ii], .INT64)
  | .UINT64 =>
    match rt.typ with
    | .INT64 => ([.add_ui swap], .UINT64)
    | .UINT64 => ([.add_uu], .UINT64)
    | _ => ([], .UINT64)
  | .DECIMAL => ((compileToDecimal rt offset).1 ++ [.add_dd], .DECIMAL)
  | .FLOAT64 => ((compileToFloat rt offset).1 ++ [.add_ff], .FLOAT64)
  | _ => ([], .NULL_TYPE)

/-- The operation of `opArithSub.compile`. -/
def compileSub (lt rt : CType) : List Instr × QueryType :=
  match lt.typ, rt.typ with
  | .INT64, .INT64 => ([.sub_ii], .INT64)
  | .INT64, .UINT64 => ([.sub_iu], .UINT64)
  | .INT64, .FLOAT64 => ((compileToFloat lt 2).1 ++ [.sub_ff], .FLOAT64)
  | .INT64, .DECIMAL => ((compileToDecimal lt 2).1 ++ [.sub_dd], .DECIMAL)
  | .UINT64, .INT64 => ([.sub_ui], .UINT64)
  | .UINT64, .UINT64 => ([.sub_uu], .UINT64)
  | .UINT64, .FLOAT64 => ((compileToFloat lt 2).1 ++ [.sub_ff], .FLOAT64)
  | .UINT64, .DECIMAL => ((compileToDecimal lt 2).1 ++ [.sub_dd], .DECIMAL)
  | .FLOAT64, _ => ((compileToFloat rt 1).1 ++ [.sub_ff], .FLOAT64)
  | .DECIMAL, .FLOAT64 => ((compileToFloat lt 2).1 ++ [.sub_ff], .FLOAT64)
  | .DECIMAL, _ => ((compileToDecimal rt 1).1 ++ [.sub_dd], .DECIMAL)
  | _, _ => ([], .NULL_TYPE)

/-- The operation of `opArithMul.compile`. -/
def compileMul (lt rt : CType) : List Instr × QueryType :=
  let (lt, rt, swap) := compileNumericPriority lt rt
  let offset := if swap then 2 else 1
  match lt.typ with
  | .INT64 => ([.mul_ii], .INT64)
  | .UINT64 =>
    match rt.typ with
    | .INT64 => ([.mul_ui swap], .UINT64)
    | .UINT64 => ([.mul_uu], .UINT64)
    | _ => ([], .UINT64)
  | .FLOAT64 => ((compileToFloat rt offset).1 ++ [.mul_ff], .FLOAT64)
  | .DECIMAL => ((compileToDecimal rt offset).1 ++ [.mul_dd], .DECIMAL)
  | _ => ([], .NULL_TYPE)

/-- The operation of `opArithDiv.compile`: in floats when an operand is one,
else in decimals. -/
def compileDiv (lt rt : CType) : List Instr × QueryType :=
  if lt.typ = .FLOAT64 ∨ rt.typ = .FLOAT64 then
    ((compileToFloat lt 2).1 ++ (compileToFloat rt 1).1 ++ [.div_ff], .FLOAT64)
  else ((compileToDecimal lt 2).1 ++ (compileToDecimal rt 1).1 ++ [.div_dd], .DECIMAL)

/-- The operation of `opArithIntDiv.compile`. The static type starts as `INT64`
and only some branches change it. -/
def compileIntDiv (lt rt : CType) : List Instr × QueryType :=
  match lt.typ, rt.typ with
  | .INT64, .INT64 => ([.intDiv_ii], .INT64)
  | .INT64, .UINT64 => ([.intDiv_iu], .UINT64)
  | .INT64, .FLOAT64 => ([.convert_xd 2, .convert_xd 1, .intDiv_di], .INT64)
  | .INT64, .DECIMAL => ([.convert_xd 2, .intDiv_di], .INT64)
  | .UINT64, .INT64 => ([.intDiv_ui], .INT64)
  | .UINT64, .UINT64 => ([.intDiv_uu], .UINT64)
  | .UINT64, .FLOAT64 => ([.convert_xd 2, .convert_xd 1, .intDiv_du], .INT64)
  | .UINT64, .DECIMAL => ([.convert_xd 2, .intDiv_du], .INT64)
  | .FLOAT64, .DECIMAL => ([.convert_xd 2, .intDiv_di], .INT64)
  | .FLOAT64, .UINT64 => ([.convert_xd 2, .convert_xd 1, .intDiv_du], .UINT64)
  | .FLOAT64, _ => ([.convert_xd 2, .convert_xd 1, .intDiv_di], .INT64)
  | .DECIMAL, .DECIMAL => ([.intDiv_di], .INT64)
  | .DECIMAL, .UINT64 => ([.convert_xd 1, .intDiv_du], .UINT64)
  | .DECIMAL, _ => ([.convert_xd 1, .intDiv_di], .INT64)
  | _, _ => ([], .INT64)

/-- The operation of `opArithMod.compile`. -/
def compileMod (lt rt : CType) : List Instr × QueryType :=
  match lt.typ, rt.typ with
  | .INT64, .INT64 => ([.mod_ii], .INT64)
  | .INT64, .UINT64 => ([.mod_iu], .INT64)
  | .INT64, .FLOAT64 => ([.convert_xf 2, .mod_ff], .FLOAT64)
  | .INT64, .DECIMAL => ([.convert_xd 2, .mod_dd], .DECIMAL)
  | .UINT64, .INT64 => ([.mod_ui], .UINT64)
  | .UINT64, .UINT64 => ([.mod_uu], .UINT64)
  | .UINT64, .FLOAT64 => ([.convert_xf 2, .mod_ff], .FLOAT64)
  | .UINT64, .DECIMAL => ([.convert_xd 2, .mod_dd], .DECIMAL)
  | .DECIMAL, .FLOAT64 => ([.convert_xf 2, .mod_ff], .FLOAT64)
  | .DECIMAL, _ => ([.convert_xd 1, .mod_dd], .DECIMAL)
  | .FLOAT64, _ => ([.convert_xf 1, .mod_ff], .FLOAT64)
  | .INT64, _ => ([], .INT64)
  | .UINT64, _ => ([], .UINT64)
  | _, _ => ([], .NULL_TYPE)

/-- The operation of an `opArith` on two operands converted to numbers, and
the type of its result. -/
def compileArith (op : OpArith) (lt rt : CType) : List Instr × QueryType :=
  match op with
  | .opArithAdd => compileAdd lt rt
  | .opArithSub => compileSub lt rt
  | .opArithMul => compileMul lt rt
  | .opArithDiv => compileDiv lt rt
  | .opArithIntDiv => compileIntDiv lt rt
  | .opArithMod => compileMod lt rt

/-- The flags of an `opArith` result: the operands' NULL flags for `+`, `-`
and `*`, always nullable for the divisions, which give NULL on a zero divisor. -/
def arithFlags (op : OpArith) (lt rt : CType) : ℕ :=
  match op with
  | .opArithAdd | .opArithSub | .opArithMul => nullableFlags (lt.flag ||| rt.flag)
  | .opArithDiv | .opArithIntDiv | .opArithMod => flagNullable

/-- The negation instruction of `NegateExpr.compile` on an operand converted to
a number, and its result type. -/
def compileNeg (arg : CType) : List Instr × QueryType :=
  match arg.typ with
  | .INT64 => if arg.flag &&& flagBit ≠ 0 then ([.neg_bit], .FLOAT64) else ([.neg_i], .INT64)
  | .UINT64 => if arg.flag &&& flagHex ≠ 0 then ([.neg_hex], .FLOAT64) else ([.neg_u], .INT64)
  | .FLOAT64 => ([.neg_f], .FLOAT64)
  | .DECIMAL => ([.neg_d], .DECIMAL)
  | _ => ([], .NULL_TYPE)

/-- The instructions of `ComparisonExpr.compile` that compare the two operands
and set the flag, and whether they compare them swapped. -/
def compileCompare (lt rt : CType) : List Instr × Bool :=
  if compareAsSameNumericType lt.typ rt.typ || compareAsDecimal lt.typ rt.typ then
    compareNumericTypes lt rt
  else ((compileToFloat lt 2).1 ++ (compileToFloat rt 1).1 ++ [.cmpNum_ff], false)

/-- The instruction that turns the flag into the result of a comparison other
than `<=>`. -/
def ComparisonOp.flagInstr (op : ComparisonOp) (swapped : Bool) : Instr :=
  match op with
  | .compareEQ | .compareNullSafeEQ => .cmp_eq
  | .compareNE => .cmp_ne
  | .compareLT => if swapped then .cmp_gt else .cmp_lt
  | .compareLE => if swapped then .cmp_ge else .cmp_le
  | .compareGT => if swapped then .cmp_lt else .cmp_gt
  | .compareGE => if swapped then .cmp_le else .cmp_ge

/-- The conversion of a logical operand to a truth value, by its static type. -/
def compileTruth (ct : CType) : List Instr :=
  match ct.typ with
  | .UINT64 => [.convert_uB 1]
  | .FLOAT64 => [.convert_fB 1]
  | .DECIMAL => [.convert_dB 1]
  | _ => []

/-- `compileLeft` of a logical operator: the check that may decide the result
from the left operand alone, jumping over `rest`. -/
def OpLogical.compileLeft (op : OpLogical) (rest : List Instr) : Instr :=
  match op with
  | .opLogicalAnd => .andCheck rest.length
  | .opLogicalOr => .orCheck rest.length
  | .opLogicalXor => .xorCheck rest.length

/-- `compileRight` of a logical operator. -/
def OpLogical.compileRight : OpLogical → Instr
  | .opLogicalAnd => .andRight
  | .opLogicalOr => .orRight
  | .opLogicalXor => .xorRight

/-- The instruction of `NotExpr.compile`, by the operand's static type. -/
def compileNot (arg : CType) : List Instr :=
  match arg.typ with
  | .INT64 => [.not_i]
  | .UINT64 => [.not_u]
  | .FLOAT64 => [.not_f]
  | .DECIMAL => [.not_d]
  | _ => []

/-- `compile` of each node: its code and its static type. -/
def IR.compile : IR → List Instr × CType
  | .literal none => ([.pushNull], literalType none)
  | .literal (some lit) => ([.pushLiteral lit], literalType (some lit))
  | .column c => c.compile
  | .arithmeticExpr op left right =>
    let (leftCode, lt) := left.compile
    let (rightCode, rt) := right.compile
    let toDecimal := op = .opArithIntDiv
    let (leftConv, lt') := compileToNumeric lt 2 toDecimal
    let (rightConv, rt') := compileToNumeric rt 1 toDecimal
    let (opCode, typ) := compileArith op lt' rt'
    (leftCode ++ compileNullCheck1 lt
      (rightCode ++ compileNullCheck1r rt (leftConv ++ rightConv ++ opCode)),
      ⟨typ, arithFlags op lt' rt'⟩)
  | .negateExpr inner =>
    let (argCode, arg) := inner.compile
    let (conv, arg') := compileToNumeric arg 1 false
    let (negCode, typ) := compileNeg arg'
    (argCode ++ compileNullCheck1 arg (conv ++ negCode), ⟨typ, nullableFlags arg'.flag⟩)
  | .comparisonExpr op left right =>
    let (leftCode, lt) := left.compile
    let (rightCode, rt) := right.compile
    let (cmpCode, swapped) := compileCompare lt rt
    if op = .compareNullSafeEQ then
      (leftCode ++ rightCode ++ .cmp_nullsafe cmpCode.length :: cmpCode ++ [.cmp_eq],
        ⟨.INT64, flagIsBoolean⟩)
    else
      (leftCode ++ compileNullCheck1 lt
        (rightCode ++ compileNullCheck1r rt (cmpCode ++ [op.flagInstr swapped])),
        ⟨.INT64, flagIsBoolean ||| nullableFlags (lt.flag ||| rt.flag)⟩)
  | .logicalExpr op left right =>
    let (leftCode, lt) := left.compile
    let (rightCode, rt) := right.compile
    let rest := rightCode ++ compileTruth rt ++ [op.compileRight]
    (leftCode ++ compileTruth lt ++ op.compileLeft rest :: rest,
      ⟨.INT64, ((lt.flag ||| rt.flag) &&& flagNullable) ||| flagIsBoolean⟩)
  | .notExpr inner =>
    let (argCode, arg) := inner.compile
    (argCode ++ compileNullCheck1 arg (compileNot arg),
      ⟨.INT64, nullableFlags arg.flag ||| flagIsBoolean⟩)
  | .isExpr inner op => (inner.compile.1 ++ [.is op], ⟨.INT64, flagIsBoolean⟩)

/-! The code of each node in terms of the code and static types of its operands. -/

theorem compile_arithmeticExpr (op : OpArith) (left right : IR) :
    (IR.arithmeticExpr op left right).compile =
      let lt' := (compileToNumeric left.compile.2 2 (op = .opArithIntDiv)).2
      let rt' := (compileToNumeric right.compile.2 1 (op = .opArithIntDiv)).2
      (left.compile.1 ++ compileNullCheck1 left.compile.2 (right.compile.1 ++
        compileNullCheck1r right.compile.2
          ((compileToNumeric left.compile.2 2 (op = .opArithIntDiv)).1 ++
            (compileToNumeric right.compile.2 1 (op = .opArithIntDiv)).1 ++
            (compileArith op lt' rt').1)),
        ⟨(compileArith op lt' rt').2, arithFlags op lt' rt'⟩) :=
  rfl

theorem compile_negateExpr (inner : IR) :
    (IR.negateExpr inner).compile =
      let arg' := (compileToNumeric inner.compile.2 1 false).2
      (inner.compile.1 ++ compileNullCheck1 inner.compile.2
          ((compileToNumeric inner.compile.2 1 false).1 ++ (compileNeg arg').1),
        ⟨(compileNeg arg').2, nullableFlags arg'.flag⟩) :=
  rfl

theorem compile_comparisonExpr (op : ComparisonOp) (left right : IR) :
    (IR.comparisonExpr op left right).compile =
      if op = .compareNullSafeEQ then
        (left.compile.1 ++ right.compile.1 ++
            .cmp_nullsafe (compileCompare left.compile.2 right.compile.2).1.length ::
              (compileCompare left.compile.2 right.compile.2).1 ++ [.cmp_eq],
          ⟨.INT64, flagIsBoolean⟩)
      else
        (left.compile.1 ++ compileNullCheck1 left.compile.2 (right.compile.1 ++
            compileNullCheck1r right.compile.2 ((compileCompare left.compile.2 right.compile.2).1 ++
              [op.flagInstr (compileCompare left.compile.2 right.compile.2).2])),
          ⟨.INT64, flagIsBoolean ||| nullableFlags (left.compile.2.flag ||| right.compile.2.flag)⟩) :=
  rfl

theorem compile_logicalExpr (op : OpLogical) (left right : IR) :
    (IR.logicalExpr op left right).compile =
      let rest := right.compile.1 ++ compileTruth right.compile.2 ++ [op.compileRight]
      (left.compile.1 ++ compileTruth left.compile.2 ++ op.compileLeft rest :: rest,
        ⟨.INT64, ((left.compile.2.flag ||| right.compile.2.flag) &&& flagNullable) ||| flagIsBoolean⟩) :=
  rfl

theorem compile_notExpr (inner : IR) :
    (IR.notExpr inner).compile =
      (inner.compile.1 ++ compileNullCheck1 inner.compile.2 (compileNot inner.compile.2),
        ⟨.INT64, nullableFlags inner.compile.2.flag ||| flagIsBoolean⟩) :=
  rfl

section Evaluate

variable (newFromFloat : ℚ → Decimal)

/-- `EvaluateVM` of the compiled expression: the value left on the stack, or
the interpreter's result when the code de-optimizes. -/
def evaluateVM (row : Row) (ir : IR) : Except Failure (Option Eval) :=
  match Machine.exec (Instr.exec newFromFloat row) ir.compile.1 ⟨[], 0⟩ with
  | .ok st =>
    match st.stack with
    | v :: _ => .ok v
    | [] => .error .panic
  | .error .deoptimize => ir.eval newFromFloat row
  | .error f => .error f

/-- `EvaluateAST`: the interpreter. -/
def evaluateAST (row : Row) (ir : IR) : Except Failure (Option Eval) :=
  ir.eval newFromFloat row

/-- `env.Evaluate` of what `Translate` returns: a literal or a column is an
`Expr` of its own and is returned uncompiled, every other node is compiled. -/
def evaluate (row : Row) (ir : IR) : Except Failure (Option Eval) :=
  match ir with
  | .literal _ | .column _ => evaluateAST newFromFloat row ir
  | _ => evaluateVM newFromFloat row ir

end Evaluate

end Vitess.Evalengine
