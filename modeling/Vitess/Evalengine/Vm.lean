import Vitess.Evalengine.Expr
import Vitess.Machine.ForwardJumps

/-!
# The virtual machine

The instructions that the compiler of `go/vt/vtgate/evalengine` emits for the
fragment of `Vitess.Evalengine.Expr` (`compiler_asm.go`,
`compiler_asm_push.go`, and the logical checks of `expr_logical.go`), each as
its effect on the VM's stack and comparison flag. The head of `stack` is the
entry at `SP-1`. An instruction returns how many instructions to skip; the loop
of `EvaluateVM` is `Vitess.Machine.exec`.

Instructions overwrite their operands in place (`l.i = …`); a pushed literal or
column value is a fresh copy, and no instruction duplicates an entry, so a
stack of values is faithful. A type assertion of the source that fails (an
entry of another type, or NULL) is a panic; an instruction that sets
`env.vm.err` stops the machine with that error.
-/

namespace Vitess.Evalengine

open Vitess.Go

/-- The instructions of the fragment. A jump's `skip` is the offset it returns
minus one: the instructions it passes over. -/
inductive Instr where
  | pushLiteral (lit : Eval)
  | pushNull
  /-- `PushColumn_i`, `PushColumn_u` and `PushColumn_d`: they parse the column's
  text with the parser of the declared type, which gives the row's value. -/
  | pushColumn (offset : ℕ)
  | nullCheck1 (skip : ℕ)
  | nullCheck1r (skip : ℕ)
  | convert_xf (offset : ℕ)
  | convert_if (offset : ℕ)
  | convert_uf (offset : ℕ)
  | convert_xd (offset : ℕ)
  | convert_id (offset : ℕ)
  | convert_ud (offset : ℕ)
  | convert_uB (offset : ℕ)
  | convert_fB (offset : ℕ)
  | convert_dB (offset : ℕ)
  | add_ii | add_ui (swap : Bool) | add_uu | add_ff | add_dd
  | sub_ii | sub_iu | sub_ui | sub_uu | sub_ff | sub_dd
  | mul_ii | mul_ui (swap : Bool) | mul_uu | mul_ff | mul_dd
  | div_ff | div_dd
  | intDiv_ii | intDiv_iu | intDiv_ui | intDiv_uu | intDiv_di | intDiv_du
  | mod_ii | mod_iu | mod_ui | mod_uu | mod_ff | mod_dd
  | neg_i | neg_u | neg_f | neg_d | neg_hex | neg_bit
  | cmpNum_ii | cmpNum_iu (left right : ℕ) | cmpNum_if (left right : ℕ)
  | cmpNum_id (left right : ℕ) | cmpNum_uu | cmpNum_uf (left right : ℕ)
  | cmpNum_ud (left right : ℕ) | cmpNum_ff | cmpNum_fd (left right : ℕ) | cmpNum_dd
  | cmp_eq | cmp_ne | cmp_lt | cmp_le | cmp_gt | cmp_ge
  | cmp_nullsafe (skip : ℕ)
  | andCheck (skip : ℕ) | andRight
  | orCheck (skip : ℕ) | orRight
  | xorCheck (skip : ℕ) | xorRight
  | not_i | not_u | not_f | not_d
  | is (op : Sqlparser.IsExprOperator)
  deriving DecidableEq, Repr

/-- The VM's state: the stack and the comparison flag `flags.cmp`. -/
structure VmState where
  stack : List (Option Eval)
  cmp : ℤ
  deriving DecidableEq, Repr

/-- `.(*evalInt64)`. -/
def asInt64 : Option Eval → Except Failure ℤ
  | some (.int64 i) => .ok i
  | _ => .error .panic

/-- `.(*evalUint64)`. -/
def asUint64 : Option Eval → Except Failure ℕ
  | some (.uint64 u) => .ok u
  | _ => .error .panic

/-- `.(*evalFloat)`. -/
def asFloat : Option Eval → Except Failure ℚ
  | some (.float f) => .ok f
  | _ => .error .panic

/-- `.(*evalDecimal)`. -/
def asDecimal : Option Eval → Except Failure EvalDecimal
  | some (.decimal d) => .ok d
  | _ => .error .panic

@[simp] theorem asInt64_int64 (i : ℤ) : asInt64 (some (.int64 i)) = .ok i := rfl

@[simp] theorem asUint64_uint64 (u : ℕ) : asUint64 (some (.uint64 u)) = .ok u := rfl

@[simp] theorem asDecimal_decimal (d : EvalDecimal) : asDecimal (some (.decimal d)) = .ok d := rfl

/-- `cmpnum`. -/
def cmpnum {α : Type} [LinearOrder α] (a b : α) : ℤ :=
  compareOrdered a b

namespace VmState

/-- Push an entry. -/
def push (st : VmState) (v : Option Eval) : Except Failure (VmState × ℕ) :=
  .ok ({ st with stack := v :: st.stack }, 0)

/-- An instruction on `SP-2` and `SP-1` that leaves its result in `SP-2` and
pops `SP-1`. -/
def binary (st : VmState) (f : Option Eval → Option Eval → Except Failure (Option Eval)) :
    Except Failure (VmState × ℕ) :=
  match st.stack with
  | r :: l :: rest => (f l r).map fun v => ({ st with stack := v :: rest }, 0)
  | _ => .error .panic

/-- An instruction that rewrites the entry at `SP-offset`. -/
def convert (st : VmState) (offset : ℕ) (f : Option Eval → Except Failure (Option Eval)) :
    Except Failure (VmState × ℕ) :=
  match st.stack[offset - 1]? with
  | some v => (f v).map fun v' => ({ st with stack := st.stack.set (offset - 1) v' }, 0)
  | none => .error .panic

/-- A `CmpNum` instruction: it reads `SP-left` and `SP-right`, pops both and
sets the flag. -/
def compare (st : VmState) (left right : ℕ)
    (f : Option Eval → Option Eval → Except Failure ℤ) : Except Failure (VmState × ℕ) :=
  match st.stack[left - 1]?, st.stack[right - 1]? with
  | some l, some r => (f l r).map fun cmp => ({ stack := st.stack.drop 2, cmp }, 0)
  | _, _ => .error .panic

end VmState

/-- A checked operation on the VM: an error of the arithmetic stops it. -/
def checked {α : Type} (result : Except EvalError α) (wrap : α → Eval) :
    Except Failure (Option Eval) :=
  (liftError result).map (some ∘ wrap)

section Step

variable (newFromFloat : ℚ → Decimal) (row : Row)

/-- One instruction. -/
def Instr.exec : Instr → VmState → Except Failure (VmState × ℕ)
  | .pushLiteral lit, st => st.push (some lit)
  | .pushNull, st => st.push none
  | .pushColumn offset, st =>
    match row[offset]? with
    | some v => st.push v
    | none => .error .panic
  | .nullCheck1 skip, st =>
    match st.stack.head? with
    | some none => .ok (st, skip)
    | some (some _) => .ok (st, 0)
    | none => .error .panic
  | .nullCheck1r skip, st =>
    match st.stack with
    | none :: _ :: rest => .ok ({ st with stack := none :: rest }, skip)
    | none :: [] => .error .panic
    | _ => .ok (st, 0)
  | .convert_xf offset, st => st.convert offset fun
    | some v => .ok (some (.float v.toFloat.1))
    | none => .error .panic
  | .convert_if offset, st => st.convert offset fun v => do
    return some (.float (roundToBinary53 (← asInt64 v)))
  | .convert_uf offset, st => st.convert offset fun v => do
    return some (.float (roundToBinary53 (← asUint64 v)))
  | .convert_xd offset, st => st.convert offset fun
    | some v => .ok (some (.decimal (v.toDecimal newFromFloat)))
    | none => .error .panic
  | .convert_id offset, st => st.convert offset fun v => do
    return some (.decimal ⟨Decimal.newFromInt (← asInt64 v), 0⟩)
  | .convert_ud offset, st => st.convert offset fun v => do
    return some (.decimal ⟨Decimal.newFromUint (← asUint64 v), 0⟩)
  | .convert_uB offset, st => st.convert offset fun
    | none => .ok none
    | v => do return some (newEvalBool ((← asUint64 v) ≠ 0))
  | .convert_fB offset, st => st.convert offset fun
    | none => .ok none
    | v => do return some (newEvalBool ((← asFloat v) ≠ 0))
  | .convert_dB offset, st => st.convert offset fun
    | none => .ok none
    | v => do return some (newEvalBool !(← asDecimal v).dec.isZero)
  | .add_ii, st => st.binary fun l r => do
    checked (mathAdd_ii0 (← asInt64 l) (← asInt64 r)) .int64
  | .add_ui swap, st => st.binary fun l r => do
    -- with `swap`, the unsigned operand is on top
    if swap then checked (mathAdd_ui0 (← asUint64 r) (← asInt64 l)) .uint64
    else checked (mathAdd_ui0 (← asUint64 l) (← asInt64 r)) .uint64
  | .add_uu, st => st.binary fun l r => do
    checked (mathAdd_uu0 (← asUint64 l) (← asUint64 r)) .uint64
  | .add_ff, st => st.binary fun l r => do
    return some (.float (roundToBinary53 ((← asFloat l) + (← asFloat r))))
  | .add_dd, st => st.binary fun l r => do
    return some (.decimal (mathAdd_dd (← asDecimal l) (← asDecimal r)))
  | .sub_ii, st => st.binary fun l r => do
    checked (mathSub_ii0 (← asInt64 l) (← asInt64 r)) .int64
  | .sub_iu, st => st.binary fun l r => do
    checked (mathSub_iu0 (← asInt64 l) (← asUint64 r)) .uint64
  | .sub_ui, st => st.binary fun l r => do
    checked (mathSub_ui0 (← asUint64 l) (← asInt64 r)) .uint64
  | .sub_uu, st => st.binary fun l r => do
    checked (mathSub_uu0 (← asUint64 l) (← asUint64 r)) .uint64
  | .sub_ff, st => st.binary fun l r => do
    return some (.float (roundToBinary53 ((← asFloat l) - (← asFloat r))))
  | .sub_dd, st => st.binary fun l r => do
    return some (.decimal (mathSub_dd (← asDecimal l) (← asDecimal r)))
  | .mul_ii, st => st.binary fun l r => do
    checked (mathMul_ii0 (← asInt64 l) (← asInt64 r)) .int64
  | .mul_ui swap, st => st.binary fun l r => do
    if swap then checked (mathMul_ui0 (← asUint64 r) (← asInt64 l)) .uint64
    else checked (mathMul_ui0 (← asUint64 l) (← asInt64 r)) .uint64
  | .mul_uu, st => st.binary fun l r => do
    checked (mathMul_uu0 (← asUint64 l) (← asUint64 r)) .uint64
  | .mul_ff, st => st.binary fun l r => do
    return some (.float (roundToBinary53 ((← asFloat l) * (← asFloat r))))
  | .mul_dd, st => st.binary fun l r => do
    match mathMul_dd (← asDecimal l) (← asDecimal r) with
    | some product => return some (.decimal product)
    | none => .error .panic
  | .div_ff, st => st.binary fun l r => do
    let l ← asFloat l
    let r ← asFloat r
    if r = 0 then return none else checked (mathDiv_ff0 l r) .float
  | .div_dd, st => st.binary fun l r => do
    return (mathDiv_dd (← asDecimal l) (← asDecimal r) divPrecisionIncrement).map .decimal
  | .intDiv_ii, st => st.binary fun l r => do
    let l ← asInt64 l
    let r ← asInt64 r
    if r = 0 then return none else return some (.int64 (wrapInt64 (l.tdiv r)))
  | .intDiv_iu, st => st.binary fun l r => do
    let l ← asInt64 l
    let r ← asUint64 r
    if r = 0 then return none else checked (mathIntDiv_iu0 l r) .uint64
  | .intDiv_ui, st => st.binary fun l r => do
    let l ← asUint64 l
    let r ← asInt64 r
    if r = 0 then return none else checked (mathIntDiv_ui0 l r) .uint64
  | .intDiv_uu, st => st.binary fun l r => do
    let l ← asUint64 l
    let r ← asUint64 r
    if r = 0 then return none else return some (.uint64 (l / r))
  | .intDiv_di, st => st.binary fun l r => do
    let l ← asDecimal l
    let r ← asDecimal r
    if r.dec.isZero then return none else checked (mathIntDiv_di0 l r) .int64
  | .intDiv_du, st => st.binary fun l r => do
    let l ← asDecimal l
    let r ← asDecimal r
    if r.dec.isZero then return none else checked (mathIntDiv_du0 l r) .uint64
  | .mod_ii, st => st.binary fun l r => do
    let l ← asInt64 l
    let r ← asInt64 r
    if r = 0 then return none else return some (.int64 (l.tmod r))
  | .mod_iu, st => st.binary fun l r => do
    let l ← asInt64 l
    let r ← asUint64 r
    if r = 0 then return none else return some (.int64 (mathMod_iu0 l r))
  | .mod_ui, st => st.binary fun l r => do
    let l ← asUint64 l
    let r ← asInt64 r
    if r = 0 then return none else return some (.uint64 (mathMod_ui0 l r))
  | .mod_uu, st => st.binary fun l r => do
    let l ← asUint64 l
    let r ← asUint64 r
    if r = 0 then return none else return some (.uint64 (l % r))
  | .mod_ff, st => st.binary fun l r => do
    return mathMod_ff (← asFloat l) (← asFloat r)
  | .mod_dd, st => st.binary fun l r => do
    return (mathMod_dd (← asDecimal l) (← asDecimal r)).map .decimal
  | .neg_i, st => st.convert 1 fun v => do
    let i ← asInt64 v
    if i = -2 ^ 63 then .error .deoptimize else return some (.int64 (-i))
  | .neg_u, st => st.convert 1 fun v => do
    let u ← asUint64 v
    if 2 ^ 63 + 1 ≤ u then .error .deoptimize
    else return some (.int64 (wrapInt64 (-toInt64 u)))
  | .neg_f, st => st.convert 1 fun v => do
    return some (.float (-(← asFloat v)))
  | .neg_d, st => st.convert 1 fun v => do
    let d ← asDecimal v
    return some (.decimal ⟨d.dec.neg, d.length⟩)
  | .neg_hex, st => st.convert 1 fun v => do
    return some (.float (-roundToBinary53 (← asUint64 v)))
  | .neg_bit, st => st.convert 1 fun v => do
    return some (.float (-roundToBinary53 (← asInt64 v)))
  | .cmpNum_ii, st => st.compare 2 1 fun l r => do
    return cmpnum (← asInt64 l) (← asInt64 r)
  | .cmpNum_iu left right, st => st.compare left right fun l r => do
    let l ← asInt64 l
    let r ← asUint64 r
    return if l < 0 then -1 else cmpnum (toUint64 l) r
  | .cmpNum_if left right, st => st.compare left right fun l r => do
    return cmpnum (roundToBinary53 (← asInt64 l)) (← asFloat r)
  | .cmpNum_id left right, st => st.compare left right fun l r => do
    return (Decimal.newFromInt (← asInt64 l)).cmp (← asDecimal r).dec
  | .cmpNum_uu, st => st.compare 2 1 fun l r => do
    return cmpnum (← asUint64 l) (← asUint64 r)
  | .cmpNum_uf left right, st => st.compare left right fun l r => do
    return cmpnum (roundToBinary53 (← asUint64 l)) (← asFloat r)
  | .cmpNum_ud left right, st => st.compare left right fun l r => do
    return (Decimal.newFromUint (← asUint64 l)).cmp (← asDecimal r).dec
  | .cmpNum_ff, st => st.compare 2 1 fun l r => do
    return cmpnum (← asFloat l) (← asFloat r)
  | .cmpNum_fd left right, st => st.compare left right fun l r => do
    let l ← asFloat l
    let (fval, ok) := (← asDecimal r).dec.float64
    if ok then return cmpnum l fval else .error (.error .decimalOutOfRange)
  | .cmpNum_dd, st => st.compare 2 1 fun l r => do
    return (← asDecimal l).dec.cmp (← asDecimal r).dec
  | .cmp_eq, st => st.push (some (newEvalBool (st.cmp = 0)))
  | .cmp_ne, st => st.push (some (newEvalBool (st.cmp ≠ 0)))
  | .cmp_lt, st => st.push (some (newEvalBool (st.cmp < 0)))
  | .cmp_le, st => st.push (some (newEvalBool (st.cmp ≤ 0)))
  | .cmp_gt, st => st.push (some (newEvalBool (0 < st.cmp)))
  | .cmp_ge, st => st.push (some (newEvalBool (0 ≤ st.cmp)))
  | .cmp_nullsafe skip, st =>
    match st.stack with
    | r :: l :: rest =>
      if l = none ∨ r = none then
        .ok ({ stack := rest, cmp := if l = r then 0 else 1 }, skip)
      else .ok (st, 0)
    | _ => .error .panic
  | .andCheck skip, st =>
    match st.stack.head? with
    | some (some (.int64 0)) => .ok (st, skip)
    | some _ => .ok (st, 0)
    | none => .error .panic
  | .andRight, st => st.binary fun l r =>
    let isLeft := match l with | some (.int64 i) => i != 0 | _ => false
    let rightIsInt := match r with | some (.int64 _) => true | _ => false
    let isRight := match r with | some (.int64 i) => i != 0 | _ => false
    if isLeft && isRight then .ok (some (.int64 1))
    else if rightIsInt && !isRight then .ok (some (newEvalBool false))
    else .ok none
  | .orCheck skip, st =>
    match st.stack with
    | some (.int64 i) :: rest =>
      if i ≠ 0 then .ok ({ st with stack := some (.int64 1) :: rest }, skip) else .ok (st, 0)
    | _ :: _ => .ok (st, 0)
    | [] => .error .panic
  | .orRight, st => st.binary fun l r =>
    match l, r with
    | some (.int64 i), some (.int64 j) => .ok (some (.int64 (if i ≠ 0 ∨ j ≠ 0 then 1 else 0)))
    | some (.int64 _), _ => .ok none
    -- a left entry that is no integer stays, unless the right one is true
    | l, some (.int64 j) => .ok (if j ≠ 0 then some (newEvalBool true) else l)
    | l, _ => .ok l
  | .xorCheck skip, st =>
    match st.stack.head? with
    | some none => .ok (st, skip)
    | some (some _) => .ok (st, 0)
    | none => .error .panic
  | .xorRight, st => st.binary fun l r => do
    let l ← asInt64 l
    match r with
    | some (.int64 j) => return some (.int64 (if (l ≠ 0) ≠ (j ≠ 0) then 1 else 0))
    | _ => return none
  | .not_i, st => st.convert 1 fun v => do return some (newEvalBool ((← asInt64 v) = 0))
  | .not_u, st => st.convert 1 fun v => do return some (newEvalBool ((← asUint64 v) = 0))
  | .not_f, st => st.convert 1 fun v => do return some (newEvalBool ((← asFloat v) = 0))
  | .not_d, st => st.convert 1 fun v => do
    return some (newEvalBool (← asDecimal v).dec.isZero)
  | .is op, st => st.convert 1 fun v => .ok (some (newEvalBool (isCheck op v)))

end Step

end Vitess.Evalengine
