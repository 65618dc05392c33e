import Vitess.Evalengine.Compiler

/-!
# The compiled code refines the interpreter

`EvaluateVM` and `EvaluateAST` agree on every expression over NULL, integer and
decimal literals and typed integral or decimal columns, on every row whose
values conform to the columns' types, except where `opArithIntDiv.compile`
reports the static type `INT64` for a division whose value is unsigned.

The compiler chooses each node's instructions from the static types of its
operands, so the proof carries an invariant over values: a node's value is NULL
only when its static type is nullable, and is otherwise of the static type's
SQL type. A node's code then leaves the interpreter's value on top of any stack
it starts from, fails with the interpreter's error, or de-optimizes, in which
case `EvaluateVM` itself runs the interpreter. The invariant and this
simulation are proved together, node by node, by induction on the expression.
-/

namespace Vitess.Evalengine

open Vitess.Sqltypes Vitess.Machine

/-! ## Static types and the values they admit -/

/-- A value that the static type `ct` admits: NULL when `ct` is nullable, and
otherwise a value of `ct`'s SQL type that is not a float. -/
def CType.Admits (ct : CType) : Option Eval → Prop
  | none => ct.nullable = true
  | some v => v.sqlType = ct.typ ∧ v.sqlType ≠ .FLOAT64

/-- The operand types for which `opArithIntDiv.compile` reports the static type
`INT64` but emits a division whose value is unsigned. -/
def mistypedIntDiv (lt rt : QueryType) : Bool :=
  lt == .UINT64 && (rt == .INT64 || rt == .FLOAT64 || rt == .DECIMAL)

/-- The expressions of the fragment: no float literal, and no integer division
of mistyped operands. -/
def IR.InFragment : IR → Bool
  | .literal (some (.float _)) => false
  | .literal _ => true
  | .column _ => true
  | .arithmeticExpr op left right =>
    left.InFragment && right.InFragment &&
      !(op == .opArithIntDiv && mistypedIntDiv left.compile.2.typ right.compile.2.typ)
  | .negateExpr inner => inner.InFragment
  | .comparisonExpr _ left right => left.InFragment && right.InFragment
  | .logicalExpr _ left right => left.InFragment && right.InFragment
  | .notExpr inner => inner.InFragment
  | .isExpr inner _ => inner.InFragment

/-- The columns an expression reads. -/
def IR.columns : IR → List Column
  | .literal _ => []
  | .column c => [c]
  | .arithmeticExpr _ left right => left.columns ++ right.columns
  | .negateExpr inner => inner.columns
  | .comparisonExpr _ left right => left.columns ++ right.columns
  | .logicalExpr _ left right => left.columns ++ right.columns
  | .notExpr inner => inner.columns
  | .isExpr inner _ => inner.columns

/-- A row conforms to a column: it has the column, and the value there is one
that the column's static type admits. -/
def Column.Conforms (c : Column) (row : Row) : Prop :=
  ∃ v, row[c.offset]? = some v ∧ c.compile.2.Admits v

/-- A numeric static type needs no conversion to a number. -/
theorem compileToNumeric_of_admits {ct : CType} {v : Eval} (admits : ct.Admits (some v))
    (offset : ℕ) (toDecimal : Bool) : compileToNumeric ct offset toDecimal = ([], ct) := by
  obtain ⟨typ, -⟩ := admits
  have number : IsNumber ct.typ = true := by
    rw [← typ]
    cases v <;> simp only [Eval.sqlType] <;> decide
  simp [compileToNumeric, number]

/-! ### The flags of static types -/

theorem nullable_iff_testBit (ct : CType) : ct.nullable = true ↔ ct.flag.testBit 1 = true := by
  have bit := Nat.and_two_pow ct.flag 1
  simp only [pow_one] at bit
  simp only [CType.nullable, flagNullable, bne_iff_ne, ne_eq, bit]
  cases ct.flag.testBit 1 <;> simp

@[simp]
theorem nullable_nullableFlags (typ : QueryType) (flag : ℕ) :
    CType.nullable ⟨typ, nullableFlags flag⟩ = CType.nullable ⟨typ, flag⟩ := by
  rw [Bool.eq_iff_iff, nullable_iff_testBit, nullable_iff_testBit]
  have three : Nat.testBit (flagNull ||| flagNullable) 1 = true := by decide
  simp [nullableFlags, Nat.testBit_and, three]

@[simp]
theorem nullable_or (typ : QueryType) (a b : ℕ) :
    CType.nullable ⟨typ, a ||| b⟩ = (CType.nullable ⟨typ, a⟩ || CType.nullable ⟨typ, b⟩) := by
  rw [Bool.eq_iff_iff, Bool.or_eq_true, nullable_iff_testBit, nullable_iff_testBit,
    nullable_iff_testBit]
  simp [Nat.testBit_or]

@[simp]
theorem nullable_isBoolean (typ : QueryType) : CType.nullable ⟨typ, flagIsBoolean⟩ = false := by
  show (flagIsBoolean &&& flagNullable != 0) = false
  decide

@[simp]
theorem nullable_flagNullable (typ : QueryType) : CType.nullable ⟨typ, flagNullable⟩ = true := by
  show (flagNullable &&& flagNullable != 0) = true
  decide

@[simp]
theorem nullable_mk (typ : QueryType) (ct : CType) : CType.nullable ⟨typ, ct.flag⟩ = ct.nullable :=
  rfl

@[simp]
theorem nullable_and_flagNullable (typ : QueryType) (flag : ℕ) :
    CType.nullable ⟨typ, flag &&& flagNullable⟩ = CType.nullable ⟨typ, flag⟩ := by
  rw [Bool.eq_iff_iff, nullable_iff_testBit, nullable_iff_testBit]
  have two : Nat.testBit flagNullable 1 = true := by decide
  simp [Nat.testBit_and, two]

@[simp]
theorem nullable_compileToNumeric (ct : CType) (offset : ℕ) (toDecimal : Bool) :
    (compileToNumeric ct offset toDecimal).2.nullable = ct.nullable := by
  unfold compileToNumeric
  split_ifs <;> rfl

theorem nullableFlags_lt (flag : ℕ) : nullableFlags flag < 2 ^ 8 :=
  lt_of_le_of_lt (Nat.and_le_right) (by decide)

/-- No static type carries the flag of a hex or a bit literal: every flag the
compiler sets lies below them. -/
theorem IR.compile_flag_lt (e : IR) : e.compile.2.flag < 2 ^ 8 := by
  have isBoolean : flagIsBoolean < 2 ^ 8 := by decide
  cases e with
  | literal inner =>
    rcases inner with _ | i | u | f | d
    · decide
    · show (if i = -2 ^ 63 then flagIntegerUdf else 0) < 2 ^ 8
      split <;> decide
    · exact Nat.or_lt_two_pow (by split <;> decide) (by split <;> decide)
    · show 0 < 2 ^ 8
      decide
    · show 0 < 2 ^ 8
      decide
  | column c =>
    simp only [IR.compile, Column.compile]
    split_ifs <;> simp [flagNullable]
  | arithmeticExpr op left right =>
    rw [compile_arithmeticExpr]
    cases op <;> simp only [arithFlags] <;> first | exact nullableFlags_lt _ | decide
  | negateExpr inner => exact nullableFlags_lt _
  | comparisonExpr op left right =>
    rw [compile_comparisonExpr]
    split
    · exact isBoolean
    · exact Nat.or_lt_two_pow isBoolean (nullableFlags_lt _)
  | logicalExpr op left right =>
    exact Nat.or_lt_two_pow (lt_of_le_of_lt Nat.and_le_right (by decide)) isBoolean
  | notExpr inner => exact Nat.or_lt_two_pow (nullableFlags_lt _) isBoolean
  | isExpr inner op => exact isBoolean

/-- The negation of a value of a static type is the plain one: neither `Neg_hex`
nor `Neg_bit`. -/
theorem compileNeg_plain (typ : QueryType) {flag : ℕ} (lt : flag < 2 ^ 8) :
    compileNeg ⟨typ, flag⟩ = compileNeg ⟨typ, 0⟩ := by
  have clear (i : ℕ) (high : 8 ≤ i) : flag &&& 2 ^ i = 0 := by
    rw [Nat.and_two_pow, Nat.testBit_lt_two_pow (lt_of_lt_of_le lt (Nat.pow_le_pow_right
      (by decide) high))]
    simp
  have hex : flag &&& flagHex = 0 := clear 8 (by decide)
  have bit : flag &&& flagBit = 0 := clear 9 (by decide)
  cases typ <;> simp [compileNeg, hex, bit]

section Simulation

variable (newFromFloat : ℚ → Decimal) (row : Row)

/-- From state `st`, `code` ends with the value of `result` on top of `stack`,
a value that `ct` admits, or fails with the error of `result`. -/
def Yields (code : List Instr) (ct : CType) (st : VmState) (stack : List (Option Eval)) :
    Except Failure (Option Eval) → Prop
  | .ok v => ct.Admits v ∧ ∃ cmp, Passes (Instr.exec newFromFloat row) code st ⟨v :: stack, cmp⟩
  | .error f => Fails (Instr.exec newFromFloat row) code st f

/-- `code` yields `result` from `st`, or asks to de-optimize. -/
def Runs (code : List Instr) (ct : CType) (st : VmState) (stack : List (Option Eval))
    (result : Except Failure (Option Eval)) : Prop :=
  Fails (Instr.exec newFromFloat row) code st .deoptimize ∨
    Yields newFromFloat row code ct st stack result

/-- From every state, `code` pushes `result` or asks to de-optimize. -/
def Computes (code : List Instr) (ct : CType) (result : Except Failure (Option Eval)) : Prop :=
  ∀ st, Runs newFromFloat row code ct st st.stack result

/-- The compiled code of `e` computes its value under the interpreter. -/
def IR.Refines (e : IR) : Prop :=
  Computes newFromFloat row e.compile.1 e.compile.2 (e.eval newFromFloat row)

variable {newFromFloat row}

/-! ### Composing blocks -/

theorem Yields.after_passes {pre code : List Instr} {ct : CType} {st st' : VmState}
    {stack : List (Option Eval)} {result : Except Failure (Option Eval)}
    (first : Passes (Instr.exec newFromFloat row) pre st st')
    (after : Yields newFromFloat row code ct st' stack result) :
    Yields newFromFloat row (pre ++ code) ct st stack result := by
  cases result with
  | ok v =>
    obtain ⟨admits, cmp, passes⟩ := after
    exact ⟨admits, cmp, first.append passes⟩
  | error f => exact first.append_fails after

theorem Yields.cons {i : Instr} {code : List Instr} {ct : CType} {st st' : VmState}
    {stack : List (Option Eval)} {result : Except Failure (Option Eval)}
    (stepped : Instr.exec newFromFloat row i st = .ok (st', 0))
    (after : Yields newFromFloat row code ct st' stack result) :
    Yields newFromFloat row (i :: code) ct st stack result := by
  have first : Passes (Instr.exec newFromFloat row) [i] st st' := passes_single stepped
  exact Yields.after_passes first after

theorem Yields.of_runsAs {code code' : List Instr} {ct : CType} {st : VmState}
    {stack : List (Option Eval)} {result : Except Failure (Option Eval)}
    (same : RunsAs (Instr.exec newFromFloat row) code code' st)
    (after : Yields newFromFloat row code' ct st stack result) :
    Yields newFromFloat row code ct st stack result := by
  cases result with
  | ok v =>
    obtain ⟨admits, cmp, passes⟩ := after
    exact ⟨admits, cmp, same.passes passes⟩
  | error f => exact same.fails after

/-- A block that fails stops whatever follows it. -/
theorem Yields.append_error {code code' : List Instr} {ct ct' : CType} {st : VmState}
    {stack stack' : List (Option Eval)} {f : Failure}
    (fails : Yields newFromFloat row code ct st stack (.error f)) :
    Yields newFromFloat row (code ++ code') ct' st stack' (.error f) :=
  Fails.append fails

theorem Runs.after_passes {pre code : List Instr} {ct : CType} {st st' : VmState}
    {stack : List (Option Eval)} {result : Except Failure (Option Eval)}
    (first : Passes (Instr.exec newFromFloat row) pre st st')
    (after : Runs newFromFloat row code ct st' stack result) :
    Runs newFromFloat row (pre ++ code) ct st stack result :=
  after.imp first.append_fails (Yields.after_passes first)

theorem Runs.of_runsAs {code code' : List Instr} {ct : CType} {st : VmState}
    {stack : List (Option Eval)} {result : Except Failure (Option Eval)}
    (same : RunsAs (Instr.exec newFromFloat row) code code' st)
    (after : Runs newFromFloat row code' ct st stack result) :
    Runs newFromFloat row code ct st stack result :=
  after.imp same.fails (Yields.of_runsAs same)

theorem Runs.deoptimize {code code' : List Instr} {ct : CType} {st : VmState}
    {stack : List (Option Eval)} {result : Except Failure (Option Eval)}
    (fails : Fails (Instr.exec newFromFloat row) code st .deoptimize) :
    Runs newFromFloat row (code ++ code') ct st stack result :=
  .inl fails.append

/-! ### Single instructions -/

/-- An instruction on the two entries on top of the stack that computes `result`. -/
theorem yields_binary {i : Instr} {g : Option Eval → Option Eval → Except Failure (Option Eval)}
    (exec_eq : ∀ st, Instr.exec newFromFloat row i st = st.binary g) {ct : CType}
    {l r : Option Eval} {s : List (Option Eval)} {c : ℤ} {result : Except Failure (Option Eval)}
    (eq : g l r = result) (admits : ∀ v, result = .ok v → ct.Admits v) :
    Yields newFromFloat row [i] ct ⟨r :: l :: s, c⟩ s result := by
  subst eq
  cases h : g l r with
  | ok v =>
    exact ⟨admits v h, c, passes_single (by rw [exec_eq]; simp [VmState.binary, h])⟩
  | error f => exact fails_single (by rw [exec_eq]; simp [VmState.binary, h])

/-- A checked instruction whose result is of the static type. -/
theorem yields_map {i : Instr} {g : Option Eval → Option Eval → Except Failure (Option Eval)}
    (exec_eq : ∀ st, Instr.exec newFromFloat row i st = st.binary g) {ct : CType}
    {l r : Option Eval} {s : List (Option Eval)} {c : ℤ} {α : Type} {x : Except Failure α}
    {wrap : α → Eval} (eq : g l r = x.map (some ∘ wrap)) (typed : ∀ a, (wrap a).sqlType = ct.typ)
    (exact : ∀ a, (wrap a).sqlType ≠ .FLOAT64) :
    Yields newFromFloat row [i] ct ⟨r :: l :: s, c⟩ s (x.map (some ∘ wrap)) :=
  yields_binary exec_eq eq fun v h => by
    cases x with
    | error f => cases h
    | ok a =>
      cases h
      exact ⟨typed a, exact a⟩

theorem admits_ok {ct : CType} {v : Eval} (admits : ct.Admits (some v)) :
    ∀ w, (.ok (some v) : Except Failure (Option Eval)) = .ok w → ct.Admits w := by
  rintro w ⟨⟩
  exact admits

theorem admits_none {ct : CType} (nullable : ct.nullable = true) :
    ∀ w, (.ok none : Except Failure (Option Eval)) = .ok w → ct.Admits w := by
  rintro w ⟨⟩
  exact nullable

theorem admits_option {α : Type} {ct : CType} {wrap : α → Eval} (o : Option α)
    (nullable : ct.nullable = true) (typed : ∀ a, ct.Admits (some (wrap a))) :
    ∀ w, (.ok (o.map wrap) : Except Failure (Option Eval)) = .ok w → ct.Admits w := by
  rintro w ⟨⟩
  cases o with
  | none => exact nullable
  | some a => exact typed a

/-! ### NULL checks -/

/-- On a NULL operand, `NullCheck1` jumps to the end of the node. -/
theorem nullCheck1_jumps {ct : CType} (nullable : ct.nullable = true) (rest : List Instr)
    (s : List (Option Eval)) (c : ℤ) :
    Passes (Instr.exec newFromFloat row) (compileNullCheck1 ct rest) ⟨none :: s, c⟩
      ⟨none :: s, c⟩ := by
  simp only [compileNullCheck1, nullable, if_true]
  exact passes_jump rfl

/-- On a value, `NullCheck1` falls through. -/
theorem nullCheck1_runsAs (ct : CType) (rest : List Instr) (v : Eval) (s : List (Option Eval))
    (c : ℤ) :
    RunsAs (Instr.exec newFromFloat row) (compileNullCheck1 ct rest) rest ⟨some v :: s, c⟩ := by
  unfold compileNullCheck1
  split
  · exact runsAs_cons rfl
  · exact runsAs_refl _ _

/-- On a NULL right operand, `NullCheck1r` replaces both operands with NULL and
jumps to the end of the node. -/
theorem nullCheck1r_jumps {ct : CType} (nullable : ct.nullable = true) (rest : List Instr)
    (l : Option Eval) (s : List (Option Eval)) (c : ℤ) :
    Passes (Instr.exec newFromFloat row) (compileNullCheck1r ct rest) ⟨none :: l :: s, c⟩
      ⟨none :: s, c⟩ := by
  simp only [compileNullCheck1r, nullable, if_true]
  exact passes_jump rfl

theorem nullCheck1r_runsAs (ct : CType) (rest : List Instr) (v : Eval) (s : List (Option Eval))
    (c : ℤ) :
    RunsAs (Instr.exec newFromFloat row) (compileNullCheck1r ct rest) rest ⟨some v :: s, c⟩ := by
  unfold compileNullCheck1r
  split
  · exact runsAs_cons rfl
  · exact runsAs_refl _ _

/-! ### The arithmetic operators

Each operator's code, on two exact operands of their static types, against the
interpreter's `*NumericWithError`. The interpreter puts the operand of the
wider type first (`makeNumericAndPrioritize`); the compiler converts the other
one in place, so the two meet up to the commutativity of decimal `+` and `*`. -/

theorem mathAdd_dd_comm (v1 v2 : EvalDecimal) : mathAdd_dd v1 v2 = mathAdd_dd v2 v1 := by
  simp [mathAdd_dd, Decimal.add_comm, max_comm]

theorem mathMul_dd_comm (v1 v2 : EvalDecimal) : mathMul_dd v1 v2 = mathMul_dd v2 v1 := by
  simp [mathMul_dd, Decimal.mul_comm, Int.add_comm]

/-- `mul_dd` on two decimals computes the interpreter's product, and panics where
`decimal.Mul` does. -/
theorem yields_mul_dd (v1 v2 : EvalDecimal) (flag : ℕ) (s : List (Option Eval)) (c : ℤ) :
    Yields newFromFloat row [.mul_dd] ⟨.DECIMAL, flag⟩ ⟨some (.decimal v2) :: some (.decimal v1) :: s, c⟩ s
      (Except.map some (match mathMul_dd v1 v2 with
        | some product => .ok (.decimal product)
        | none => .error .panic)) := by
  cases product : mathMul_dd v1 v2 with
  | none => exact yields_binary (fun _ => rfl) (by simp [product]) (fun _ h => by simp [Except.map] at h)
  | some p => exact yields_binary (fun _ => rfl) (by simp [product]) (admits_ok ⟨rfl, by simp [Eval.sqlType]⟩)

theorem add_yields (l r : Eval) (lf rf : ℕ) (lexact : l.sqlType ≠ .FLOAT64)
    (rexact : r.sqlType ≠ .FLOAT64) (flag : ℕ) (s : List (Option Eval)) (c : ℤ) :
    Yields newFromFloat row (compileAdd ⟨l.sqlType, lf⟩ ⟨r.sqlType, rf⟩).1
      ⟨(compileAdd ⟨l.sqlType, lf⟩ ⟨r.sqlType, rf⟩).2, flag⟩ ⟨some r :: some l :: s, c⟩ s
      (liftError ((addNumericWithError newFromFloat l r).map some)) := by
  cases l <;> cases r <;> simp only [Eval.sqlType, ne_eq, not_true_eq_false] at lexact rexact
  all_goals simp [compileAdd, compileNumericPriority, compileToDecimal, IsDecimal, Eval.sqlType,
    addNumericWithError, makeNumericAndPrioritize, Eval.toDecimal, newEvalDecimal,
    Decimal.exponent, Decimal.newFromInt, Decimal.newFromUint]
  case int64.int64 | int64.uint64 | uint64.int64 | uint64.uint64 =>
    exact yields_map (fun _ => rfl) rfl (fun _ => rfl) (fun _ => by simp [Eval.sqlType])
  case decimal.decimal =>
    exact yields_binary (fun _ => rfl) rfl (admits_ok ⟨rfl, by simp [Eval.sqlType]⟩)
  case int64.decimal | uint64.decimal =>
    exact Yields.cons rfl (yields_binary (fun _ => rfl) (by rw [mathAdd_dd_comm]; rfl)
      (admits_ok ⟨rfl, by simp [Eval.sqlType]⟩))
  case decimal.int64 | decimal.uint64 =>
    exact Yields.cons rfl (yields_binary (fun _ => rfl) rfl
      (admits_ok ⟨rfl, by simp [Eval.sqlType]⟩))

theorem sub_yields (l r : Eval) (lf rf : ℕ) (lexact : l.sqlType ≠ .FLOAT64)
    (rexact : r.sqlType ≠ .FLOAT64) (flag : ℕ) (s : List (Option Eval)) (c : ℤ) :
    Yields newFromFloat row (compileSub ⟨l.sqlType, lf⟩ ⟨r.sqlType, rf⟩).1
      ⟨(compileSub ⟨l.sqlType, lf⟩ ⟨r.sqlType, rf⟩).2, flag⟩ ⟨some r :: some l :: s, c⟩ s
      (liftError ((subtractNumericWithError newFromFloat l r).map some)) := by
  cases l <;> cases r <;> simp only [Eval.sqlType, ne_eq, not_true_eq_false] at lexact rexact
  all_goals simp [compileSub, compileToDecimal, IsDecimal, Eval.sqlType,
    subtractNumericWithError, Eval.toDecimal, newEvalDecimal, Decimal.exponent,
    Decimal.newFromInt, Decimal.newFromUint]
  case int64.int64 | int64.uint64 | uint64.int64 | uint64.uint64 =>
    exact yields_map (fun _ => rfl) rfl (fun _ => rfl) (fun _ => by simp [Eval.sqlType])
  case decimal.decimal =>
    exact yields_binary (fun _ => rfl) rfl (admits_ok ⟨rfl, by simp [Eval.sqlType]⟩)
  case int64.decimal | uint64.decimal | decimal.int64 | decimal.uint64 =>
    exact Yields.cons rfl (yields_binary (fun _ => rfl) rfl
      (admits_ok ⟨rfl, by simp [Eval.sqlType]⟩))

theorem mul_yields (l r : Eval) (lf rf : ℕ) (lexact : l.sqlType ≠ .FLOAT64)
    (rexact : r.sqlType ≠ .FLOAT64) (flag : ℕ) (s : List (Option Eval)) (c : ℤ) :
    Yields newFromFloat row (compileMul ⟨l.sqlType, lf⟩ ⟨r.sqlType, rf⟩).1
      ⟨(compileMul ⟨l.sqlType, lf⟩ ⟨r.sqlType, rf⟩).2, flag⟩ ⟨some r :: some l :: s, c⟩ s
      ((multiplyNumericWithError newFromFloat l r).map some) := by
  cases l <;> cases r <;> simp only [Eval.sqlType, ne_eq, not_true_eq_false] at lexact rexact
  all_goals simp [compileMul, compileNumericPriority, compileToDecimal, IsDecimal, Eval.sqlType,
    multiplyNumericWithError, makeNumericAndPrioritize, Eval.toDecimal, newEvalDecimal,
    Decimal.exponent, Decimal.newFromInt, Decimal.newFromUint]
  case int64.int64 | int64.uint64 | uint64.int64 | uint64.uint64 =>
    exact yields_map (fun _ => rfl) rfl (fun _ => rfl) (fun _ => by simp [Eval.sqlType])
  case decimal.decimal => exact yields_mul_dd _ _ flag s c
  case int64.decimal | uint64.decimal =>
    rw [mathMul_dd_comm]
    exact Yields.cons rfl (yields_mul_dd _ _ flag s c)
  case decimal.int64 | decimal.uint64 => exact Yields.cons rfl (yields_mul_dd _ _ flag s c)

theorem div_yields (l r : Eval) (lf rf : ℕ) (lexact : l.sqlType ≠ .FLOAT64)
    (rexact : r.sqlType ≠ .FLOAT64) (s : List (Option Eval)) (c : ℤ) :
    Yields newFromFloat row (compileDiv ⟨l.sqlType, lf⟩ ⟨r.sqlType, rf⟩).1
      ⟨(compileDiv ⟨l.sqlType, lf⟩ ⟨r.sqlType, rf⟩).2, flagNullable⟩ ⟨some r :: some l :: s, c⟩ s
      (liftError (divideNumericWithError newFromFloat l r)) := by
  have admits := @admits_option EvalDecimal ⟨.DECIMAL, flagNullable⟩ Eval.decimal
  cases l <;> cases r <;> simp only [Eval.sqlType, ne_eq, not_true_eq_false] at lexact rexact
  all_goals simp [compileDiv, compileToDecimal, IsDecimal, Eval.sqlType,
    divideNumericWithError, Eval.toDecimal, newEvalDecimal, Decimal.exponent,
    Decimal.newFromInt, Decimal.newFromUint]
  -- both operands are brought to decimals
  case int64.int64 | int64.uint64 | uint64.int64 | uint64.uint64 =>
    exact Yields.cons rfl (Yields.cons rfl (yields_binary (fun _ => rfl) rfl
      (admits _ rfl fun _ => ⟨rfl, by simp [Eval.sqlType]⟩)))
  case int64.decimal | uint64.decimal | decimal.int64 | decimal.uint64 =>
    exact Yields.cons rfl (yields_binary (fun _ => rfl) rfl
      (admits _ rfl fun _ => ⟨rfl, by simp [Eval.sqlType]⟩))
  case decimal.decimal =>
    exact yields_binary (fun _ => rfl) rfl (admits _ rfl fun _ => ⟨rfl, by simp [Eval.sqlType]⟩)

theorem intDiv_yields (l r : Eval) (lf rf : ℕ) (lexact : l.sqlType ≠ .FLOAT64)
    (rexact : r.sqlType ≠ .FLOAT64) (typed : mistypedIntDiv l.sqlType r.sqlType = false)
    (s : List (Option Eval)) (c : ℤ) :
    Yields newFromFloat row (compileIntDiv ⟨l.sqlType, lf⟩ ⟨r.sqlType, rf⟩).1
      ⟨(compileIntDiv ⟨l.sqlType, lf⟩ ⟨r.sqlType, rf⟩).2, flagNullable⟩ ⟨some r :: some l :: s, c⟩ s
      (liftError (integerDivideNumericWithError newFromFloat l r)) := by
  cases l <;> cases r <;> simp only [Eval.sqlType, ne_eq, not_true_eq_false] at lexact rexact <;>
    simp [mistypedIntDiv, Eval.sqlType] at typed
  all_goals simp [compileIntDiv, Eval.sqlType, integerDivideNumericWithError, Eval.toDecimal,
    newEvalDecimal, Decimal.exponent, Decimal.newFromInt, Decimal.newFromUint]
  -- the divisor's test for zero is unfolded after the operands, whose conversions it reads
  all_goals try simp only [mathIntDiv_di, mathIntDiv_du, liftError_ite, liftError_ok, liftError_map]
  -- a zero divisor gives NULL in both
  all_goals split
  case int64.int64.isTrue zero | int64.uint64.isTrue zero | uint64.uint64.isTrue zero
      | decimal.decimal.isTrue zero =>
    exact yields_binary (fun _ => rfl) (by simp [zero]) (admits_none rfl)
  case int64.decimal.isTrue zero | decimal.int64.isTrue zero | decimal.uint64.isTrue zero =>
    exact Yields.cons rfl (yields_binary (fun _ => rfl)
      (by simp_all [Eval.toDecimal, newEvalDecimal, Decimal.newFromInt, Decimal.newFromUint])
      (admits_none rfl))
  case int64.int64.isFalse nonzero | uint64.uint64.isFalse nonzero =>
    exact yields_binary (fun _ => rfl) (by simp [nonzero]) (admits_ok ⟨rfl, by simp [Eval.sqlType]⟩)
  case int64.uint64.isFalse nonzero | decimal.decimal.isFalse nonzero =>
    exact yields_map (fun _ => rfl) (by simp [nonzero]; rfl) (fun _ => rfl)
      (fun _ => by simp [Eval.sqlType])
  case int64.decimal.isFalse nonzero | decimal.int64.isFalse nonzero
      | decimal.uint64.isFalse nonzero =>
    exact Yields.cons rfl (yields_map (fun _ => rfl)
      (by simp_all [Eval.toDecimal, newEvalDecimal, Decimal.newFromInt, Decimal.newFromUint]; rfl)
      (fun _ => rfl) (fun _ => by simp [Eval.sqlType]))

theorem mod_yields (l r : Eval) (lf rf : ℕ) (lexact : l.sqlType ≠ .FLOAT64)
    (rexact : r.sqlType ≠ .FLOAT64) (s : List (Option Eval)) (c : ℤ) :
    Yields newFromFloat row (compileMod ⟨l.sqlType, lf⟩ ⟨r.sqlType, rf⟩).1
      ⟨(compileMod ⟨l.sqlType, lf⟩ ⟨r.sqlType, rf⟩).2, flagNullable⟩ ⟨some r :: some l :: s, c⟩ s
      (liftError (modNumericWithError newFromFloat l r)) := by
  have admits := @admits_option EvalDecimal ⟨.DECIMAL, flagNullable⟩ Eval.decimal
  cases l <;> cases r <;> simp only [Eval.sqlType, ne_eq, not_true_eq_false] at lexact rexact
  all_goals simp [compileMod, Eval.sqlType, modNumericWithError, Eval.toDecimal,
    newEvalDecimal, Decimal.exponent, Decimal.newFromInt, Decimal.newFromUint]
  case int64.decimal | uint64.decimal | decimal.int64 | decimal.uint64 | decimal.decimal =>
    exact Yields.cons rfl (yields_binary (fun _ => rfl) rfl
      (admits _ rfl fun _ => ⟨rfl, by simp [Eval.sqlType]⟩))
  -- a zero divisor gives NULL in both
  all_goals split
  case int64.int64.isTrue zero | int64.uint64.isTrue zero | uint64.int64.isTrue zero
      | uint64.uint64.isTrue zero =>
    exact yields_binary (fun _ => rfl) (by simp [zero]) (admits_none rfl)
  case int64.int64.isFalse nonzero | int64.uint64.isFalse nonzero | uint64.int64.isFalse nonzero
      | uint64.uint64.isFalse nonzero =>
    exact yields_binary (fun _ => rfl) (by simp [nonzero]) (admits_ok ⟨rfl, by simp [Eval.sqlType]⟩)

/-- The code of an arithmetic operator computes the interpreter's result on two
exact operands of their static types, the mistyped integer divisions apart. -/
theorem arith_yields (op : OpArith) {lt rt : CType} {l r : Eval} (left : lt.Admits (some l))
    (right : rt.Admits (some r)) (typed : !(op == .opArithIntDiv && mistypedIntDiv lt.typ rt.typ))
    (s : List (Option Eval)) (c : ℤ) :
    Yields newFromFloat row (compileArith op lt rt).1
      ⟨(compileArith op lt rt).2, arithFlags op lt rt⟩ ⟨some r :: some l :: s, c⟩ s
      (op.eval newFromFloat l r) := by
  obtain ⟨lt_typ, lt_flag⟩ := lt
  obtain ⟨rt_typ, rt_flag⟩ := rt
  obtain ⟨rfl, lexact⟩ := left
  obtain ⟨rfl, rexact⟩ := right
  cases op
  case opArithAdd => exact add_yields l r _ _ lexact rexact _ s c
  case opArithSub => exact sub_yields l r _ _ lexact rexact _ s c
  case opArithMul => exact mul_yields l r _ _ lexact rexact _ s c
  case opArithDiv => exact div_yields l r _ _ lexact rexact s c
  case opArithIntDiv => exact intDiv_yields l r _ _ lexact rexact (by simpa using typed) s c
  case opArithMod => exact mod_yields l r _ _ lexact rexact s c

/-! ### Nodes with two operands -/

/-- A node that evaluates both operands, NULL when either is, and otherwise
combines them: its code is the left operand's, a `NullCheck1`, the right
operand's, a `NullCheck1r` and the operation, and both checks jump to its end. -/
theorem binary_computes {leftCode rightCode opCode : List Instr} {lt rt ct : CType}
    {lres rres : Except Failure (Option Eval)} {combine : Eval → Eval → Except Failure (Option Eval)}
    (left : Computes newFromFloat row leftCode lt lres)
    (right : Computes newFromFloat row rightCode rt rres)
    (nullable : lt.nullable = true ∨ rt.nullable = true → ct.nullable = true)
    (operation : ∀ l r s c, lt.Admits (some l) → rt.Admits (some r) →
      Runs newFromFloat row opCode ct ⟨some r :: some l :: s, c⟩ s (combine l r)) :
    Computes newFromFloat row
      (leftCode ++ compileNullCheck1 lt (rightCode ++ compileNullCheck1r rt opCode)) ct
      (do
        let some l ← lres | return none
        let some r ← rres | return none
        combine l r) := by
  intro st
  rcases left st with deopt | leftYields
  · exact .deoptimize deopt
  cases lres with
  | error f => exact .inr (Yields.append_error leftYields)
  | ok lv =>
    obtain ⟨leftAdmits, c1, leftPasses⟩ := leftYields
    cases lv with
    | none => exact .inr ⟨nullable (.inl leftAdmits), c1, leftPasses.append (nullCheck1_jumps leftAdmits _ _ _)⟩
    | some l =>
      refine Runs.after_passes leftPasses (Runs.of_runsAs (nullCheck1_runsAs _ _ _ _ _) ?_)
      rcases right ⟨some l :: st.stack, c1⟩ with deopt | rightYields
      · exact .deoptimize deopt
      cases rres with
      | error f => exact .inr (Yields.append_error rightYields)
      | ok rv =>
        obtain ⟨rightAdmits, c2, rightPasses⟩ := rightYields
        cases rv with
        | none =>
          exact .inr ⟨nullable (.inr rightAdmits), c2,
            rightPasses.append (nullCheck1r_jumps rightAdmits _ _ _ _)⟩
        | some r =>
          exact Runs.after_passes rightPasses (Runs.of_runsAs (nullCheck1r_runsAs _ _ _ _ _)
            (operation l r st.stack c2 leftAdmits rightAdmits))

/-! ### Comparisons -/

/-- Two exact operands meet as integers or as decimals, never as floats. -/
theorem compare_exact_numeric {l r : Eval} (lexact : l.sqlType ≠ .FLOAT64)
    (rexact : r.sqlType ≠ .FLOAT64) :
    (compareAsSameNumericType l.sqlType r.sqlType || compareAsDecimal l.sqlType r.sqlType) = true := by
  cases l <;> cases r <;>
    simp only [Eval.sqlType, ne_eq, not_true_eq_false] at lexact rexact ⊢ <;>
    decide

/-- The comparison code of two exact operands sets the flag to the interpreter's
`evalCompare`, negated when it compares them the other way round. -/
theorem compare_passes (l r : Eval) (lf rf : ℕ) (lexact : l.sqlType ≠ .FLOAT64)
    (rexact : r.sqlType ≠ .FLOAT64) (s : List (Option Eval)) (c : ℤ) :
    ∃ cmp, evalCompare l r = .ok cmp ∧
      Passes (Instr.exec newFromFloat row) (compileCompare ⟨l.sqlType, lf⟩ ⟨r.sqlType, rf⟩).1
        ⟨some r :: some l :: s, c⟩
        ⟨s, if (compileCompare ⟨l.sqlType, lf⟩ ⟨r.sqlType, rf⟩).2 then -cmp else cmp⟩ := by
  have numeric := compare_exact_numeric lexact rexact
  simp only [compileCompare, evalCompare, numeric, if_true]
  cases l <;> cases r <;> simp only [Eval.sqlType, ne_eq, not_true_eq_false] at lexact rexact
  all_goals simp [compareNumericTypes, Eval.compareNumeric, Eval.sqlType]
  case int64.int64 | int64.decimal | uint64.uint64 | uint64.decimal | decimal.decimal =>
    exact passes_single rfl
  case decimal.int64 d i =>
    rw [← Decimal.cmp_swap]
    exact passes_single rfl
  case decimal.uint64 d u =>
    rw [← Decimal.cmp_swap]
    exact passes_single rfl
  -- a negative signed operand is below every unsigned one
  case int64.uint64 i u =>
    split <;> exact ⟨_, rfl, passes_single (by simp [Instr.exec, VmState.compare, cmpnum, *])⟩
  case uint64.int64 u i =>
    split <;> refine ⟨_, rfl, passes_single ?_⟩ <;>
      simp [Instr.exec, VmState.compare, cmpnum, compareOrdered_swap u, *]

theorem makeboolean_eval (b : Bool) : (makeboolean b).eval = some (newEvalBool b) := by
  cases b <;> rfl

/-- A comparison other than `<=>` of two exact operands: the comparison code,
then the instruction that reads the flag, the other way round when swapped. -/
theorem compare_yields (op : ComparisonOp) (nullSafe : op ≠ .compareNullSafeEQ) {lt rt : CType}
    {l r : Eval} (left : lt.Admits (some l)) (right : rt.Admits (some r)) (flag : ℕ)
    (s : List (Option Eval)) (c : ℤ) :
    Yields newFromFloat row ((compileCompare lt rt).1 ++ [op.flagInstr (compileCompare lt rt).2])
      ⟨.INT64, flag⟩ ⟨some r :: some l :: s, c⟩ s
      ((liftError (op.compare (some l) (some r))).map Boolean.eval) := by
  obtain ⟨lty, lf⟩ := lt
  obtain ⟨rty, rf⟩ := rt
  obtain ⟨rfl, lexact⟩ := left
  obtain ⟨rfl, rexact⟩ := right
  obtain ⟨cmp, compared, passes⟩ := @compare_passes newFromFloat row l r lf rf lexact rexact s c
  refine Yields.after_passes passes ?_
  generalize (compileCompare ⟨l.sqlType, lf⟩ ⟨r.sqlType, rf⟩).2 = swapped
  cases op <;> simp only [ComparisonOp.compare, evalCompareAll, compared, except_map_ok,
    liftError_ok, makeboolean2, Bool.false_eq_true, if_false, makeboolean_eval] <;>
    first | exact absurd rfl nullSafe | skip
  all_goals refine ⟨⟨rfl, by simp [newEvalBool, Eval.sqlType]⟩, if swapped then -cmp else cmp,
    passes_single ?_⟩
  all_goals cases swapped <;>
    simp [ComparisonOp.flagInstr, Instr.exec, VmState.push, newEvalBool]


theorem admits_newEvalBool (flag : ℕ) (b : Bool) :
    CType.Admits ⟨.INT64, flag⟩ (some (newEvalBool b)) :=
  ⟨rfl, by simp [newEvalBool, Eval.sqlType]⟩

/-- `<=>` of two values is `=` of them. -/
theorem compare_nullSafe_some (l r : Eval) :
    ComparisonOp.compareNullSafeEQ.compare (some l) (some r) =
      ComparisonOp.compareEQ.compare (some l) (some r) := by
  simp [ComparisonOp.compare, evalCompareNullSafe, evalCompareAll, makeboolean2, Function.comp_def]

/-- On a NULL operand, `CmpNullSafe` compares the nullness of the two operands
and jumps to `Cmp_eq`. -/
theorem nullSafe_null_yields {l r : Option Eval} (null : l = none ∨ r = none)
    (cmpCode : List Instr) (flag : ℕ) (s : List (Option Eval)) (c : ℤ) :
    Yields newFromFloat row (.cmp_nullsafe cmpCode.length :: cmpCode ++ [.cmp_eq]) ⟨.INT64, flag⟩
      ⟨r :: l :: s, c⟩ s
      ((liftError (ComparisonOp.compareNullSafeEQ.compare l r)).map Boolean.eval) := by
  have jump : Passes (Instr.exec newFromFloat row) (.cmp_nullsafe cmpCode.length :: cmpCode)
      ⟨r :: l :: s, c⟩ ⟨s, if l = r then 0 else 1⟩ :=
    passes_jump (by simp [Instr.exec, null])
  refine Yields.after_passes jump ?_
  rcases l with _ | l <;> rcases r with _ | r <;> simp only [reduceCtorEq, or_self] at null
  all_goals simp only [ComparisonOp.compare, evalCompareNullSafe, except_map_ok, liftError_ok,
    makeboolean_eval]
  all_goals exact ⟨admits_newEvalBool _ _, _, passes_single (by simp [Instr.exec, VmState.push]; rfl)⟩

/-! ### Nodes with one operand -/

/-- A node that evaluates its operand, NULL when it is: its code is the
operand's, a `NullCheck1` that jumps to its end, and the operation. -/
theorem unary_computes {argCode opCode : List Instr} {argType ct : CType}
    {ares : Except Failure (Option Eval)} {f : Eval → Except Failure (Option Eval)}
    (arg : Computes newFromFloat row argCode argType ares)
    (nullable : argType.nullable = true → ct.nullable = true)
    (operation : ∀ v s c, argType.Admits (some v) →
      Runs newFromFloat row opCode ct ⟨some v :: s, c⟩ s (f v)) :
    Computes newFromFloat row (argCode ++ compileNullCheck1 argType opCode) ct
      (do
        let some v ← ares | return none
        f v) := by
  intro st
  rcases arg st with deopt | argYields
  · exact .deoptimize deopt
  cases ares with
  | error f => exact .inr (Yields.append_error argYields)
  | ok v =>
    obtain ⟨argAdmits, c1, argPasses⟩ := argYields
    cases v with
    | none =>
      exact .inr ⟨nullable argAdmits, c1, argPasses.append (nullCheck1_jumps argAdmits _ _ _)⟩
    | some v =>
      exact Runs.after_passes argPasses (Runs.of_runsAs (nullCheck1_runsAs _ _ _ _ _)
        (operation v st.stack c1 argAdmits))

/-- Unary minus of an exact operand of its static type. `math.MinInt64`, and
an unsigned value beyond it, de-optimize: the interpreter makes their negation
a decimal. A decimal zero stays as it is in the interpreter and is negated in
place by the VM, which gives the same decimal. -/
theorem neg_runs {ct : CType} {v : Eval} (admits : ct.Admits (some v)) (plain : ct.flag < 2 ^ 8)
    (s : List (Option Eval)) (c : ℤ) :
    Runs newFromFloat row ((compileToNumeric ct 1 false).1 ++
        (compileNeg (compileToNumeric ct 1 false).2).1)
      ⟨(compileNeg (compileToNumeric ct 1 false).2).2,
        nullableFlags (compileToNumeric ct 1 false).2.flag⟩
      ⟨some v :: s, c⟩ s (.ok (some v.negate)) := by
  rw [compileToNumeric_of_admits admits, List.nil_append, compileNeg_plain _ plain]
  obtain ⟨typ, flag⟩ := ct
  obtain ⟨rfl, exact⟩ := admits
  cases v with
  | int64 i =>
    simp only [Eval.sqlType, compileNeg, Nat.zero_and, ne_eq, not_true_eq_false, if_false]
    by_cases min : i = -2 ^ 63
    · exact .inl (fails_single (by simp [Instr.exec, VmState.convert, min]))
    · rw [Eval.negate, if_neg min]
      refine .inr ⟨⟨rfl, by simp [Eval.sqlType]⟩, c, passes_single ?_⟩
      simp only [Instr.exec, VmState.convert, Nat.sub_self, List.getElem?_cons_zero,
        asInt64_int64, except_bind_ok, if_neg min, except_pure, except_map_ok, List.set_cons_zero]
  | uint64 u =>
    simp only [Eval.sqlType, compileNeg, Nat.zero_and, ne_eq, not_true_eq_false, if_false]
    by_cases beyond : 2 ^ 63 + 1 ≤ u
    · refine .inl (fails_single ?_)
      simp only [Instr.exec, VmState.convert, Nat.sub_self, List.getElem?_cons_zero,
        asUint64_uint64, except_bind_ok, if_pos beyond, except_map_error]
    · rw [Eval.negate, if_neg beyond]
      refine .inr ⟨⟨rfl, by simp [Eval.sqlType]⟩, c, passes_single ?_⟩
      simp only [Instr.exec, VmState.convert, Nat.sub_self, List.getElem?_cons_zero,
        asUint64_uint64, except_bind_ok, if_neg beyond, except_pure, except_map_ok,
        List.set_cons_zero]
  | float f => exact absurd rfl exact
  | decimal d =>
    simp only [Eval.sqlType, compileNeg]
    -- the interpreter keeps a zero as it is, the VM negates it to the same decimal
    have negated : (Eval.decimal d).negate = .decimal ⟨d.dec.neg, d.length⟩ := by
      rw [Eval.negate]
      split
      case isTrue zero => rw [Decimal.neg_of_isZero zero]
      case isFalse => rfl
    rw [negated]
    exact .inr ⟨⟨rfl, by simp [Eval.sqlType]⟩, c,
      passes_single (by simp [Instr.exec, VmState.convert])⟩

theorem makeboolean_not (b : Bool) : (makeboolean b).not = makeboolean !b := by
  cases b <;> rfl

/-- `NOT` of an exact operand of its static type. -/
theorem not_yields {ct : CType} {v : Eval} (admits : ct.Admits (some v)) (flag : ℕ)
    (s : List (Option Eval)) (c : ℤ) :
    Yields newFromFloat row (compileNot ct) ⟨.INT64, flag⟩ ⟨some v :: s, c⟩ s
      (.ok (evalIsTruthy (some v)).not.eval) := by
  obtain ⟨typ, flag'⟩ := ct
  obtain ⟨rfl, exact⟩ := admits
  cases v
  case float f => exact absurd rfl exact
  all_goals simp only [evalIsTruthy, makeboolean_not, makeboolean_eval]
  all_goals refine ⟨admits_newEvalBool _ _, c, passes_single ?_⟩
  all_goals simp [Instr.exec, VmState.convert]

/-- `NOT` of NULL is NULL. -/
theorem notExpr_eval (inner : IR) :
    (IR.notExpr inner).eval newFromFloat row =
      (do
        let some v ← inner.eval newFromFloat row | return none
        return (evalIsTruthy (some v)).not.eval) := by
  simp only [IR.eval]
  cases inner.eval newFromFloat row with
  | error f => rfl
  | ok v => cases v <;> rfl

/-- `IS` reads its operand, NULL or not, and pushes a truth value. -/
theorem is_computes {argCode : List Instr} {argType : CType} {ares : Except Failure (Option Eval)}
    (arg : Computes newFromFloat row argCode argType ares) (op : Sqlparser.IsExprOperator)
    (flag : ℕ) :
    Computes newFromFloat row (argCode ++ [.is op]) ⟨.INT64, flag⟩
      (do
        let e ← ares
        return some (newEvalBool (isCheck op e))) := by
  intro st
  rcases arg st with deopt | argYields
  · exact .deoptimize deopt
  cases ares with
  | error f => exact .inr (Yields.append_error argYields)
  | ok v =>
    obtain ⟨-, c1, argPasses⟩ := argYields
    exact .inr ⟨admits_newEvalBool _ _, c1, argPasses.append (passes_single rfl)⟩

/-! ### Comparison nodes -/

/-- Outside `<=>`, a comparison is NULL when an operand is. -/
theorem comparisonExpr_eval {op : ComparisonOp} (nullSafe : op ≠ .compareNullSafeEQ)
    (left right : IR) :
    (IR.comparisonExpr op left right).eval newFromFloat row =
      (do
        let some l ← left.eval newFromFloat row | return none
        let some r ← right.eval newFromFloat row | return none
        (liftError (op.compare (some l) (some r))).map Boolean.eval) := by
  simp only [IR.eval, ne_eq, nullSafe, not_false_eq_true, true_and]
  cases left.eval newFromFloat row with
  | error f => rfl
  | ok l =>
    cases l with
    | none => rfl
    | some l =>
      cases right.eval newFromFloat row with
      | error f => rfl
      | ok r => cases r <;> simp

theorem comparisonExpr_eval_nullSafe (left right : IR) :
    (IR.comparisonExpr .compareNullSafeEQ left right).eval newFromFloat row =
      (do
        let l ← left.eval newFromFloat row
        let r ← right.eval newFromFloat row
        (liftError (ComparisonOp.compareNullSafeEQ.compare l r)).map Boolean.eval) := by
  simp [IR.eval]

/-- `<=>`: both operands are evaluated, `CmpNullSafe` settles a NULL operand,
and two values are compared as by `=`. -/
theorem nullSafe_computes {leftCode rightCode : List Instr} {lt rt : CType}
    {lres rres : Except Failure (Option Eval)}
    (left : Computes newFromFloat row leftCode lt lres)
    (right : Computes newFromFloat row rightCode rt rres) (flag : ℕ) :
    Computes newFromFloat row (leftCode ++ rightCode ++
        .cmp_nullsafe (compileCompare lt rt).1.length :: (compileCompare lt rt).1 ++ [.cmp_eq])
      ⟨.INT64, flag⟩
      (do
        let l ← lres
        let r ← rres
        (liftError (ComparisonOp.compareNullSafeEQ.compare l r)).map Boolean.eval) := by
  rw [List.append_assoc, List.append_assoc]
  intro st
  rcases left st with deopt | leftYields
  · exact .deoptimize deopt
  cases lres with
  | error f => exact .inr (Yields.append_error leftYields)
  | ok lv =>
    obtain ⟨leftAdmits, c1, leftPasses⟩ := leftYields
    refine Runs.after_passes leftPasses ?_
    rcases right ⟨lv :: st.stack, c1⟩ with deopt | rightYields
    · exact .deoptimize deopt
    cases rres with
    | error f => exact .inr (Yields.append_error rightYields)
    | ok rv =>
      obtain ⟨rightAdmits, c2, rightPasses⟩ := rightYields
      refine Runs.after_passes rightPasses (.inr ?_)
      simp only [except_bind_ok]
      cases lv with
      | none => exact nullSafe_null_yields (.inl rfl) _ flag _ _
      | some l =>
        cases rv with
        | none => exact nullSafe_null_yields (.inr rfl) _ flag _ _
        | some r =>
          -- two values: `CmpNullSafe` falls through to the comparison of `=`
          rw [compare_nullSafe_some]
          exact Yields.of_runsAs (runsAs_cons rfl)
            (compare_yields .compareEQ (by decide) leftAdmits rightAdmits flag _ c2)

/-! ### Logical nodes

The interpreter's `AND`, `OR` and `XOR` are the three-valued connectives of
SQL, evaluated left to right: the right operand is evaluated only when the left
one does not decide the result. The VM first brings each operand to a truth
entry, NULL or an `INT64`, and its check on the left entry jumps over the right
operand exactly when the left one decides. -/

/-- Three-valued `AND`, `OR` and `XOR`. -/
def OpLogical.combine : OpLogical → Boolean → Boolean → Boolean
  | .opLogicalAnd, .boolFalse, _ | .opLogicalAnd, _, .boolFalse => .boolFalse
  | .opLogicalAnd, .boolTrue, .boolTrue => .boolTrue
  | .opLogicalAnd, _, _ => .boolNULL
  | .opLogicalOr, .boolTrue, _ | .opLogicalOr, _, .boolTrue => .boolTrue
  | .opLogicalOr, .boolFalse, .boolFalse => .boolFalse
  | .opLogicalOr, _, _ => .boolNULL
  | .opLogicalXor, .boolNULL, _ | .opLogicalXor, _, .boolNULL => .boolNULL
  | .opLogicalXor, a, b => makeboolean (a ≠ b)

/-- The result that the left operand decides alone. -/
def OpLogical.decides : OpLogical → Boolean → Option Boolean
  | .opLogicalAnd, .boolFalse => some .boolFalse
  | .opLogicalOr, .boolTrue => some .boolTrue
  | .opLogicalXor, .boolNULL => some .boolNULL
  | _, _ => none

/-- The interpreter's connectives are the three-valued ones, short-circuited. -/
theorem OpLogical.eval_ok (op : OpLogical) (l : Option Eval)
    (right : Unit → Except Failure (Option Eval)) :
    op.eval (.ok l) right =
      match op.decides (evalIsTruthy l) with
      | some b => .ok b
      | none => (right ()).map fun r => op.combine (evalIsTruthy l) (evalIsTruthy r) := by
  simp only [OpLogical.eval, except_bind_ok]
  generalize evalIsTruthy l = a
  rcases right () with f | r
  · cases op <;> cases a <;> rfl
  · simp only [except_bind_ok, except_map_ok]
    generalize evalIsTruthy r = b
    cases op <;> cases a <;> cases b <;> rfl

theorem OpLogical.decides_null {op : OpLogical} {a : Boolean}
    (null : op.decides a = some .boolNULL) : a = .boolNULL := by
  cases op <;> cases a <;> simp_all [decides]

theorem OpLogical.combine_null {op : OpLogical} {a b : Boolean}
    (null : op.combine a b = .boolNULL) : a = .boolNULL ∨ b = .boolNULL := by
  cases op <;> cases a <;> cases b <;> simp_all [combine, makeboolean]

theorem evalIsTruthy_eq_boolNULL {v : Option Eval} : evalIsTruthy v = .boolNULL ↔ v = none := by
  rcases v with _ | (_ | _ | _ | _) <;> simp [evalIsTruthy, makeboolean] <;> split <;> simp

/-- A truth value that is NULL only when an operand of a nullable type is NULL. -/
theorem admits_boolean {flag : ℕ} (b : Boolean)
    (nullable : b = .boolNULL → CType.nullable ⟨.INT64, flag⟩ = true) :
    CType.Admits ⟨.INT64, flag⟩ b.eval := by
  cases b with
  | boolFalse => exact ⟨rfl, by simp [Eval.sqlType]⟩
  | boolTrue => exact ⟨rfl, by simp [Eval.sqlType]⟩
  | boolNULL => exact nullable rfl

theorem nullable_of_truthy_null {ct : CType} {v : Option Eval} (admits : ct.Admits v)
    (null : evalIsTruthy v = .boolNULL) : ct.nullable = true := by
  rw [evalIsTruthy_eq_boolNULL] at null
  subst null
  exact admits

/-- `compileTruth` brings an operand to a truth entry, NULL or an `INT64`, of
the same truth value. -/
theorem truth_passes {ct : CType} {v : Option Eval} (admits : ct.Admits v)
    (s : List (Option Eval)) (c : ℤ) :
    ∃ t : Option ℤ, Passes (Instr.exec newFromFloat row) (compileTruth ct) ⟨v :: s, c⟩
      ⟨t.map .int64 :: s, c⟩ ∧ evalIsTruthy (t.map .int64) = evalIsTruthy v := by
  obtain ⟨typ, flag⟩ := ct
  cases v with
  | none =>
    refine ⟨none, ?_, rfl⟩
    unfold compileTruth
    split
    all_goals first
      | exact passes_nil _
      | exact passes_single (by simp [Instr.exec, VmState.convert])
  | some v =>
    obtain ⟨rfl, exact⟩ := admits
    cases v with
    | int64 i => exact ⟨some i, passes_nil _, rfl⟩
    | uint64 u =>
      refine ⟨some (if u ≠ 0 then 1 else 0), passes_single ?_, ?_⟩
      · simp [Instr.exec, VmState.convert, newEvalBool]
      · by_cases zero : u = 0 <;> simp [evalIsTruthy, zero]
    | float f => exact absurd rfl exact
    | decimal d =>
      refine ⟨some (if !d.dec.isZero then 1 else 0), passes_single ?_, ?_⟩
      · simp [Instr.exec, VmState.convert, newEvalBool]
      · cases zero : d.dec.isZero <;> simp [evalIsTruthy, zero]

/-- The check on the left truth entry: it jumps over the right operand with
the result when the left entry decides it, and falls through otherwise. -/
theorem compileLeft_exec (op : OpLogical) (t : Option ℤ) (rest : List Instr)
    (s : List (Option Eval)) (c : ℤ) :
    Instr.exec newFromFloat row (op.compileLeft rest) ⟨t.map .int64 :: s, c⟩ =
      match op.decides (evalIsTruthy (t.map .int64)) with
      | some b => .ok (⟨b.eval :: s, c⟩, rest.length)
      | none => .ok (⟨t.map .int64 :: s, c⟩, 0) := by
  rcases t with _ | i
  · cases op <;> rfl
  · by_cases zero : i = 0
    · subst zero
      cases op <;> rfl
    · cases op <;> simp [OpLogical.compileLeft, Instr.exec, evalIsTruthy, makeboolean,
        OpLogical.decides, Boolean.eval, zero]

/-- The instruction on the two truth entries, when the left one does not decide
the result. -/
theorem compileRight_exec (op : OpLogical) (tl tr : Option ℤ)
    (undecided : op.decides (evalIsTruthy (tl.map .int64)) = none) (s : List (Option Eval))
    (c : ℤ) :
    Instr.exec newFromFloat row op.compileRight ⟨tr.map .int64 :: tl.map .int64 :: s, c⟩ =
      .ok (⟨(op.combine (evalIsTruthy (tl.map .int64)) (evalIsTruthy (tr.map .int64))).eval :: s,
        c⟩, 0) := by
  rcases tl with _ | i <;> rcases tr with _ | j <;> cases op <;>
    simp_all [OpLogical.compileRight, Instr.exec, VmState.binary, evalIsTruthy, makeboolean,
      OpLogical.decides, OpLogical.combine, Boolean.eval, newEvalBool] <;>
    split_ifs <;> simp_all

/-- A logical node: the left operand's code and truth entry, the check that
may jump to the end with the result, the right operand's code and truth entry,
and the instruction that combines the two entries. -/
theorem logical_computes (op : OpLogical) {leftCode rightCode : List Instr} {lt rt : CType}
    {lres rres : Except Failure (Option Eval)}
    (left : Computes newFromFloat row leftCode lt lres)
    (right : Computes newFromFloat row rightCode rt rres) :
    Computes newFromFloat row
      (leftCode ++ compileTruth lt ++
        op.compileLeft (rightCode ++ compileTruth rt ++ [op.compileRight]) ::
          (rightCode ++ compileTruth rt ++ [op.compileRight]))
      ⟨.INT64, ((lt.flag ||| rt.flag) &&& flagNullable) ||| flagIsBoolean⟩
      ((op.eval lres fun _ => rres).map Boolean.eval) := by
  intro st
  rcases left st with deopt | leftYields
  · exact .inl (Fails.append (Fails.append deopt))
  cases lres with
  | error f => exact .inr (Fails.append (Fails.append leftYields))
  | ok lv =>
    obtain ⟨leftAdmits, c1, leftPasses⟩ := leftYields
    obtain ⟨tl, leftTruth, truthL⟩ := truth_passes leftAdmits st.stack c1
    refine Runs.after_passes (leftPasses.append leftTruth) ?_
    rw [OpLogical.eval_ok, ← truthL]
    cases decided : op.decides (evalIsTruthy (tl.map .int64)) with
    | some b =>
      -- the left operand decides: the check jumps to the end with the result
      refine .inr ⟨admits_boolean b fun null => ?_, c1, passes_jump ?_⟩
      · rw [null] at decided
        have nullL := truthL ▸ OpLogical.decides_null decided
        simp [nullable_of_truthy_null leftAdmits nullL]
      · rw [compileLeft_exec, decided]
    | none =>
      refine Runs.after_passes (passes_single (by rw [compileLeft_exec, decided])) ?_
      rcases right ⟨tl.map .int64 :: st.stack, c1⟩ with deopt | rightYields
      · exact .inl (Fails.append (Fails.append deopt))
      cases rres with
      | error f => exact .inr (Fails.append (Fails.append rightYields))
      | ok rv =>
        obtain ⟨rightAdmits, c2, rightPasses⟩ := rightYields
        obtain ⟨tr, rightTruth, truthR⟩ := truth_passes rightAdmits (tl.map .int64 :: st.stack) c2
        simp only [except_map_ok, ← truthR]
        refine .inr ⟨admits_boolean _ fun null => ?_, c2,
          (rightPasses.append rightTruth).append (passes_single ?_)⟩
        · rcases OpLogical.combine_null null with nullL | nullR
          · simp [nullable_of_truthy_null leftAdmits (truthL ▸ nullL)]
          · simp [nullable_of_truthy_null rightAdmits (truthR ▸ nullR)]
        · rw [compileRight_exec op tl tr decided]

/-! ### Leaves -/

theorem literal_computes {inner : Option Eval} (frag : (IR.literal inner).InFragment = true) :
    Computes newFromFloat row (IR.literal inner).compile.1 (IR.literal inner).compile.2
      ((IR.literal inner).eval newFromFloat row) := by
  intro st
  rcases inner with _ | i | u | f | d
  · exact .inr ⟨rfl, st.cmp, passes_single rfl⟩
  · exact .inr ⟨⟨rfl, by simp [Eval.sqlType]⟩, st.cmp, passes_single rfl⟩
  · exact .inr ⟨⟨rfl, by simp [Eval.sqlType]⟩, st.cmp, passes_single rfl⟩
  · simp [IR.InFragment] at frag
  · exact .inr ⟨⟨rfl, by simp [Eval.sqlType]⟩, st.cmp, passes_single rfl⟩

/-- A column pushes the row's value. Its last branch, `PushNull`, is reached only
by a column of a NULL type, whose value in a conforming row is NULL. -/
theorem column_computes {c : Column} (conforms : c.Conforms row) :
    Computes newFromFloat row (IR.column c).compile.1 (IR.column c).compile.2
      ((IR.column c).eval newFromFloat row) := by
  obtain ⟨v, get, admits⟩ := conforms
  have eval : (IR.column c).eval newFromFloat row = .ok v := by simp [IR.eval, get]
  rw [eval]
  intro st
  refine .inr ⟨admits, st.cmp, ?_⟩
  simp only [IR.compile, Column.compile] at admits ⊢
  generalize (if c.nullable = true then flagNullable else 0) = flag at admits ⊢
  split_ifs at admits ⊢ with signed unsigned decimal
  · exact passes_single (by simp [Instr.exec, get, VmState.push])
  · exact passes_single (by simp [Instr.exec, get, VmState.push])
  · exact passes_single (by simp [Instr.exec, get, VmState.push])
  · rcases v with _ | w
    · exact passes_single rfl
    · obtain ⟨typ, exact⟩ := admits
      dsimp only at typ
      rw [← typ] at signed unsigned decimal
      cases w
      case int64 => exact absurd (show IsSigned .INT64 = true by decide) signed
      case uint64 => exact absurd (show IsUnsigned .UINT64 = true by decide) unsigned
      case float => exact absurd rfl exact
      case decimal => exact absurd (show IsDecimal .DECIMAL = true by decide) decimal

/-! ### Each node from its operands -/

section Nodes

variable {left right inner : IR}

theorem arithmeticExpr_refines (op : OpArith)
    (typed : !(op == .opArithIntDiv && mistypedIntDiv left.compile.2.typ right.compile.2.typ))
    (leftRefines : left.Refines newFromFloat row) (rightRefines : right.Refines newFromFloat row) :
    (IR.arithmeticExpr op left right).Refines newFromFloat row := by
  unfold IR.Refines
  rw [compile_arithmeticExpr]
  refine binary_computes leftRefines rightRefines ?_ fun l r s c leftAdmits rightAdmits => ?_
  · -- `+`, `-` and `*` keep the operands' NULL flags, the divisions are always nullable
    intro nullable
    cases op <;> simp [arithFlags, nullable]
  · rw [compileToNumeric_of_admits leftAdmits, compileToNumeric_of_admits rightAdmits]
    exact .inr (arith_yields op leftAdmits rightAdmits typed s c)

theorem negateExpr_refines (innerRefines : inner.Refines newFromFloat row) :
    (IR.negateExpr inner).Refines newFromFloat row := by
  unfold IR.Refines
  rw [compile_negateExpr]
  refine unary_computes innerRefines (fun nullable => by simp [nullable])
    fun v s c admits => neg_runs admits (IR.compile_flag_lt inner) s c

theorem comparisonExpr_refines (op : ComparisonOp) (leftRefines : left.Refines newFromFloat row)
    (rightRefines : right.Refines newFromFloat row) :
    (IR.comparisonExpr op left right).Refines newFromFloat row := by
  unfold IR.Refines
  rw [compile_comparisonExpr]
  by_cases nullSafe : op = .compareNullSafeEQ
  · subst nullSafe
    rw [if_pos rfl, comparisonExpr_eval_nullSafe]
    exact nullSafe_computes leftRefines rightRefines _
  · rw [if_neg nullSafe, comparisonExpr_eval nullSafe]
    refine binary_computes leftRefines rightRefines (fun nullable => ?_)
      fun l r s c leftAdmits rightAdmits =>
        .inr (compare_yields op nullSafe leftAdmits rightAdmits _ s c)
    simpa using nullable

theorem logicalExpr_refines (op : OpLogical) (leftRefines : left.Refines newFromFloat row)
    (rightRefines : right.Refines newFromFloat row) :
    (IR.logicalExpr op left right).Refines newFromFloat row :=
  logical_computes op leftRefines rightRefines

theorem notExpr_refines (innerRefines : inner.Refines newFromFloat row) :
    (IR.notExpr inner).Refines newFromFloat row := by
  unfold IR.Refines
  rw [compile_notExpr, notExpr_eval]
  exact unary_computes innerRefines (fun nullable => by simp [nullable])
    fun v s c admits => .inr (not_yields admits _ s c)

theorem isExpr_refines (op : Sqlparser.IsExprOperator)
    (innerRefines : inner.Refines newFromFloat row) :
    (IR.isExpr inner op).Refines newFromFloat row :=
  is_computes innerRefines op _

end Nodes

/-- The compiled code of every expression of the fragment computes the
interpreter's value, on every row that conforms to its columns; by induction
on the expression, each node from its operands. -/
theorem compile_refines (e : IR) (frag : e.InFragment = true)
    (conforms : ∀ c ∈ e.columns, c.Conforms row) : e.Refines newFromFloat row := by
  induction e with
  | literal inner => exact literal_computes frag
  | column c => exact column_computes (conforms c (List.mem_singleton_self c))
  | arithmeticExpr op left right leftIH rightIH =>
    simp only [IR.InFragment, Bool.and_eq_true] at frag
    simp only [IR.columns, List.mem_append] at conforms
    exact arithmeticExpr_refines op frag.2 (leftIH frag.1.1 fun c mem => conforms c (.inl mem))
      (rightIH frag.1.2 fun c mem => conforms c (.inr mem))
  | negateExpr inner ih => exact negateExpr_refines (ih frag conforms)
  | comparisonExpr op left right leftIH rightIH =>
    simp only [IR.InFragment, Bool.and_eq_true] at frag
    simp only [IR.columns, List.mem_append] at conforms
    exact comparisonExpr_refines op (leftIH frag.1 fun c mem => conforms c (.inl mem))
      (rightIH frag.2 fun c mem => conforms c (.inr mem))
  | logicalExpr op left right leftIH rightIH =>
    simp only [IR.InFragment, Bool.and_eq_true] at frag
    simp only [IR.columns, List.mem_append] at conforms
    exact logicalExpr_refines op (leftIH frag.1 fun c mem => conforms c (.inl mem))
      (rightIH frag.2 fun c mem => conforms c (.inr mem))
  | notExpr inner ih => exact notExpr_refines (ih frag conforms)
  | isExpr inner op ih => exact isExpr_refines op (ih frag conforms)

end Simulation

/-! ## The two evaluators agree -/

section Evaluate

variable (newFromFloat : ℚ → Decimal) (row : Row)

/-- `EvaluateVM` agrees with `EvaluateAST` on every expression of the fragment,
on every row that conforms to its columns. Where the code de-optimizes,
`EvaluateVM` runs the interpreter itself. -/
theorem evaluateVM_eq_evaluateAST (e : IR) (frag : e.InFragment = true)
    (conforms : ∀ c ∈ e.columns, c.Conforms row) :
    evaluateVM newFromFloat row e = evaluateAST newFromFloat row e := by
  unfold evaluateAST
  have refines := @compile_refines newFromFloat row e frag conforms
  rcases refines ⟨[], 0⟩ with deopt | yields
  · rw [evaluateVM, deopt.exec_eq]
  · cases result : e.eval newFromFloat row with
    | ok v =>
      rw [result] at yields
      obtain ⟨-, cmp, passes⟩ := yields
      rw [evaluateVM, passes.exec_eq]
    | error f =>
      rw [result] at yields
      rw [evaluateVM, Fails.exec_eq yields]
      cases f <;> simp [result]

/-- `env.Evaluate` of a translated expression of the fragment is the
interpreter's value. -/
theorem evaluate_eq_evaluateAST (e : IR) (frag : e.InFragment = true)
    (conforms : ∀ c ∈ e.columns, c.Conforms row) :
    evaluate newFromFloat row e = evaluateAST newFromFloat row e := by
  cases e
  case literal | column => rfl
  all_goals exact evaluateVM_eq_evaluateAST newFromFloat row _ frag conforms

/-- `18446744073709551615 DIV 1 AND 1`: the compiler types the `DIV` as `INT64`,
but both the VM and the interpreter make it a `BIGINT UNSIGNED`. With no
conversion to a truth value before it, `AND` reads an entry that is no `INT64`
as NULL. -/
theorem unsigned_div_and_is_null_in_vm :
    let div : IR := .arithmeticExpr .opArithIntDiv
      (.literal (some (.uint64 18446744073709551615))) (.literal (some (.int64 1)))
    let e : IR := .logicalExpr .opLogicalAnd div (.literal (some (.int64 1)))
    div.compile.2.typ = .INT64 ∧
      evaluateAST newFromFloat [] div = .ok (some (.uint64 18446744073709551615)) ∧
      evaluate newFromFloat [] e = .ok none ∧
      evaluateAST newFromFloat [] e = .ok (some (.int64 1)) := by
  intro div e
  have code : e.compile.1 = [.pushLiteral (.uint64 18446744073709551615),
      .pushLiteral (.int64 1), .intDiv_ui, .andCheck 2, .pushLiteral (.int64 1), .andRight] := by
    decide
  have run : Passes (Instr.exec newFromFloat []) e.compile.1 ⟨[], 0⟩ ⟨[none], 0⟩ := by
    rw [code]
    exact .cons rfl <| .cons rfl <| .cons rfl <| .cons rfl <| .cons rfl <| .cons rfl <|
      passes_nil _
  refine ⟨by decide, rfl, ?_, rfl⟩
  show evaluateVM newFromFloat [] e = _
  rw [evaluateVM, run.exec_eq]

end Evaluate

end Vitess.Evalengine
