import Vitess.Sqlparser.Ast

/-!
# The expression grammar of `sql.y`

The productions of `expression`, `bool_pri`, `predicate`, `bit_expr` and
`simple_expr` in `go/vt/sqlparser/sql.y` whose tokens the printer of
`Vitess.Sqlparser.Ast` writes, with their semantic actions: `Derives N w e` says
that the nonterminal `N` derives the tokens `w` and builds the tree `e`. The
productions left out (function calls, subqueries, `IN`, `REGEXP`, `COLLATE`,
`INTERVAL`, `CASE`, variables, …) each need a token that the printer never
writes for these trees.

The `%prec` declarations of the grammar only choose among these derivations when
a token string has several, so a tree that no derivation of a string builds is a
tree the parser cannot return for it.

The layers matter: the left operand of a comparison is a `bool_pri`, and an
`IS TRUE` (or `FALSE`, `NOT TRUE`, `NOT FALSE`) is an `expression`, not a
`bool_pri`; without a leading parenthesis no `bool_pri` builds one
(`isExpr_of_lower`).
-/

namespace Vitess.Sqlparser

/-- The nonterminals. -/
inductive Nonterminal where
  | expression | boolPri | predicate | bitExpr | simpleExpr
  deriving DecidableEq, Repr

/-- `is_suffix`. -/
inductive IsSuffix : List Token → IsExprOperator → Prop where
  | isTrue : IsSuffix [.TRUE] .IsTrueOp
  | isNotTrue : IsSuffix [.NOT, .TRUE] .IsNotTrueOp
  | isFalse : IsSuffix [.FALSE] .IsFalseOp
  | isNotFalse : IsSuffix [.NOT, .FALSE] .IsNotFalseOp

/-- `compare`. -/
inductive Compare : Token → ComparisonExprOperator → Prop where
  | equal : Compare (.char '=') .EqualOp
  | lessThan : Compare (.char '<') .LessThanOp
  | greaterThan : Compare (.char '>') .GreaterThanOp
  | lessEqual : Compare .LE .LessEqualOp
  | greaterEqual : Compare .GE .GreaterEqualOp
  | notEqual : Compare .NE .NotEqualOp
  | nullSafeEqual : Compare .NULL_SAFE_EQUAL .NullSafeEqualOp

/-- The binary operators of `bit_expr`; `%` and `MOD` both build `ModOp`. -/
inductive BitOperator : Token → BinaryExprOperator → Prop where
  | bitOr : BitOperator (.char '|') .BitOrOp
  | bitAnd : BitOperator (.char '&') .BitAndOp
  | shiftLeft : BitOperator .SHIFT_LEFT .ShiftLeftOp
  | shiftRight : BitOperator .SHIFT_RIGHT .ShiftRightOp
  | plus : BitOperator (.char '+') .PlusOp
  | minus : BitOperator (.char '-') .MinusOp
  | mult : BitOperator (.char '*') .MultOp
  | div : BitOperator (.char '/') .DivOp
  | mod : BitOperator (.char '%') .ModOp
  | intDiv : BitOperator .DIV .IntDivOp
  | bitXor : BitOperator (.char '^') .BitXorOp

/-- The derivations of the expression grammar, with the trees their actions
build. -/
inductive Derives : Nonterminal → List Token → Expr → Prop where
  | orExpr {w₁ w₂ l r} : Derives .expression w₁ l → Derives .expression w₂ r →
      Derives .expression (w₁ ++ .OR :: w₂) (.orExpr l r)
  | xorExpr {w₁ w₂ l r} : Derives .expression w₁ l → Derives .expression w₂ r →
      Derives .expression (w₁ ++ .XOR :: w₂) (.xorExpr l r)
  | andExpr {w₁ w₂ l r} : Derives .expression w₁ l → Derives .expression w₂ r →
      Derives .expression (w₁ ++ .AND :: w₂) (.andExpr l r)
  | notExpr {w e} : Derives .expression w e → Derives .expression (.NOT :: w) (.notExpr e)
  | isSuffix {w s l op} : Derives .boolPri w l → IsSuffix s op →
      Derives .expression (w ++ .IS :: s) (.isExpr l op)
  | ofBoolPri {w e} : Derives .boolPri w e → Derives .expression w e
  | isNull {w l} : Derives .boolPri w l → Derives .boolPri (w ++ [.IS, .NULL]) (.isExpr l .IsNullOp)
  | isNotNull {w l} : Derives .boolPri w l →
      Derives .boolPri (w ++ [.IS, .NOT, .NULL]) (.isExpr l .IsNotNullOp)
  | compare {w₁ w₂ t op l r} : Derives .boolPri w₁ l → Compare t op → Derives .predicate w₂ r →
      Derives .boolPri (w₁ ++ t :: w₂) (.comparisonExpr op l r)
  | ofPredicate {w e} : Derives .predicate w e → Derives .boolPri w e
  | between {w₁ w₂ w₃ l lower upper} : Derives .bitExpr w₁ l → Derives .bitExpr w₂ lower →
      Derives .predicate w₃ upper →
      Derives .predicate (w₁ ++ .BETWEEN :: w₂ ++ .AND :: w₃) (.betweenExpr true l lower upper)
  | notBetween {w₁ w₂ w₃ l lower upper} : Derives .bitExpr w₁ l → Derives .bitExpr w₂ lower →
      Derives .predicate w₃ upper →
      Derives .predicate (w₁ ++ .NOT :: .BETWEEN :: w₂ ++ .AND :: w₃)
        (.betweenExpr false l lower upper)
  | like {w₁ w₂ l r} : Derives .bitExpr w₁ l → Derives .simpleExpr w₂ r →
      Derives .predicate (w₁ ++ .LIKE :: w₂) (.comparisonExpr .LikeOp l r)
  | ofBitExpr {w e} : Derives .bitExpr w e → Derives .predicate w e
  | binaryExpr {w₁ w₂ t op l r} : Derives .bitExpr w₁ l → BitOperator t op →
      Derives .bitExpr w₂ r → Derives .bitExpr (w₁ ++ t :: w₂) (.binaryExpr op l r)
  | ofSimpleExpr {w e} : Derives .simpleExpr w e → Derives .bitExpr w e
  | colName {name} : Derives .simpleExpr [.ID name] (.colName name)
  | intVal {digits} : Derives .simpleExpr [.INTEGRAL digits] (.intVal digits)
  | strVal {text} : Derives .simpleExpr [.STRING text] (.strVal text)
  | boolTrue : Derives .simpleExpr [.TRUE] (.boolVal true)
  | boolFalse : Derives .simpleExpr [.FALSE] (.boolVal false)
  /-- `'+' simple_expr` keeps only the operand. -/
  | uplus {w e} : Derives .simpleExpr w e → Derives .simpleExpr (.char '+' :: w) e
  | uminus {w e} : Derives .simpleExpr w e →
      Derives .simpleExpr (.char '-' :: w) (.unaryExpr .UMinusOp e)
  | tilda {w e} : Derives .simpleExpr w e →
      Derives .simpleExpr (.char '~' :: w) (.unaryExpr .TildaOp e)
  | bang {w e} : Derives .simpleExpr w e →
      Derives .simpleExpr (.char '!' :: w) (.unaryExpr .BangOp e)
  /-- A parenthesized expression is a one-element tuple, which is its element. -/
  | paren {w e} : Derives .expression w e →
      Derives .simpleExpr (.char '(' :: w ++ [.char ')']) e

/-- The first tokens that can open a tree of another layer: a parenthesis, or
a unary plus, which builds no node. -/
def Opens (w : List Token) : Prop :=
  w.head? = some (.char '(') ∨ w.head? = some (.char '+')

/-- Every derivation reads at least one token. -/
theorem Derives.ne_nil {n : Nonterminal} {w : List Token} {e : Expr} (derives : Derives n w e) :
    w ≠ [] := by
  induction derives <;> simp_all

/-- Below `expression`, an `IS` node with a `TRUE` or `FALSE` suffix is only
built inside parentheses (or under a dropped unary plus): `bool_pri` builds
`IS NULL` and `IS NOT NULL` only. -/
theorem isExpr_of_lower {n : Nonterminal} {w : List Token} {e : Expr} (derives : Derives n w e)
    (lower : n ≠ .expression) {l : Expr} {op : IsExprOperator} (isNode : e = .isExpr l op) :
    op = .IsNullOp ∨ op = .IsNotNullOp ∨ Opens w := by
  induction derives generalizing l op with
  | orExpr | xorExpr | andExpr | notExpr | isSuffix | ofBoolPri => exact absurd rfl lower
  | isNull => cases isNode; exact .inl rfl
  | isNotNull => cases isNode; exact .inr (.inl rfl)
  | ofPredicate _ inductionHypothesis => exact inductionHypothesis nofun isNode
  | ofBitExpr _ inductionHypothesis => exact inductionHypothesis nofun isNode
  | ofSimpleExpr _ inductionHypothesis => exact inductionHypothesis nofun isNode
  | uplus => exact .inr (.inr (.inr rfl))
  | paren => exact .inr (.inr (.inl rfl))
  | compare | between | notBetween | like | binaryExpr | colName | intVal | strVal | boolTrue
    | boolFalse | uminus | tilda | bang => cases isNode

/-- A comparison other than `LIKE` is built by `bool_pri compare predicate`,
whose left operand is a `bool_pri` that starts the tokens, unless the tokens
open with a parenthesis or a unary plus. -/
theorem comparisonExpr_left {n : Nonterminal} {w : List Token} {e : Expr} (derives : Derives n w e)
    {op : ComparisonExprOperator} (notLike : op ≠ .LikeOp) {l r : Expr}
    (comparison : e = .comparisonExpr op l r) :
    Opens w ∨ ∃ w₁ rest, w = w₁ ++ rest ∧ Derives .boolPri w₁ l := by
  induction derives generalizing l r with
  | compare left _ _ =>
    cases comparison
    exact .inr ⟨_, _, rfl, left⟩
  | ofBoolPri _ inductionHypothesis => exact inductionHypothesis comparison
  | ofPredicate _ inductionHypothesis => exact inductionHypothesis comparison
  | ofBitExpr _ inductionHypothesis => exact inductionHypothesis comparison
  | ofSimpleExpr _ inductionHypothesis => exact inductionHypothesis comparison
  | like => cases comparison; exact absurd rfl notLike
  | uplus => exact .inl (.inr rfl)
  | paren => exact .inl (.inl rfl)
  | orExpr | xorExpr | andExpr | notExpr | isSuffix | isNull | isNotNull | between | notBetween
    | binaryExpr | colName | intVal | strVal | boolTrue | boolFalse | uminus | tilda | bang =>
    cases comparison

/-- `(a IS TRUE) = b` prints as `a is true = b`: the `IS` binds as tightly as the
comparison in the precedence table, so the printer adds no parentheses. No
derivation of those tokens builds the tree, since the left operand of `=` would
have to be a `bool_pri` that builds `a IS TRUE`. -/
theorem is_true_operand_does_not_reparse :
    format (.comparisonExpr .EqualOp (.isExpr (.colName "a") .IsTrueOp) (.colName "b")) =
        [.ID "a", .IS, .TRUE, .char '=', .ID "b"] ∧
      ∀ tree, Derives .expression [.ID "a", .IS, .TRUE, .char '=', .ID "b"] tree →
        tree ≠ .comparisonExpr .EqualOp (.isExpr (.colName "a") .IsTrueOp) (.colName "b") := by
  refine ⟨rfl, ?_⟩
  rintro tree derives rfl
  have notLike : ComparisonExprOperator.EqualOp ≠ .LikeOp := by decide
  rcases comparisonExpr_left derives notLike rfl with opens | ⟨w₁, rest, split, left⟩
  · simp [Opens] at opens
  · have leftOpens := isExpr_of_lower left nofun rfl
    have sameHead : w₁.head? = some (.ID "a") := by
      obtain ⟨first, tail, rfl⟩ := List.exists_cons_of_ne_nil left.ne_nil
      simp only [List.cons_append, List.cons.injEq] at split
      rw [← split.1]
      rfl
    simp [Opens, sameHead] at leftOpens

end Vitess.Sqlparser
