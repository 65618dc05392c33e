import Mathlib.Data.List.Basic

/-!
# Boolean and arithmetic expressions and how they print

The expression nodes of `go/vt/sqlparser/ast.go` that the precedence table
ranks, the table itself (`precedenceFor`, `precedence.go`) and the printer
(`Format` of each node with `astPrintf` and `needParens`, `tracked_buffer.go`).
The printer is modelled as the sequence of tokens it writes: `String` separates
them by blanks (a unary operator is glued to its operand), and the lexer of
`sql.y` reads the same tokens back. Column names are plain identifiers, which
`Format` writes unquoted.

An operand gets parentheses when its precedence binds looser than its parent's,
or equally loose on the right, except that a value or a node of `Syntactic`
precedence never does, and an `IS` under an `IS` always does.
-/

namespace Vitess.Sqlparser

/-- `ComparisonExprOperator`, the operators of the comparisons printed here. -/
inductive ComparisonExprOperator where
  | EqualOp | LessThanOp | GreaterThanOp | LessEqualOp | GreaterEqualOp | NotEqualOp
  | NullSafeEqualOp | LikeOp
  deriving DecidableEq, Repr

/-- `IsExprOperator`. -/
inductive IsExprOperator where
  | IsNullOp | IsNotNullOp | IsTrueOp | IsNotTrueOp | IsFalseOp | IsNotFalseOp
  deriving DecidableEq, Repr

/-- `BinaryExprOperator`, without the JSON operators. -/
inductive BinaryExprOperator where
  | BitAndOp | BitOrOp | BitXorOp | PlusOp | MinusOp | MultOp | DivOp | IntDivOp | ModOp
  | ShiftLeftOp | ShiftRightOp
  deriving DecidableEq, Repr

/-- `UnaryExprOperator`. -/
inductive UnaryExprOperator where
  | UPlusOp | UMinusOp | TildaOp | BangOp
  deriving DecidableEq, Repr

/-- The expression nodes: column names, integer, string and boolean literals,
and the operators. -/
inductive Expr where
  | colName (name : String)
  | intVal (digits : String)
  | strVal (text : String)
  | boolVal (value : Bool)
  | andExpr (left right : Expr)
  | orExpr (left right : Expr)
  | xorExpr (left right : Expr)
  | notExpr (expr : Expr)
  | comparisonExpr (operator : ComparisonExprOperator) (left right : Expr)
  | betweenExpr (isBetween : Bool) (left lower upper : Expr)
  | isExpr (left : Expr) (right : IsExprOperator)
  | binaryExpr (operator : BinaryExprOperator) (left right : Expr)
  | unaryExpr (operator : UnaryExprOperator) (expr : Expr)
  deriving DecidableEq, Repr

/-- The tokens of `sql.y` that these expressions print to; `char c` is a
one-character token. -/
inductive Token where
  | ID (name : String)
  | INTEGRAL (digits : String)
  | STRING (text : String)
  | TRUE | FALSE | NULL | AND | OR | XOR | NOT | IS | BETWEEN | LIKE | DIV
  | LE | GE | NE | NULL_SAFE_EQUAL | SHIFT_LEFT | SHIFT_RIGHT
  | char (c : Char)
  deriving DecidableEq, Repr

/-- `precedenceFor`: `P1` … `P17` as `1` … `17`, `Syntactic` as `0`. -/
def precedenceFor : Expr → ℕ
  | .orExpr _ _ => 16
  | .xorExpr _ _ => 15
  | .andExpr _ _ => 14
  | .notExpr _ => 13
  | .betweenExpr _ _ _ _ => 12
  | .comparisonExpr _ _ _ => 11
  | .isExpr _ _ => 11
  | .binaryExpr op _ _ =>
    match op with
    | .BitOrOp => 10
    | .BitAndOp => 9
    | .ShiftLeftOp | .ShiftRightOp => 8
    | .PlusOp | .MinusOp => 7
    | .DivOp | .MultOp | .ModOp | .IntDivOp => 6
    | .BitXorOp => 5
  | .unaryExpr op _ =>
    match op with
    | .UPlusOp | .UMinusOp => 4
    | .BangOp => 3
    | .TildaOp => 0
  | _ => 0

/-- `IsValue`: the integer and string literals. -/
def isValue : Expr → Bool
  | .intVal _ | .strVal _ => true
  | _ => false

/-- `areBothISExpr`. -/
def areBothISExpr : Expr → Expr → Bool
  | .isExpr _ _, .isExpr _ _ => true
  | _, _ => false

/-- `needParens(op, val, left)`. -/
def needParens (op val : Expr) (left : Bool) : Bool :=
  if isValue val then false
  else if areBothISExpr op val then true
  else
    let opBinding := precedenceFor op
    let valBinding := precedenceFor val
    if opBinding = 0 ∨ valBinding = 0 then false
    else if left then opBinding < valBinding
    else opBinding ≤ valBinding

/-- `astPrintf` on an operand: parentheses when the node checks them (its
precedence is not `Syntactic`) and `needParens` asks for them. -/
def operand (node val : Expr) (left : Bool) (tokens : List Token) : List Token :=
  if precedenceFor node ≠ 0 ∧ needParens node val left then
    .char '(' :: tokens ++ [.char ')']
  else tokens

/-- The token of a comparison operator (`ComparisonExprOperator.ToString`). -/
def ComparisonExprOperator.token : ComparisonExprOperator → Token
  | .EqualOp => .char '='
  | .LessThanOp => .char '<'
  | .GreaterThanOp => .char '>'
  | .LessEqualOp => .LE
  | .GreaterEqualOp => .GE
  | .NotEqualOp => .NE
  | .NullSafeEqualOp => .NULL_SAFE_EQUAL
  | .LikeOp => .LIKE

/-- The tokens of `IsExprOperator.ToString`. -/
def IsExprOperator.tokens : IsExprOperator → List Token
  | .IsNullOp => [.IS, .NULL]
  | .IsNotNullOp => [.IS, .NOT, .NULL]
  | .IsTrueOp => [.IS, .TRUE]
  | .IsNotTrueOp => [.IS, .NOT, .TRUE]
  | .IsFalseOp => [.IS, .FALSE]
  | .IsNotFalseOp => [.IS, .NOT, .FALSE]

/-- The token of `BinaryExprOperator.ToString`. -/
def BinaryExprOperator.token : BinaryExprOperator → Token
  | .BitAndOp => .char '&'
  | .BitOrOp => .char '|'
  | .BitXorOp => .char '^'
  | .PlusOp => .char '+'
  | .MinusOp => .char '-'
  | .MultOp => .char '*'
  | .DivOp => .char '/'
  | .IntDivOp => .DIV
  | .ModOp => .char '%'
  | .ShiftLeftOp => .SHIFT_LEFT
  | .ShiftRightOp => .SHIFT_RIGHT

/-- The token of `UnaryExprOperator.ToString`. -/
def UnaryExprOperator.token : UnaryExprOperator → Token
  | .UPlusOp => .char '+'
  | .UMinusOp => .char '-'
  | .TildaOp => .char '~'
  | .BangOp => .char '!'

/-- `Format`: the tokens `sqlparser.String` writes for an expression. -/
def format : Expr → List Token
  | .colName name => [.ID name]
  | .intVal digits => [.INTEGRAL digits]
  | .strVal text => [.STRING text]
  | .boolVal value => [if value then .TRUE else .FALSE]
  | e@(.andExpr l r) => operand e l true (format l) ++ .AND :: operand e r false (format r)
  | e@(.orExpr l r) => operand e l true (format l) ++ .OR :: operand e r false (format r)
  | e@(.xorExpr l r) => operand e l true (format l) ++ .XOR :: operand e r false (format r)
  | e@(.notExpr x) => .NOT :: operand e x true (format x)
  | e@(.comparisonExpr op l r) =>
    operand e l true (format l) ++ op.token :: operand e r false (format r)
  | e@(.betweenExpr isBetween l lower upper) =>
    operand e l true (format l) ++ (if isBetween then [.BETWEEN] else [.NOT, .BETWEEN]) ++
      operand e lower true (format lower) ++ .AND :: operand e upper false (format upper)
  | e@(.isExpr l op) => operand e l true (format l) ++ op.tokens
  | e@(.binaryExpr op l r) =>
    operand e l true (format l) ++ op.token :: operand e r false (format r)
  | e@(.unaryExpr op x) => op.token :: operand e x true (format x)

end Vitess.Sqlparser
