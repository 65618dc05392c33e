import Mathlib.Data.Nat.Bitwise

/-!
# SQL types and values

`querypb.Type` of `go/vt/proto/query/query.pb.go` and the parts of
`sqltypes.Value` (`go/sqltypes/value.go`, `go/sqltypes/type.go`) that the
vindexes and the evaluation engine of this project read. A type's code carries
its properties as flag bits (`Flag_ISINTEGRAL`, `Flag_ISUNSIGNED`, …), and the
predicates `IsSigned`, `IsUnsigned`, `IsIntegral` and `IsFloat` test those bits,
as the source does. A value is its type and its raw bytes, read as characters.
-/

namespace Vitess.Sqltypes

/-- `querypb.Type`. -/
inductive QueryType where
  | NULL_TYPE | INT8 | UINT8 | INT16 | UINT16 | INT24 | UINT24 | INT32 | UINT32
  | INT64 | UINT64 | FLOAT32 | FLOAT64 | TIMESTAMP | DATE | TIME | DATETIME | YEAR
  | DECIMAL | TEXT | BLOB | VARCHAR | VARBINARY | CHAR | BINARY | BIT | ENUM | SET
  | TUPLE | GEOMETRY | JSON | EXPRESSION | HEXNUM | HEXVAL | BITNUM
  deriving DecidableEq, Repr

namespace QueryType

/-- The protobuf value of each type. -/
def code : QueryType → ℕ
  | NULL_TYPE => 0 | INT8 => 257 | UINT8 => 770 | INT16 => 259 | UINT16 => 772
  | INT24 => 261 | UINT24 => 774 | INT32 => 263 | UINT32 => 776 | INT64 => 265
  | UINT64 => 778 | FLOAT32 => 1035 | FLOAT64 => 1036 | TIMESTAMP => 2061
  | DATE => 2062 | TIME => 2063 | DATETIME => 2064 | YEAR => 785 | DECIMAL => 18
  | TEXT => 6163 | BLOB => 10260 | VARCHAR => 6165 | VARBINARY => 10262
  | CHAR => 6167 | BINARY => 10264 | BIT => 2073 | ENUM => 2074 | SET => 2075
  | TUPLE => 28 | GEOMETRY => 2077 | JSON => 2078 | EXPRESSION => 31
  | HEXNUM => 4128 | HEXVAL => 4129 | BITNUM => 4130

end QueryType

/-- `flagIsIntegral`. -/
def flagIsIntegral : ℕ := 256

/-- `flagIsUnsigned`. -/
def flagIsUnsigned : ℕ := 512

/-- `flagIsFloat`. -/
def flagIsFloat : ℕ := 1024

/-- `flagIsText`. -/
def flagIsText : ℕ := 4096

/-- `flagIsBinary`. -/
def flagIsBinary : ℕ := 8192

/-- `sqltypes.IsIntegral`. -/
def IsIntegral (t : QueryType) : Bool :=
  t.code &&& flagIsIntegral == flagIsIntegral

/-- `sqltypes.IsSigned`: integral and not unsigned. -/
def IsSigned (t : QueryType) : Bool :=
  t.code &&& (flagIsIntegral ||| flagIsUnsigned) == flagIsIntegral

/-- `sqltypes.IsUnsigned`. -/
def IsUnsigned (t : QueryType) : Bool :=
  t.code &&& (flagIsIntegral ||| flagIsUnsigned) == flagIsIntegral ||| flagIsUnsigned

/-- `sqltypes.IsFloat`. -/
def IsFloat (t : QueryType) : Bool :=
  t.code &&& flagIsFloat == flagIsFloat

/-- `sqltypes.IsDecimal`. -/
def IsDecimal (t : QueryType) : Bool :=
  t == .DECIMAL

/-- `sqltypes.IsText`. -/
def IsText (t : QueryType) : Bool :=
  t.code &&& flagIsText == flagIsText

/-- `sqltypes.IsBinary`. -/
def IsBinary (t : QueryType) : Bool :=
  t.code &&& flagIsBinary == flagIsBinary

/-- `sqltypes.IsTextOrBinary`. -/
def IsTextOrBinary (t : QueryType) : Bool :=
  IsText t || IsBinary t

/-- `sqltypes.IsNumber`. -/
def IsNumber (t : QueryType) : Bool :=
  IsIntegral t || IsFloat t || t == .DECIMAL

/-- `sqltypes.IsDateOrTime`. -/
def IsDateOrTime (t : QueryType) : Bool :=
  t == .DATETIME || t == .DATE || t == .TIMESTAMP || t == .TIME

/-- `sqltypes.IsNull`. -/
def IsNull (t : QueryType) : Bool :=
  t == .NULL_TYPE

/-- `sqltypes.Value`: a type and the raw bytes. -/
structure Value where
  typ : QueryType
  val : List Char
  deriving DecidableEq, Repr

namespace Value

/-- `Value.IsSigned`. -/
def isSigned (v : Value) : Bool :=
  IsSigned v.typ

/-- `Value.IsNull`. -/
def isNull (v : Value) : Bool :=
  v.typ == .NULL_TYPE

/-- `Value.RawStr`. -/
def rawStr (v : Value) : List Char :=
  v.val

/-- `Value.ToString`: the raw text, empty for an expression. -/
def toString (v : Value) : List Char :=
  if v.typ = .EXPRESSION then [] else v.val

end Value

/-- A signed type is integral and not unsigned. -/
theorem isSigned_iff (t : QueryType) :
    IsSigned t = true ↔ IsIntegral t = true ∧ IsUnsigned t = false := by
  cases t <;> decide

end Vitess.Sqltypes
