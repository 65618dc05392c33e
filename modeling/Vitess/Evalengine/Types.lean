import Vitess.Sqltypes.Value

/-!
# Types of the evaluation engine and their coercion

`evalengine.Type` (`go/vt/vtgate/evalengine/compiler.go`) and `CoerceTypes`
(`api_coerce.go`), which picks the type two columns are compared in, for
instance `HashJoin.ComparisonType`. Two types are the same only when every field
agrees, size, scale and nullability included; otherwise two numbers meet as
`FLOAT64` as soon as one of them is a float, a decimal or text. Merging the
collations of two text types is `mergeCollations` of the collations package, a
parameter here.
-/

namespace Vitess.Evalengine

open Vitess.Sqltypes

/-- `collations.CollationBinaryID`. -/
def collationBinaryID : ℕ := 63

/-- `evalengine.Type`. -/
structure EvalType where
  typ : QueryType
  collation : ℕ
  nullable : Bool
  init : Bool
  size : ℤ
  scale : ℤ
  deriving DecidableEq, Repr

/-- `NewType`: nullable, no size or scale. -/
def newType (t : QueryType) (collation : ℕ) : EvalType :=
  ⟨t, collation, true, true, 0, 0⟩

/-- The errors of `CoerceTypes`, by their messages. -/
inductive CoerceError where
  /-- "cannot coerce SIGNED into %v" -/
  | signedInto (t : QueryType)
  /-- "cannot coerce UNSIGNED into %v" -/
  | unsignedInto (t : QueryType)
  /-- "cannot coerce %v into %v" -/
  | into (t1 t2 : QueryType)
  /-- the failure of merging two collations -/
  | collation (message : String)
  deriving DecidableEq, Repr

/-- `CoerceTypes`. -/
def coerceTypes (mergeCollations : EvalType → EvalType → Except CoerceError ℕ)
    (v1 v2 : EvalType) : Except CoerceError EvalType :=
  if v1 = v2 then .ok v1
  else if IsNull v1.typ || IsNull v2.typ then .ok (newType .NULL_TYPE collationBinaryID)
  else
    let out : EvalType := ⟨.NULL_TYPE, 0, v1.nullable || v2.nullable, true, 0, 0⟩
    if IsTextOrBinary v1.typ && IsTextOrBinary v2.typ then
      match mergeCollations v1 v2 with
      | .error err => .error err
      | .ok merged => .ok { out with collation := merged, typ := .VARCHAR }
    else if IsDateOrTime v1.typ then .ok { out with collation := collationBinaryID, typ := v1.typ }
    else if IsDateOrTime v2.typ then .ok { out with collation := collationBinaryID, typ := v2.typ }
    else if IsNumber v1.typ || IsNumber v2.typ then
      let out := { out with collation := collationBinaryID }
      if IsTextOrBinary v1.typ || IsFloat v1.typ || IsDecimal v1.typ ||
          IsTextOrBinary v2.typ || IsFloat v2.typ || IsDecimal v2.typ then
        .ok { out with typ := .FLOAT64 }
      else if IsSigned v1.typ then
        if IsUnsigned v2.typ then .ok { out with typ := .UINT64 }
        else if IsSigned v2.typ then .ok { out with typ := .INT64 }
        else .error (.signedInto v2.typ)
      else if IsUnsigned v1.typ then
        if IsSigned v2.typ || IsUnsigned v2.typ then .ok { out with typ := .UINT64 }
        else .error (.unsignedInto v2.typ)
      else .error (.into v1.typ v2.typ)
    else .error (.into v1.typ v2.typ)

end Vitess.Evalengine
