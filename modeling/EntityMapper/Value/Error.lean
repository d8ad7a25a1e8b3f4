import EntityMapper.Number.Decimal
import EntityMapper.Value.Basic

/-! # Failed assignments and renderings

Why a value cannot be stored in a field, or has no literal.
-/

namespace EntityMapper

/-- The text of an infinite number or of not-a-number; finite numbers never need it. -/
def Binary.specialText {f : BinaryFormat} : Binary f → String
  | .nan => "NaN"
  | .infinite false => "inf"
  | .infinite true => "-inf"
  | .finite .. => ""

/-- Why a text is no list of values. -/
inductive ListFault
  | badSyntax
  | notArray
  deriving DecidableEq

/-- The reason in words. -/
def ListFault.message : ListFault → String
  | badSyntax => "json syntax error"
  | notArray => "expected an array"

/-- Why a value is refused. -/
inductive ValueError
  | typeMismatch (expected : FieldKind) (found : Value.Shape)
  | outOfRange (expected : FieldKind) (value : Int)
  | invalidDateTime (text : String) (fault : DateTime.Fault)
  | invalidList (text : String) (fault : ListFault)
  | nonFinite (x : Binary64)
  | relationLiteral
  | missingPrimaryKey
  deriving DecidableEq

/-- The reason in words. -/
def ValueError.message : ValueError → String
  | typeMismatch expected found =>
      "cannot assign " ++ found.name ++ " value to " ++ expected.name ++ " field"
  | outOfRange expected value =>
      "value " ++ integerText value ++ " does not fit a " ++ expected.name ++ " field"
  | invalidDateTime text fault => "invalid date-time '" ++ text ++ "': " ++ fault.message
  | invalidList text fault => "invalid json list '" ++ text ++ "': " ++ fault.message
  | nonFinite x => "float " ++ x.specialText ++ " has no sql literal"
  | relationLiteral => "relation list has no column literal"
  | missingPrimaryKey => "related row has no primary key value"

end EntityMapper
