import EntityMapper.Calendar.DateTime
import EntityMapper.Model.Kind
import EntityMapper.Number.Binary

/-! # Values

What flows between a field and the database. A value carries its own shape; the key of a
related row is wrapped as a reference.
-/

namespace EntityMapper

/-- A value of a field or of a column of a row. -/
inductive Value
  | nil
  | bool (b : Bool)
  | int (n : Int64)
  | uint (n : UInt64)
  | float (x : Binary64)
  | text (s : String)
  | dateTime (t : DateTime)
  | reference (key : Value)
  | list (items : List Value)
  deriving Inhabited

/-- The shape of a value. -/
inductive Value.Shape
  | nil | bool | int | uint | float | text | dateTime | reference | list
  deriving DecidableEq

/-- The name of a shape in messages. -/
def Value.Shape.name : Value.Shape → String
  | nil => "nil"
  | bool => "bool"
  | int => "int"
  | uint => "uint"
  | float => "float"
  | text => "text"
  | dateTime => "datetime"
  | reference => "struct"
  | list => "slice"

namespace Value

/-- The shape of a value. -/
def shape : Value → Shape
  | nil => .nil
  | bool _ => .bool
  | int _ => .int
  | uint _ => .uint
  | float _ => .float
  | text _ => .text
  | dateTime _ => .dateTime
  | reference _ => .reference
  | list _ => .list

/-- Whether a value is nil. -/
def isNil : Value → Bool
  | nil => true
  | _ => false

/-- The key inside any number of references. -/
def key : Value → Value
  | reference inner => inner.key
  | value => value

/-- The value a column of a kind is handed out with before a row is read into it. -/
def zero : FieldKind → Value
  | .bool => bool false
  | .integer kind => if kind.signed then int 0 else uint 0
  | .float | .double => float (.zero .double)
  | .text | .list => text ""
  | .dateTime => dateTime .epoch
  | .record | .recordList => nil

end Value

end EntityMapper
