/-! # Kinds of fields

How a field is stored: as one column of a scalar kind, as one column holding a list of
scalars, or through links to related records.
-/

namespace EntityMapper

/-- The integer types a column can hold. -/
inductive IntegerKind
  | int8 | int16 | int32 | int64 | int
  | uint8 | uint16 | uint32 | uint64 | uint
  deriving DecidableEq

namespace IntegerKind

/-- Every integer kind, signed ones first, by width. -/
def all : List IntegerKind :=
  [int8, int16, int32, int64, int, uint8, uint16, uint32, uint64, uint]

/-- Whether negative numbers belong to the kind. -/
def signed : IntegerKind → Bool
  | int8 | int16 | int32 | int64 | int => true
  | uint8 | uint16 | uint32 | uint64 | uint => false

/-- The width in bits. -/
def bits : IntegerKind → Nat
  | int8 | uint8 => 8
  | int16 | uint16 => 16
  | int32 | uint32 => 32
  | int64 | int | uint64 | uint => 64

/-- The least number of the kind. -/
def least (k : IntegerKind) : Int := if k.signed then -(Nat.pow 2 (k.bits - 1)) else 0

/-- The greatest number of the kind. -/
def greatest (k : IntegerKind) : Int :=
  if k.signed then Nat.pow 2 (k.bits - 1) - 1 else Nat.pow 2 k.bits - 1

/-- Whether a number belongs to the kind. -/
def Holds (k : IntegerKind) (n : Int) : Prop := k.least ≤ n ∧ n ≤ k.greatest

instance (k : IntegerKind) (n : Int) : Decidable (k.Holds n) := by
  unfold Holds; infer_instance

/-- Zero belongs to every kind. -/
theorem holds_zero (k : IntegerKind) : k.Holds 0 := by cases k <;> decide

/-- The name of a kind. -/
def name : IntegerKind → String
  | int8 => "Int8"
  | int16 => "Int16"
  | int32 => "Int32"
  | int64 => "Int64"
  | int => "Int"
  | uint8 => "Uint8"
  | uint16 => "Uint16"
  | uint32 => "Uint32"
  | uint64 => "Uint64"
  | uint => "Uint"

end IntegerKind

/-- The storage kind of a field. -/
inductive FieldKind
  | bool
  | text
  | dateTime
  | integer (kind : IntegerKind)
  | float
  | double
  /-- A link to one related record. -/
  | record
  /-- A list of scalars in one column. -/
  | list
  /-- Links to a list of related records. -/
  | recordList
  deriving DecidableEq

namespace FieldKind

/-- Every kind. -/
def all : List FieldKind :=
  [bool, text, dateTime] ++ IntegerKind.all.map integer ++ [float, double, record, list, recordList]

/-- The name of a kind in messages. -/
def name : FieldKind → String
  | bool => "Bool"
  | text => "String"
  | dateTime => "DateTime"
  | integer kind => kind.name
  | float => "Float"
  | double => "Double"
  | record => "Struct"
  | list => "Slice"
  | recordList => "SliceStruct"

/-- The kind with a given name. -/
def ofName? (name : String) : Option FieldKind := all.find? (·.name == name)

/-- Whether the kind holds integers. -/
def isInteger : FieldKind → Bool
  | integer _ => true
  | _ => false

/-- Whether the kind is stored through links. -/
def isRelation : FieldKind → Bool
  | record | recordList => true
  | _ => false

/-- Whether the kind can never be a primary key. -/
def isComposite : FieldKind → Bool
  | record | list | recordList => true
  | _ => false

end FieldKind

end EntityMapper
