import EntityMapper.Value.Json

/-! # Coercions

What each kind of field accepts. Integers serve every numeric kind and booleans, text serves
date-times and lists, and nil or blank text is the empty list.
-/

namespace EntityMapper.Value

/-- The error of a value that a kind does not accept. -/
def mismatch (v : Value) (expected : FieldKind) : ValueError := .typeMismatch expected v.shape

/-- The integer of a value, of any sign. -/
def toInteger (expected : FieldKind) : Value → Except ValueError Int
  | int n => .ok n.toInt
  | uint n => .ok n.toNat
  | v => .error (v.mismatch expected)

/-- The integer of a value as a number of a kind. -/
def toIntegerOf (kind : IntegerKind) (v : Value) :
    Except ValueError { n : Int // kind.Holds n } := do
  let n ← v.toInteger (.integer kind)
  if holds : kind.Holds n then return ⟨n, holds⟩ else throw (.outOfRange (.integer kind) n)

/-- The number of a value; integers are rounded to the nearest double. -/
def toFloat (expected : FieldKind) : Value → Except ValueError Binary64
  | float x => .ok x
  | int n => .ok (.ofInt .double n.toInt)
  | uint n => .ok (.ofInt .double n.toNat)
  | v => .error (v.mismatch expected)

/-- The truth value of a value; every integer but zero is true. -/
def toBool : Value → Except ValueError Bool
  | bool b => .ok b
  | int n => .ok (n != 0)
  | uint n => .ok (n != 0)
  | v => .error (v.mismatch .bool)

/-- The text of a text value. -/
def toText : Value → Except ValueError String
  | text s => .ok s
  | v => .error (v.mismatch .text)

/-- The date-time of a value or of its text. -/
def toDateTime : Value → Except ValueError DateTime
  | dateTime t => .ok t
  | text s => (DateTime.ofText s).mapError (.invalidDateTime s)
  | v => .error (v.mismatch .dateTime)

/-- The items of a list, of nil, or of a JSON array in text. -/
def toList (expected : FieldKind) : Value → Except ValueError (List Value)
  | list items => .ok items
  | nil => .ok []
  | text s =>
      if allBlank s then .ok []
      else match Json.parse? s with
        | some (.array items) => .ok (listOfJson items)
        | some _ => .error (.invalidList s .notArray)
        | none => .error (.invalidList s .badSyntax)
  | v => .error (v.mismatch expected)

end EntityMapper.Value
