import EntityMapper.Json.Parser
import EntityMapper.Json.Printer
import EntityMapper.Value.Error

/-! # Values as JSON

Lists of scalars are stored as JSON text. Lowering a value fails on references and on
numbers that are not finite; lifting a document never fails.
-/

namespace EntityMapper.Value

/-- The JSON number of an integer. -/
def intNumber (n : Int64) : Json.Number :=
  if lt_zero : n < 0 then .negative n lt_zero else .natural (UInt64.ofNat n.toInt.toNat)

mutual

/-- Lowers a value to JSON. Date-times become text. -/
def toJson : Value → Except ValueError Json
  | nil => .ok .null
  | bool b => .ok (.bool b)
  | int n => .ok (.number (intNumber n))
  | uint n => .ok (.number (.natural n))
  | float x =>
      if finite : x.isFinite then .ok (.number (.float x finite)) else .error (.nonFinite x)
  | text s => .ok (.string s)
  | dateTime t => .ok (.string t.text)
  | reference _ => .error .relationLiteral
  | list items => do return .array (← listToJson items)

/-- Lowers the items of a list; the first that fails gives the error. -/
def listToJson : List Value → Except ValueError (List Json)
  | [] => .ok []
  | item :: items => do
      let json ← item.toJson
      return json :: (← listToJson items)

end

mutual

/-- Lifts a document. An object becomes its text, and date-times stay text. -/
def ofJson : Json → Value
  | .null => nil
  | .bool b => bool b
  | .number (.natural n) => uint n
  | .number (.negative n _) => int n
  | .number (.float x _) => float x
  | .string s => text s
  | .array items => list (listOfJson items)
  | .object members => text (Json.object members).text

/-- Lifts the items of an array. -/
def listOfJson : List Json → List Value
  | [] => []
  | item :: items => ofJson item :: listOfJson items

end

end EntityMapper.Value
