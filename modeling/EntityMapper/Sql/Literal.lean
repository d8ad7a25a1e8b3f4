import EntityMapper.Sql.Quoted
import EntityMapper.Value.Json

/-! # Value literals

The literals that stand for values in statements: integers, finite numbers in positional
notation, and quoted strings.
-/

namespace EntityMapper.Sql

/-- A literal of a statement. -/
inductive Literal
  | integer (n : Int)
  | float (x : { x : Binary64 // x.isFinite })
  | string (s : String)
  deriving DecidableEq

/-- The text of a literal. Numbers have the fewest digits that read back and no exponent; a
tie between two such texts goes to the larger magnitude. -/
def Literal.text : Literal → String
  | integer n => integerText n
  | float ⟨.finite isNegative significand exponent _, _⟩ =>
      signText isNegative ++ (Decimal.shortest .larger significand exponent).positional
  | string s => quote s

end EntityMapper.Sql

namespace EntityMapper.Value

open Sql (Literal)

/-- The literal of a value; nil has none. A reference is the literal of its key, and a list
is quoted JSON text. -/
def literal? : Value → Except ValueError (Option Literal)
  | nil => .ok none
  | bool b => .ok (some (.integer (if b then 1 else 0)))
  | int n => .ok (some (.integer n.toInt))
  | uint n => .ok (some (.integer n.toNat))
  | float x =>
      if finite : x.isFinite then .ok (some (.float ⟨x, finite⟩)) else .error (.nonFinite x)
  | text s => .ok (some (.string s))
  | dateTime t => .ok (some (.string t.text))
  | reference inner => do
      match ← inner.literal? with
      | some literal => return some literal
      | none => throw .missingPrimaryKey
  | list items => do return some (.string (Json.array (← listToJson items)).text)

end EntityMapper.Value
