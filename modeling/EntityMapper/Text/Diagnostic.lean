import EntityMapper.Text.Printable

/-! # Quoted text in diagnostics

A text between quotation marks with everything that does not print escaped.
-/

namespace EntityMapper

/-- The digits of a number to base sixteen, in lower case. -/
def hexText (n : Nat) : String := String.ofList (Nat.toDigits 16 n)

/-- A character as it stands inside a quoted text. -/
def diagnosticChar (c : Char) : String :=
  if c = '"' then "\\\""
  else if c = '\\' then "\\\\"
  else if c = '\n' then "\\n"
  else if c = '\t' then "\\t"
  else if c = '\r' then "\\r"
  else if c.toNat = 0 then "\\0"
  else if isPrintable c then c.toString
  else "\\u\x7b" ++ hexText c.toNat ++ "\x7d"

/-- A text as diagnostics quote it. -/
def diagnosticQuote (text : String) : String :=
  "\"" ++ String.join (text.toList.map diagnosticChar) ++ "\""

/-- A truth value as diagnostics write it. -/
def diagnosticBool (b : Bool) : String := if b then "true" else "false"

/-- A structure as diagnostics write it: its name and its fields with their texts. -/
def diagnosticStruct (name : String) (fields : List (String × String)) : String :=
  name ++ " \x7b " ++ String.intercalate ", " (fields.map fun (field, text) => field ++ ": " ++ text) ++
    " \x7d"

end EntityMapper
