import EntityMapper.Json.Basic

/-! # JSON text

The compact text of a document: no blanks, the shortest digits for numbers, and escapes only
where the format demands them.
-/

namespace EntityMapper.Json

/-- The text of a finite double: positional between `1e-5` and `1e16` and for zero, always
with a fractional part, otherwise scientific. -/
def floatText (negative : Bool) (significand : Nat) (exponent : Int) : String :=
  let d := Decimal.shortest .evenDigit significand exponent
  let fixed := significand = 0 ∨ (-5 ≤ d.leadingExponent ∧ d.leadingExponent ≤ 15)
  signText negative ++ if fixed then d.fractional else d.scientific

/-- The text of a number. -/
def Number.text : Number → String
  | natural n => n.toNat.repr
  | negative n _ => "-" ++ n.toInt.natAbs.repr
  | float (.finite isNegative m e _) _ => floatText isNegative m e

/-- A digit of base sixteen, in lower case. -/
def hexDigit (n : Nat) : Char :=
  if n < 10 then Char.ofNat ('0'.toNat + n) else Char.ofNat ('a'.toNat + (n - 10))

/-- The escape of a character by its four-digit code. -/
def codeEscape (c : Char) : List Char :=
  '\\' :: 'u' :: [4096, 256, 16, 1].map fun unit => hexDigit (c.toNat / unit % 16)

/-- A character as it stands inside a string. -/
def escaped (c : Char) : List Char :=
  if c = '"' then ['\\', '"']
  else if c = '\\' then ['\\', '\\']
  else if c = '\n' then ['\\', 'n']
  else if c = '\r' then ['\\', 'r']
  else if c = '\t' then ['\\', 't']
  else if c.toNat = 0x8 then ['\\', 'b']
  else if c.toNat = 0xc then ['\\', 'f']
  else if c.toNat < 0x20 then codeEscape c
  else [c]

/-- The text of a string, with its quotation marks. -/
def stringText (s : String) : String :=
  String.ofList ('"' :: s.toList.flatMap escaped ++ ['"'])

mutual

/-- The text of a document. -/
def text : Json → String
  | .null => "null"
  | .bool b => if b then "true" else "false"
  | .number n => n.text
  | .string s => stringText s
  | .array items => "[" ++ String.intercalate "," (itemTexts items) ++ "]"
  | .object members => "\x7b" ++ String.intercalate "," (memberTexts members) ++ "\x7d"

/-- The texts of the items of an array. -/
def itemTexts : List Json → List String
  | [] => []
  | item :: items => item.text :: itemTexts items

/-- The texts of the members of an object. -/
def memberTexts : List (String × Json) → List String
  | [] => []
  | (key, value) :: members => (stringText key ++ ":" ++ value.text) :: memberTexts members

end

/-- The text of a document with the characters escaped that some readers take for the end of
a line. -/
def lineText (j : Json) : String :=
  String.ofList (j.text.toList.flatMap fun c =>
    if c.toNat = 0x85 ∨ c.toNat = 0x2028 ∨ c.toNat = 0x2029 then codeEscape c else [c])

end EntityMapper.Json
