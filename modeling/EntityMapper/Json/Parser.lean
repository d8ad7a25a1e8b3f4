import EntityMapper.Json.Number

/-! # Reading JSON text

A strict reader of JSON text. Arrays and objects nest at most 127 deep, so the reader is a
recursion on the depth that is left.
-/

namespace EntityMapper.Json

/-- Blanks between the tokens of a document. -/
def isSpace (c : Char) : Bool := c = ' ' || c = '\t' || c = '\n' || c = '\r'

/-- The text without leading blanks. -/
def skipSpaces (cs : List Char) : List Char := cs.dropWhile isSpace

/-- The value of a digit of base sixteen. -/
def hexValue? (c : Char) : Option Nat :=
  if '0' ≤ c ∧ c ≤ '9' then some (c.toNat - '0'.toNat)
  else if 'a' ≤ c ∧ c ≤ 'f' then some (c.toNat - 'a'.toNat + 10)
  else if 'A' ≤ c ∧ c ≤ 'F' then some (c.toNat - 'A'.toNat + 10)
  else none

/-- The 16-bit unit of four digits of base sixteen. -/
def unit? (a b c d : Char) : Option Nat := do
  let a ← hexValue? a
  let b ← hexValue? b
  let c ← hexValue? c
  let d ← hexValue? d
  return ((a * 16 + b) * 16 + c) * 16 + d

/-- Whether a unit opens a surrogate pair. -/
def isHighSurrogate (unit : Nat) : Bool := 0xd800 ≤ unit ∧ unit ≤ 0xdbff

/-- Whether a unit closes a surrogate pair. -/
def isLowSurrogate (unit : Nat) : Bool := 0xdc00 ≤ unit ∧ unit ≤ 0xdfff

/-- The character of a surrogate pair. -/
def ofSurrogates (high low : Nat) : Char :=
  Char.ofNat (0x10000 + (high - 0xd800) * 0x400 + (low - 0xdc00))

/-- The character that a one-letter escape stands for. -/
def simpleEscape? : Char → Option Char
  | '"' => some '"'
  | '\\' => some '\\'
  | '/' => some '/'
  | 'b' => some (Char.ofNat 0x8)
  | 'f' => some (Char.ofNat 0xc)
  | 'n' => some '\n'
  | 'r' => some '\r'
  | 't' => some '\t'
  | _ => none

/-- One character of a string, or the end of the string. -/
inductive StringToken
  | char (c : Char)
  | close

/-- Reads one token inside a string. Control characters have to be escaped and surrogates
have to come in pairs. -/
def stringToken? : List Char → Option (StringToken × List Char)
  | '"' :: cs => some (.close, cs)
  | '\\' :: 'u' :: a :: b :: c :: d :: cs => do
      let unit ← unit? a b c d
      if isHighSurrogate unit then
        match cs with
        | '\\' :: 'u' :: a :: b :: c :: d :: cs => do
            let low ← unit? a b c d
            if isLowSurrogate low then some (.char (ofSurrogates unit low), cs) else none
        | _ => none
      else if isLowSurrogate unit then none
      else some (.char (Char.ofNat unit), cs)
  | '\\' :: c :: cs => (simpleEscape? c).map fun c => (.char c, cs)
  | '\\' :: [] => none
  | c :: cs => if c.toNat < 0x20 then none else some (.char c, cs)
  | [] => none

/-- Reads the rest of a string; no string has more tokens than its text has characters. -/
def stringRest : (bound : Nat) → List Char → Option (List Char × List Char)
  | 0, _ => none
  | bound + 1, cs => do
      match ← stringToken? cs with
      | (.close, rest) => some ([], rest)
      | (.char c, rest) =>
          let (others, rest) ← stringRest bound rest
          some (c :: others, rest)

/-- Reads a string. -/
def string? : List Char → Option (String × List Char)
  | '"' :: cs => (stringRest cs.length cs).map fun (s, rest) => (String.ofList s, rest)
  | _ => none

/-- Reads a given word. -/
def word? (expected : List Char) (cs : List Char) : Option (List Char) :=
  if expected.isPrefixOf cs then some (cs.drop expected.length) else none

/-- Reads the items of an array up to its closing bracket. -/
def items? (item : List Char → Option (Json × List Char)) :
    (bound : Nat) → List Char → Option (List Json × List Char)
  | 0, _ => none
  | bound + 1, cs => do
      let (value, cs) ← item cs
      match skipSpaces cs with
      | ',' :: cs =>
          let (values, cs) ← items? item bound cs
          some (value :: values, cs)
      | ']' :: cs => some ([value], cs)
      | _ => none

/-- Reads the members of an object up to its closing brace. -/
def members? (item : List Char → Option (Json × List Char)) :
    (bound : Nat) → List Char → Option (List (String × Json) × List Char)
  | 0, _ => none
  | bound + 1, cs => do
      let (key, cs) ← string? (skipSpaces cs)
      match skipSpaces cs with
      | ':' :: cs =>
          let (value, cs) ← item cs
          match skipSpaces cs with
          | ',' :: cs =>
              let (members, cs) ← members? item bound cs
              some ((key, value) :: members, cs)
          | '\x7d' :: cs => some ([(key, value)], cs)
          | _ => none
      | _ => none

/-- Reads a document that is neither array nor object. -/
def scalar? : List Char → Option (Json × List Char)
  | 'n' :: cs => (word? ['u', 'l', 'l'] cs).map (.null, ·)
  | 't' :: cs => (word? ['r', 'u', 'e'] cs).map (.bool true, ·)
  | 'f' :: cs => (word? ['a', 'l', 's', 'e'] cs).map (.bool false, ·)
  | '"' :: cs => (string? ('"' :: cs)).map fun (s, rest) => (.string s, rest)
  | cs => (number? cs).map fun (n, rest) => (.number n, rest)

/-- Reads a document whose arrays and objects nest at most `depth` deep. -/
def value? : (depth : Nat) → List Char → Option (Json × List Char)
  | depth, cs =>
    match skipSpaces cs with
    | '[' :: cs =>
        match depth with
        | 0 => none
        | depth + 1 =>
            match skipSpaces cs with
            | ']' :: cs => some (.array [], cs)
            | cs => (items? (value? depth) cs.length cs).map fun (vs, rest) => (.array vs, rest)
    | '\x7b' :: cs =>
        match depth with
        | 0 => none
        | depth + 1 =>
            match skipSpaces cs with
            | '\x7d' :: cs => some (.object [], cs)
            | cs => (members? (value? depth) cs.length cs).map fun (ms, rest) =>
                (ofMembers ms, rest)
    | cs => scalar? cs

/-- The greatest nesting depth of a text. -/
def maxDepth : Nat := 127

/-- The document of a text; none when the text is not a document. -/
def parse? (text : String) : Option Json := do
  let (json, rest) ← value? maxDepth text.toList
  if skipSpaces rest = [] then some json else none

end EntityMapper.Json
