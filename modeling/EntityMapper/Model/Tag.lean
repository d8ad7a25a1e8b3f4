/-! # Column tags

A field's tag names its column and may carry two flags: `name [key|auto] [key|auto]`. Words
are separated by single spaces. Unknown flags and words after the second slot mean nothing.
-/

namespace EntityMapper

/-- Characters allowed in a column name. -/
def isNameChar (c : Char) : Bool := c.isAlphanum || c == '_'

/-- Why a tag is refused. -/
inductive TagError
  | emptyName
  | invalidName (name : String)
  deriving DecidableEq

/-- The reason in words. -/
def TagError.message : TagError → String
  | emptyName => "column name is empty"
  | invalidName name => "column name '" ++ name ++ "' must be alphanumeric or '_'"

/-- The column a field is stored in. -/
structure FieldTag where
  name : String
  isKey : Bool
  isAuto : Bool
  name_ne : name ≠ ""
  name_chars : name.toList.all isNameChar
  deriving DecidableEq

namespace FieldTag

/-- The words between single spaces; two spaces in a row have an empty word between them. -/
def words : List Char → List (List Char)
  | [] => [[]]
  | c :: cs =>
      if c = ' ' then [] :: words cs
      else match words cs with
        | word :: others => (c :: word) :: others
        | [] => [[c]]

/-- The flag words of a tag that count: the two after the name. -/
def flags (tag : String) : List (List Char) := ((words tag.toList).drop 1).take 2

/-- Reads a tag. -/
def parse (tag : String) : Except TagError FieldTag :=
  let name := String.ofList ((words tag.toList).headD [])
  if name_ne : name = "" then .error .emptyName
  else if name_chars : name.toList.all isNameChar then
    .ok { name, name_ne, name_chars
          isKey := "key".toList ∈ flags tag
          isAuto := "auto".toList ∈ flags tag }
  else .error (.invalidName name)

end FieldTag

end EntityMapper
