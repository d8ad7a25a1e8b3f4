/-! # Quoted string literals

A text between single quotes, with every quote and every backslash inside it doubled.
-/

namespace EntityMapper.Sql

/-- The characters of a text as they stand inside a literal. -/
def encode : List Char → List Char
  | [] => []
  | '\\' :: cs => '\\' :: '\\' :: encode cs
  | '\'' :: cs => '\'' :: '\'' :: encode cs
  | c :: cs => c :: encode cs

/-- The literal of a text. -/
def quote (text : String) : String :=
  String.ofList ('\'' :: encode text.toList ++ ['\''])

end EntityMapper.Sql
