import EntityMapper.Sql.Literal

/-! # Statements

The statements that the mapper issues, as data, and the text of each. Identifiers stand
between backquotes as they are.
-/

namespace EntityMapper.Sql

/-- The type of a stored column. -/
inductive SqlType
  | tinyint | smallint | int | bigint | float | double | text | datetime
  deriving DecidableEq

/-- The name of a type. -/
def SqlType.name : SqlType → String
  | tinyint => "TINYINT"
  | smallint => "SMALLINT"
  | int => "INT"
  | bigint => "BIGINT"
  | float => "FLOAT"
  | double => "DOUBLE"
  | text => "TEXT"
  | datetime => "DATETIME"

/-- The type that stores a kind of field; relations are stored elsewhere. -/
def SqlType.ofKind? : FieldKind → Option SqlType
  | .bool | .integer .int8 => some .tinyint
  | .integer .int16 | .integer .uint8 => some .smallint
  | .integer .int32 | .integer .uint16 => some .int
  | .integer .int64 | .integer .int | .integer .uint32 | .integer .uint64 | .integer .uint =>
      some .bigint
  | .float => some .float
  | .double => some .double
  | .text | .list => some .text
  | .dateTime => some .datetime
  | .record | .recordList => none

/-- The declaration of a column. -/
structure ColumnDeclaration where
  name : String
  type : SqlType
  isAuto : Bool
  deriving DecidableEq

/-- A column with the literal it is given or compared with. -/
structure Assignment where
  column : String
  literal : Literal
  deriving DecidableEq

/-- A statement. -/
inductive Statement
  | createTable (table : String) (columns : List ColumnDeclaration) (key : Option String)
  | createLinks (table : String)
  | dropTable (table : String)
  | insertRow (table : String) (assignments : List Assignment)
  | updateRow (table : String) (assignments : List Assignment) (key : Assignment)
  | deleteRow (table : String) (key : Assignment)
  | selectRow (table : String) (columns : List String) (key : Assignment)
  | insertLink (table : String) (left right : Literal)
  | deleteLink (table : String) (left right : Literal)
  | clearLinks (table : String) (left : Literal)
  | selectLinks (table : String) (left : Literal)
  deriving DecidableEq

/-- An identifier between backquotes. -/
def identifier (name : String) : String := "`" ++ name ++ "`"

/-- Texts with a separator between them. -/
def separated (separator : String) (texts : List String) : String :=
  String.intercalate separator texts

/-- Column names with commas between them. -/
def columnList (columns : List String) : String := separated "," (columns.map identifier)

/-- The text of a declaration. The place of the auto-increment mark stays when it is empty. -/
def ColumnDeclaration.text (d : ColumnDeclaration) : String :=
  identifier d.name ++ " " ++ d.type.name ++ " NOT NULL " ++
    (if d.isAuto then "AUTO_INCREMENT" else "")

/-- The text `column=literal`. -/
def Assignment.text (a : Assignment) : String := identifier a.column ++ "=" ++ a.literal.text

/-- The text of a table definition with one line for each part. -/
def tableDefinition (table : String) (lines : List String) : String :=
  "CREATE TABLE " ++ identifier table ++ " (\n\t" ++ separated ",\n\t" lines ++ "\n)\n"

/-- The clause that names the primary key. -/
def primaryKeyClause (column : String) : String := "PRIMARY KEY (" ++ identifier column ++ ")"

namespace Statement

/-- The table that a statement is about. -/
def table : Statement → String
  | createTable table .. | createLinks table | dropTable table | insertRow table _
  | updateRow table .. | deleteRow table _ | selectRow table .. | insertLink table ..
  | deleteLink table .. | clearLinks table _ | selectLinks table _ => table

/-- The text of a statement. -/
def text : Statement → String
  | createTable table columns key =>
      tableDefinition table (columns.map (·.text) ++ (key.map primaryKeyClause).toList)
  | createLinks table =>
      tableDefinition table
        [identifier "id" ++ " INT NOT NULL AUTO_INCREMENT", identifier "left" ++ " INT NOT NULL",
         identifier "right" ++ " INT NOT NULL", primaryKeyClause "id"]
  | dropTable table => "DROP TABLE IF EXISTS " ++ identifier table
  | insertRow table assignments =>
      "INSERT INTO " ++ identifier table ++ " (" ++ columnList (assignments.map (·.column)) ++
        ") VALUES (" ++ separated "," (assignments.map (·.literal.text)) ++ ")"
  | updateRow table assignments key =>
      "UPDATE " ++ identifier table ++ " SET " ++ separated "," (assignments.map (·.text)) ++
        " WHERE " ++ key.text
  | deleteRow table key => "DELETE FROM " ++ identifier table ++ " WHERE " ++ key.text
  | selectRow table columns key =>
      "SELECT " ++ columnList columns ++ " FROM " ++ identifier table ++ " WHERE " ++ key.text
  | insertLink table left right =>
      "INSERT INTO " ++ identifier table ++ " (" ++ columnList ["left", "right"] ++
        ") VALUES (" ++ left.text ++ "," ++ right.text ++ ")"
  | deleteLink table left right =>
      "DELETE FROM " ++ identifier table ++ " WHERE " ++ identifier "left" ++ "=" ++ left.text ++
        " AND " ++ identifier "right" ++ "=" ++ right.text
  | clearLinks table left =>
      "DELETE FROM " ++ identifier table ++ " WHERE " ++ identifier "left" ++ "=" ++ left.text
  | selectLinks table left =>
      "SELECT " ++ identifier "right" ++ " FROM " ++ identifier table ++ " WHERE " ++
        identifier "left" ++ "=" ++ left.text

end Statement

end EntityMapper.Sql
