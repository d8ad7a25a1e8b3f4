import EntityMapper.Model.Tag
import EntityMapper.Sql.Literal

/-! # Errors

Every way an operation of the mapper can fail. An error names its cause; its class, its
origin and its words follow from the cause.
-/

namespace EntityMapper

/-- The taxonomy of errors that callers decide on. -/
inductive ErrorClass
  | invalidArgument
  | malformedTag
  | conflictingType
  | missingPrimaryKey
  | typeMismatch
  | rowCountMismatch
  | notFound
  | driver
  deriving DecidableEq

/-- The name of a class. -/
def ErrorClass.name : ErrorClass → String
  | invalidArgument => "invalid_argument"
  | malformedTag => "malformed_tag"
  | conflictingType => "conflicting_type"
  | missingPrimaryKey => "missing_primary_key"
  | typeMismatch => "type_mismatch"
  | rowCountMismatch => "row_count_mismatch"
  | notFound => "not_found"
  | driver => "driver"

/-- The part of the mapper that found an error. -/
inductive ErrorOrigin
  | model | value | cache | builder | executor | orm | config
  deriving DecidableEq

/-- The name of an origin. -/
def ErrorOrigin.name : ErrorOrigin → String
  | model => "model"
  | value => "value"
  | cache => "cache"
  | builder => "builder"
  | executor => "executor"
  | orm => "orm"
  | config => "config"

/-- A failure reported by a database driver. -/
structure DriverError where
  message : String
  deriving DecidableEq

/-- What is wrong with the tag of a field. -/
inductive TagFault
  | unreadable (e : TagError)
  | autoOnKind (kind : FieldKind)
  | keyOnKind (kind : FieldKind)
  | secondKey (existing : String)
  | duplicateColumn
  deriving DecidableEq

/-- The fault in words. -/
def TagFault.message : TagFault → String
  | unreadable e => e.message
  | autoOnKind kind => "auto-increment on " ++ kind.name ++ " field"
  | keyOnKind kind => "primary key on " ++ kind.name ++ " field"
  | secondKey existing => "second primary key, '" ++ existing ++ "' already declared"
  | duplicateColumn => "duplicate column name"

/-- What is wrong with a configuration. -/
inductive ConfigFault
  | emptyAddress
  | emptyDatabase
  deriving DecidableEq

/-- Why an operation fails. -/
inductive MapperError
  /-- A model without fields. -/
  | noFields (entity : String)
  /-- A field whose tag is wrong. -/
  | malformedTag (entity tag : String) (fault : TagFault)
  /-- A record that offers another number of columns than its model declares. -/
  | columnCount (entity : String) (offered declared : Nat)
  /-- Two types of one closure that share a table name. -/
  | conflictingTypes (table existing incoming : String)
  /-- A table that was ensured for another type. -/
  | foreignTable (table owner incoming : String)
  /-- A record that cannot be addressed in a statement. -/
  | missingKey (origin : ErrorOrigin) (entity : String)
  | unknownField (entity field : String)
  | notRelation (entity field : String)
  | noColumnType (entity field : String)
  | noStoredColumns (entity : String)
  | nothingToUpdate (entity : String)
  /-- A statement that should have affected one row. -/
  | rowCount (table : String) (found : UInt64)
  | notFound (table : String) (key : Sql.Literal)
  | value (e : ValueError)
  | driver (e : DriverError)
  | config (fault : ConfigFault)
  /-- An error that a caller made up. -/
  | custom (errorClass : ErrorClass) (origin : ErrorOrigin) (message : String)
  deriving DecidableEq

namespace MapperError

/-- The class of an error. -/
def errorClass : MapperError → ErrorClass
  | noFields .. | columnCount .. | unknownField .. | notRelation .. | noColumnType ..
  | noStoredColumns .. | nothingToUpdate .. | config .. => .invalidArgument
  | malformedTag .. => .malformedTag
  | conflictingTypes .. | foreignTable .. => .conflictingType
  | missingKey .. | value .missingPrimaryKey => .missingPrimaryKey
  | value _ => .typeMismatch
  | rowCount .. => .rowCountMismatch
  | notFound .. => .notFound
  | driver .. => .driver
  | custom errorClass .. => errorClass

/-- The origin of an error. -/
def origin : MapperError → ErrorOrigin
  | noFields .. | malformedTag .. | columnCount .. | conflictingTypes .. | unknownField .. =>
      .model
  | foreignTable .. => .cache
  | missingKey origin _ => origin
  | notRelation .. | noColumnType .. | noStoredColumns .. | nothingToUpdate .. => .builder
  | rowCount .. | notFound .. => .orm
  | value _ => .value
  | driver _ => .executor
  | config _ => .config
  | custom _ origin _ => origin

/-- The error in words. -/
def message : MapperError → String
  | noFields entity => entity ++ " declares no fields"
  | malformedTag entity tag fault =>
      "malformed tag '" ++ tag ++ "' on " ++ entity ++ ": " ++ fault.message
  | columnCount entity offered declared =>
      entity ++ " exposes " ++ offered.repr ++ " columns for " ++ declared.repr ++
        " declared fields"
  | conflictingTypes table existing incoming =>
      "table '" ++ table ++ "' is claimed by both '" ++ existing ++ "' and '" ++ incoming ++ "'"
  | foreignTable table owner incoming =>
      "table '" ++ table ++ "' was ensured for '" ++ owner ++ "', not '" ++ incoming ++ "'"
  | missingKey _ entity => entity ++ " has no primary key value"
  | unknownField entity field => entity ++ " has no field '" ++ field ++ "'"
  | notRelation entity field => entity ++ "." ++ field ++ " is not a relation field"
  | noColumnType entity field => entity ++ "." ++ field ++ " has no column type"
  | noStoredColumns entity => entity ++ " has no stored columns"
  | nothingToUpdate entity => entity ++ " has no columns to update"
  | rowCount table found =>
      "expected 1 affected row(s) in '" ++ table ++ "', found " ++ found.toNat.repr
  | notFound table key => "no row in '" ++ table ++ "' with key " ++ key.text
  | value e => e.message
  | driver e => "driver error: " ++ e.message
  | config .emptyAddress => "server address is empty"
  | config .emptyDatabase => "database name is empty"
  | custom _ _ message => message

/-- The error with its origin and class in front. -/
def labelled (e : MapperError) : String :=
  e.origin.name ++ ":" ++ e.errorClass.name ++ ": " ++ e.message

/-- Whether the error says that a row is missing. -/
def isNotFound (e : MapperError) : Bool := e.errorClass = .notFound

end MapperError

end EntityMapper
