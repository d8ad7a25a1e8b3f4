import EntityMapper.Error
import EntityMapper.Sql.Statement

/-! # Trace events

What the mapper reports while it works: the stages of an operation, every statement before it
runs, the tables it creates and drops, and what it finds odd.
-/

namespace EntityMapper

open Sql

/-- The operations of a session. -/
inductive Operation
  | create | insert | update | delete | query | drop
  deriving DecidableEq

/-- The name of an operation. -/
def Operation.name : Operation → String
  | create => "Create"
  | insert => "Insert"
  | update => "Update"
  | delete => "Delete"
  | query => "Query"
  | drop => "Drop"

/-- How far an operation has come. -/
inductive Stage
  | introspecting | schemaEnsuring | executing | hydrating | done | failed
  deriving DecidableEq

/-- The name of a stage. -/
def Stage.name : Stage → String
  | introspecting => "Introspecting"
  | schemaEnsuring => "SchemaEnsuring"
  | executing => "Executing"
  | hydrating => "Hydrating"
  | done => "Done"
  | failed => "Failed"

/-- How a statement is run. -/
inductive Verb
  | execute | insert | update | delete | query
  deriving DecidableEq

/-- The name of a verb. -/
def Verb.name : Verb → String
  | execute => "execute"
  | insert => "insert"
  | update => "update"
  | delete => "delete"
  | query => "query"

/-- The weight of an event. -/
inductive Level
  | trace | debug | info | warn
  deriving DecidableEq

/-- The name of a level. -/
def Level.name : Level → String
  | trace => "TRACE"
  | debug => "DEBUG"
  | info => "INFO"
  | warn => "WARN"

/-- An event. -/
inductive Event
  | began (op : Operation) (entity : String)
  | advanced (op : Operation) (entity : String) (source target : Stage)
  | failed (op : Operation) (entity : String) (stage : Stage) (error : MapperError)
  | statement (verb : Verb) (s : Statement)
  | creatingTable (table : String)
  | creatingLinks (table : String)
  | droppingTable (table : String)
  | droppingLinks (table : String)
  | unexpectedCount (table : String) (affected : UInt64)
  | nothingToUpdate (entity : String)
  | rollbackFailed (error : DriverError)
  | connecting (address database : String)

namespace Event

/-- The weight of an event. -/
def level : Event → Level
  | began .. | advanced .. => .trace
  | failed .. | statement .. | nothingToUpdate .. | connecting .. => .debug
  | creatingTable .. | creatingLinks .. | droppingTable .. | droppingLinks .. => .info
  | unexpectedCount .. | rollbackFailed .. => .warn

/-- The message of an event. -/
def message : Event → String
  | began .. => "begin"
  | advanced .. => "stage"
  | failed .. => "operation failed"
  | statement verb _ => verb.name
  | creatingTable _ => "creating table"
  | creatingLinks _ => "creating relation table"
  | droppingTable _ => "dropping table"
  | droppingLinks _ => "dropping relation table"
  | unexpectedCount .. => "update touched an unexpected row count"
  | nothingToUpdate _ => "no columns to update"
  | rollbackFailed _ => "rollback failed"
  | connecting .. => "connecting"

/-- The named values of an event, in order. -/
def fields : Event → List (String × String)
  | began op entity =>
      [("op", op.name), ("entity", entity), ("stage", Stage.introspecting.name)]
  | advanced op entity source target =>
      [("op", op.name), ("entity", entity), ("from", source.name), ("to", target.name)]
  | failed op entity stage error =>
      [("op", op.name), ("entity", entity), ("stage", stage.name),
       ("class", error.errorClass.name), ("error", error.message)]
  | statement _ s => [("sql", s.text)]
  | creatingTable table | creatingLinks table | droppingTable table | droppingLinks table =>
      [("table", table)]
  | unexpectedCount table affected => [("table", table), ("affected", affected.toNat.repr)]
  | nothingToUpdate entity => [("entity", entity)]
  | rollbackFailed error => [("error", (MapperError.driver error).message)]
  | connecting address database => [("address", address), ("db", database)]

/-- An event as traces show it: its level, its message and its named values. -/
def trace (e : Event) : List String :=
  e.level.name :: e.message :: e.fields.map fun (name, value) => name ++ "=" ++ value

end Event

end EntityMapper
