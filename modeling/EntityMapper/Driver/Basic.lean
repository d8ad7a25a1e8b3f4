import EntityMapper.Error
import EntityMapper.Sql.Statement

/-! # Database drivers

The calls that the mapper makes on a driver, and a driver as a state machine that answers
them. A row cursor is opened by a query, advanced row by row, read, and finished.
-/

namespace EntityMapper

open Sql

/-- A call on a driver. -/
inductive Call
  | release
  | begin
  | commit
  | rollback
  | query (s : Statement)
  | next
  /-- Reads the current row into slots that hold the zero values of their columns. -/
  | read (slots : List Value)
  | finish
  | insert (s : Statement)
  | update (s : Statement)
  | delete (s : Statement)
  | execute (s : Statement)
  | tableExists (table : String)

namespace Call

/-- What a successful call answers: whether there is a row, the slots after reading, the
generated id or the count of affected rows, or whether a table is there. -/
def Answer : Call → Type
  | next | tableExists _ => Bool
  | read slots => { values : List Value // values.length = slots.length }
  | insert _ | update _ | delete _ => UInt64
  | _ => Unit

/-- The name of a call in logs. -/
def verb : Call → String
  | release => "RELEASE"
  | begin => "BEGIN"
  | commit => "COMMIT"
  | rollback => "ROLLBACK"
  | query _ => "QUERY"
  | next => "NEXT"
  | read _ => "GET"
  | finish => "FINISH"
  | insert _ => "INSERT"
  | update _ => "UPDATE"
  | delete _ => "DELETE"
  | execute _ => "EXECUTE"
  | tableExists _ => "CHECK"

/-- What a call is about: its statement, its table or its number of slots. -/
def subject? : Call → Option String
  | query s | insert s | update s | delete s | execute s => some s.text
  | tableExists table => some table
  | read slots => some slots.length.repr
  | _ => none

/-- The statement that a call runs. -/
def statement? : Call → Option Statement
  | query s | insert s | update s | delete s | execute s => some s
  | _ => none

/-- A call as logs show it. -/
def logText (call : Call) : String :=
  match call.subject? with
  | some subject => call.verb ++ " " ++ subject
  | none => call.verb

end Call

/-- A driver: how it answers a call in a state. A cursor never runs on for ever, as the
number of rows that remain shows. -/
structure Driver (σ : Type) where
  step : (call : Call) → σ → Except DriverError call.Answer × σ
  remaining : σ → Nat
  remaining_next : ∀ s, (step .next s).1 = .ok true → remaining (step .next s).2 < remaining s
  remaining_read : ∀ slots s, remaining (step (.read slots) s).2 ≤ remaining s

end EntityMapper
