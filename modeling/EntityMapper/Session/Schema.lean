import EntityMapper.Model.Closure
import EntityMapper.Session.Progress
import EntityMapper.Sql.Builder

/-! # Ensuring and dropping tables

The tables of a model, of everything it reaches, and of every relation among these. A table
is looked for once as long as the cache remembers it.
-/

namespace EntityMapper

variable {n : Nat} {σ : Type} {d : Driver σ} (ms : Models n)

namespace Session

/-- Ensures a table: one that the cache does not know is looked for and created if need be. -/
def ensure (witness : Witness) (creating : Event) (definition : Except MapperError Sql.Statement) :
    Task d Unit := do
  if ← Task.check witness.table witness.origin then return
  if !(← Task.call (.tableExists witness.table)) then
    let statement ← Task.ofExcept definition
    Task.report creating
    Task.execute statement
  ExceptT.lift (Action.modifyCache (·.put witness))

/-- Ensures the table of a model. -/
def ensureTable (k : Fin n) : Task d Unit :=
  ensure (.ofModel (ms.model k)) (.creatingTable (ms.model k).table) (ms.createTable k)

/-- Ensures the table of a relation's links, which belongs to the relation's owner. -/
def ensureLinks (relation : Relation n) : Task d Unit :=
  ensure (.ofTable (ms.linkTable relation) (ms.model relation.owner))
    (.creatingLinks (ms.linkTable relation)) (.ok (ms.createLinks relation))

/-- Ensures the tables of a model and its dependencies, then those of all their relations. -/
def ensureSchema (k : Fin n) (dependencies : List (Fin n)) : Task d Unit := do
  let closure := dependencies ++ [k]
  closure.forM (ensureTable ms)
  closure.forM fun entity => do
    (← Task.ofExcept (ms.relations entity)).forM (ensureLinks ms)

/-- Drops a table that the cache knows, and forgets it. -/
def dropKnown (table origin : String) (dropping : Event) (statement : Sql.Statement) :
    Task d Unit := do
  if ← Task.check table origin then
    Task.report dropping
    Task.execute statement
    ExceptT.lift (Action.modifyCache (·.remove table))

/-- Drops the table of a model. -/
def dropTable (k : Fin n) : Task d Unit :=
  dropKnown (ms.model k).table (ms.model k).origin (.droppingTable (ms.model k).table) (ms.dropTable k)

/-- Drops the table of a relation's links. -/
def dropLinks (relation : Relation n) : Task d Unit :=
  dropKnown (ms.linkTable relation) (ms.model relation.owner).origin
    (.droppingLinks (ms.linkTable relation)) (ms.dropLinks relation)

/-- Drops the known tables of a model and its dependencies, then those of all their
relations. -/
def dropSchema (k : Fin n) (dependencies : List (Fin n)) : Task d Unit := do
  let closure := k :: dependencies
  closure.forM (dropTable ms)
  closure.forM fun entity => do
    (← Task.ofExcept (ms.relations entity)).forM (dropLinks ms)

/-- Ensures every table that records of a model need. -/
def create (k : Fin n) : Task d Unit := ExceptT.mk do
  let left ← Staged.operate .create (ms.model k).name () do
    let dependencies ← Staged.ofExcept (ms.dependencies k)
    Staged.advance .schemaEnsuring
    Staged.task (ensureSchema ms k dependencies)
  return left.result

/-- Drops every table that was ensured for records of a model. -/
def drop (k : Fin n) : Task d Unit := ExceptT.mk do
  let left ← Staged.operate .drop (ms.model k).name () do
    let dependencies ← Staged.ofExcept (ms.dependencies k)
    Staged.advance .executing
    Staged.task (dropSchema ms k dependencies)
  return left.result

end Session

end EntityMapper
