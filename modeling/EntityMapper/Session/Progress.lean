import EntityMapper.Session.Action

/-! # The progress of an operation

An operation passes through stages and reports every change of stage. It works on some
storage, of which it leaves what it has made so far when it fails.
-/

namespace EntityMapper

/-- Where an operation stands. -/
structure Progress (β : Type) where
  operation : Operation
  entity : String
  stage : Stage
  storage : β

/-- A step of an operation on storage. -/
abbrev Staged {σ : Type} (d : Driver σ) (β α : Type) : Type :=
  ExceptT MapperError (StateT (Progress β) (Action d)) α

namespace Staged

variable {σ α β : Type} {d : Driver σ}

/-- A result or error that is already known. -/
def ofExcept (result : Except MapperError α) : Staged d β α := ExceptT.mk (pure result)

/-- A task that leaves the storage alone. -/
def task (t : Task d α) : Staged d β α := ExceptT.mk (StateT.lift t.run)

/-- An attempt on the storage. -/
def attempt (f : β → Action d (Attempt β α)) : Staged d β α :=
  ExceptT.mk fun progress => do
    let left ← f progress.storage
    return (left.result, { progress with storage := left.storage })

/-- Enters a stage. -/
def advance (target : Stage) : Staged d β Unit :=
  ExceptT.mk fun progress => do
    Action.report (.advanced progress.operation progress.entity progress.stage target)
    return (.ok (), { progress with stage := target })

/-- Runs an operation on storage from its first stage to its last, which tells whether it
succeeded. -/
def operate (operation : Operation) (entity : String) (storage : β) (work : Staged d β α) :
    Action d (Attempt β α) := do
  Action.report (.began operation entity)
  let (result, progress) ← work.run.run ⟨operation, entity, .introspecting, storage⟩
  match result with
  | .ok _ => Action.report (.advanced operation entity progress.stage .done)
  | .error e =>
      Action.report (.failed operation entity progress.stage e)
      Action.report (.advanced operation entity progress.stage .failed)
  return ⟨progress.storage, result⟩

end Staged

end EntityMapper
