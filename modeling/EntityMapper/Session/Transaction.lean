import EntityMapper.Session.Read
import EntityMapper.Session.Write

/-! # Transactions

Work between a begin and either a commit or a rollback. The first error counts; a rollback
that fails is only reported.
-/

namespace EntityMapper.Session

variable {σ α β : Type} {d : Driver σ}

/-- Undoes a transaction. -/
def rollback : Action d Unit := do
  match ← Action.call .rollback with
  | .ok () => pure ()
  | .error e => Action.report (.rollbackFailed e)

/-- Runs work on some storage inside one transaction. -/
def transaction (storage : β) (work : β → Action d (Attempt β α)) : Action d (Attempt β α) := do
  match ← (Task.call .begin).run with
  | .error e => return ⟨storage, .error e⟩
  | .ok () =>
      let left ← work storage
      let result ← (do
        let answer ← Task.ofExcept left.result
        Task.call .commit
        return answer : Task d α).run
      match result with
      | .ok _ => pure ()
      | .error _ => rollback
      return ⟨left.storage, result⟩

/-- Hands the driver back. -/
def release : Task d Unit := Task.call .release

end EntityMapper.Session
