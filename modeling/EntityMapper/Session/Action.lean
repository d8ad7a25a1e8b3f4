import EntityMapper.Cache.Schema
import EntityMapper.Driver.Basic
import EntityMapper.Session.Event

/-! # Actions

A session works on a world: the state of a driver and the schema cache. An action answers a
value, the world after it, and a journal of the calls it made, the events it reported and the
changes it made to the cache. An action itself never fails; a task is an action that answers a
result or an error.
-/

namespace EntityMapper

/-- What a session works on. -/
structure World (σ : Type) where
  driver : σ
  cache : SchemaCache

/-- One line of a journal. -/
inductive Entry
  | event (e : Event)
  | call (c : Call) (answer : Except DriverError c.Answer)
  /-- The schema cache as a change leaves it. -/
  | cached (cache : SchemaCache)

/-- The lines that the calls of a journal leave in a log. -/
def logOf (journal : List Entry) : List String :=
  journal.filterMap fun
    | .call c _ => some c.logText
    | .event _ | .cached _ => none

/-- The traces that the events of a journal leave. -/
def traceOf (journal : List Entry) : List (List String) :=
  journal.filterMap fun
    | .call .. | .cached _ => none
    | .event e => some e.trace

/-- What an action leads to. -/
structure Outcome (σ α : Type) where
  value : α
  world : World σ
  journal : List Entry

/-- Work on the world of a driver. -/
def Action {σ : Type} (_ : Driver σ) (α : Type) : Type := World σ → Outcome σ α

namespace Action

variable {σ α β : Type} {d : Driver σ}

/-- What an action leads to from a world. -/
def run (action : Action d α) (w : World σ) : Outcome σ α := action w

instance : Monad (Action d) where
  pure a := fun w => ⟨a, w, []⟩
  bind action next := fun w =>
    let first := action w
    let second := next first.value first.world
    ⟨second.value, second.world, first.journal ++ second.journal⟩

instance [Inhabited α] : Inhabited (Action d α) := ⟨pure default⟩

@[simp] theorem run_pure (a : α) (w : World σ) :
    (pure a : Action d α).run w = ⟨a, w, []⟩ := rfl

@[simp] theorem run_bind (action : Action d α) (next : α → Action d β) (w : World σ) :
    (action >>= next).run w =
      { value := ((next (action.run w).value).run (action.run w).world).value
        world := ((next (action.run w).value).run (action.run w).world).world
        journal := (action.run w).journal ++
          ((next (action.run w).value).run (action.run w).world).journal } := rfl

/-- Reports an event. -/
def report (e : Event) : Action d Unit := fun w => ⟨(), w, [.event e]⟩

/-- Makes a call on the driver. -/
def call (c : Call) : Action d (Except DriverError c.Answer) := fun w =>
  let (answer, driver) := d.step c w.driver
  ⟨answer, { w with driver }, [.call c answer]⟩

/-- Looks at the state of the driver, or changes it, without a call. -/
def visit (f : σ → α × σ) : Action d α := fun w =>
  let (a, driver) := f w.driver
  ⟨a, { w with driver }, []⟩

/-- The schema cache. -/
def cache : Action d SchemaCache := fun w => ⟨w.cache, w, []⟩

/-- Changes the schema cache. -/
def modifyCache (f : SchemaCache → SchemaCache) : Action d Unit := fun w =>
  ⟨(), { w with cache := f w.cache }, [.cached (f w.cache)]⟩

/-- An action together with its journal. -/
def listen (action : Action d α) : Action d (α × List Entry) := fun w =>
  let outcome := action w
  ⟨(outcome.value, outcome.journal), outcome.world, outcome.journal⟩

end Action

/-- An action that answers a result or an error. -/
abbrev Task {σ : Type} (d : Driver σ) (α : Type) : Type := ExceptT MapperError (Action d) α

/-- What an attempt on some storage leaves, whether it fails or not, and its result. -/
structure Attempt (β α : Type) where
  storage : β
  result : Except MapperError α

namespace Task

variable {σ α β : Type} {d : Driver σ}

/-- A result or error that is already known. -/
def ofExcept (result : Except MapperError α) : Task d α := ExceptT.mk (pure result)

/-- A call whose failure is an error of the driver. -/
def call (c : Call) : Task d c.Answer :=
  ExceptT.mk do return (← Action.call c).mapError .driver

/-- Reports an event. -/
def report (e : Event) : Task d Unit := ExceptT.lift (Action.report e)

/-- Whether a table was ensured for a type. -/
def check (table origin : String) : Task d Bool :=
  ExceptT.mk do return (← Action.cache).check table origin

/-- Reports a statement and hands it to the driver. -/
def execute (s : Sql.Statement) : Task d Unit := do
  report (.statement .execute s)
  call (.execute s)

/-- Inserts a row or a link and answers the generated id. -/
def insert (s : Sql.Statement) : Task d UInt64 := do
  report (.statement .insert s)
  call (.insert s)

/-- Updates a row and answers how many were affected. -/
def update (s : Sql.Statement) : Task d UInt64 := do
  report (.statement .update s)
  call (.update s)

/-- Deletes rows or links and answers how many were affected. -/
def delete (s : Sql.Statement) : Task d UInt64 := do
  report (.statement .delete s)
  call (.delete s)

end Task

end EntityMapper
