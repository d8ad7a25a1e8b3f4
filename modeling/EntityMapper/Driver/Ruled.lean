import EntityMapper.Driver.Row

/-! # A driver with failure rules

A driver that answers from queues and fails the calls that its rules pick. Tables follow the
schema statements that it runs.
-/

namespace EntityMapper

/-- A rule that fails calls of one verb whose subject contains a text: after skipping some,
and at most a number of times. -/
structure FailRule where
  verb : String
  fragment : String
  skip : Nat
  times : Option Nat
  message : String

namespace FailRule

/-- Whether the rule applies to a call. -/
def applies (rule : FailRule) (call : Call) : Bool :=
  rule.verb == call.verb && containsText rule.fragment (call.subject?.getD "") &&
    rule.times != some 0

/-- The message of the first rule that fails a call, and the rules afterwards. A rule that
still skips lets the next ones decide. -/
def fire (call : Call) : List FailRule → Option String × List FailRule
  | [] => (none, [])
  | rule :: rules =>
      if rule.applies call then
        if rule.skip = 0 then
          (some rule.message, { rule with times := rule.times.map (· - 1) } :: rules)
        else
          let (fired, rules) := fire call rules
          (fired, { rule with skip := rule.skip - 1 } :: rules)
      else
        let (fired, rules) := fire call rules
        (fired, rule :: rules)

end FailRule

/-- The state of a ruled driver. -/
structure Ruled where
  tables : List String
  nextId : UInt64
  inserted : List UInt64
  updated : List UInt64
  deleted : List UInt64
  results : List (List (List ScriptedCell))
  rules : List FailRule
  cursor : List (List ScriptedCell)
  row : Option (List ScriptedCell)

namespace Ruled

/-- A database without tables, with nothing queued. -/
def fresh : Ruled := ⟨[], 0, [], [], [], [], [], [], none⟩

instance : Inhabited Ruled := ⟨fresh⟩

/-- The answer of a call that no rule fails. -/
def answer : (call : Call) → Ruled → Except DriverError call.Answer × Ruled
  | .query _, s =>
      (.ok (), { s with results := s.results.tail, cursor := s.results.headD [], row := none })
  | .next, s =>
      match s.cursor with
      | [] => (.ok false, { s with row := none })
      | row :: cursor => (.ok true, { s with cursor, row := some row })
  | .finish, s => (.ok (), { s with cursor := [], row := none })
  | .read slots, s => (readRow s.row slots, s)
  | .insert _, s =>
      match s.inserted with
      | id :: inserted => (.ok id, { s with inserted })
      | [] => (.ok (s.nextId + 1), { s with nextId := s.nextId + 1 })
  | .update _, s => (.ok (s.updated.headD 1), { s with updated := s.updated.tail })
  | .delete _, s => (.ok (s.deleted.headD 1), { s with deleted := s.deleted.tail })
  | .execute statement, s =>
      match quotedName? statement.text with
      | some (table, _) => (.ok (), { s with tables := applySchema statement.text table s.tables })
      | none => (.ok (), s)
  | .tableExists table, s => (.ok (s.tables.contains table), s)
  | .release, s | .begin, s | .commit, s | .rollback, s => (.ok (), s)

/-- One call: a rule may fail it, and then it does nothing else. -/
def step (call : Call) (s : Ruled) : Except DriverError call.Answer × Ruled :=
  match FailRule.fire call s.rules with
  | (some message, rules) => (.error ⟨message⟩, { s with rules })
  | (none, rules) => answer call { s with rules }

/-- The driver with failure rules. -/
def driver : Driver Ruled where
  step := step
  remaining s := s.cursor.length
  remaining_next s h := by
    unfold step at h ⊢
    split at h
    · simp at h
    · simp only [answer] at h ⊢
      split at h
      · cases h
      · simp_all
  remaining_read slots s := by
    unfold step
    split <;> simp [answer]

end Ruled

end EntityMapper
