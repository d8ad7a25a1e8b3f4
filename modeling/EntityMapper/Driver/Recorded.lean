import EntityMapper.Driver.Row

/-! # A recording driver

A driver that keeps a log of the statements it was given, hands out ids from one, and fails
every statement that contains a chosen fragment.
-/

namespace EntityMapper

/-- The state of a recording driver. -/
structure Recorded where
  log : List String
  tables : List String
  nextId : UInt64
  updated : List UInt64
  deleted : List UInt64
  results : List (List (List Value))
  cursor : List (List Value)
  row : Option (List Value)
  openCursors : Nat
  failOn : Option String
  refusesCommit : Bool

namespace Recorded

/-- A database with the given tables and nothing queued. -/
def withTables (tables : List String) : Recorded :=
  ⟨[], tables, 0, [], [], [], [], none, 0, none, false⟩

/-- A database without tables. -/
def fresh : Recorded := withTables []

instance : Inhabited Recorded := ⟨fresh⟩

variable (s : Recorded)

/-- Queues the result of a later query. -/
def pushRows (rows : List (List Value)) : Recorded := { s with results := s.results ++ [rows] }

/-- Queues the count of a later update. -/
def pushUpdated (count : UInt64) : Recorded := { s with updated := s.updated ++ [count] }

/-- Queues the count of a later deletion. -/
def pushDeleted (count : UInt64) : Recorded := { s with deleted := s.deleted ++ [count] }

/-- Adds a line to the log. -/
def record (line : String) : Recorded := { s with log := s.log ++ [line] }

/-- The lines of the log that start with a word. -/
def entries (verb : String) : List String :=
  s.log.filter fun line => line.toList.takeWhile (· ≠ ' ') == verb.toList

/-- The failure of a statement or check that contains the chosen fragment. -/
def failure? (subject : String) : Option DriverError :=
  match s.failOn with
  | some fragment =>
      if containsText fragment subject then
        some ⟨"scripted failure on '" ++ fragment ++ "'"⟩
      else none
  | none => none

/-- The answer of a recorded statement or check that does not fail. -/
def answer : (call : Call) → Recorded → Except DriverError call.Answer × Recorded
  | .query _, s =>
      (.ok (), { s with
        results := s.results.tail
        cursor := s.results.headD []
        row := none
        openCursors := s.openCursors + 1 })
  | .next, s =>
      match s.cursor with
      | [] => (.ok false, { s with row := none })
      | row :: cursor => (.ok true, { s with cursor, row := some row })
  | .finish, s => (.ok (), { s with cursor := [], row := none, openCursors := s.openCursors - 1 })
  | .read slots, s => (readRow (s.row.map (·.map some)) slots, s)
  | .insert _, s => (.ok (s.nextId + 1), { s with nextId := s.nextId + 1 })
  | .update _, s => (.ok (s.updated.headD 1), { s with updated := s.updated.tail })
  | .delete _, s => (.ok (s.deleted.headD 1), { s with deleted := s.deleted.tail })
  | .execute statement, s =>
      match quotedName? statement.text with
      | some (table, true) =>
          (.ok (), { s with tables := applySchema statement.text table s.tables })
      | _ => (.ok (), s)
  | .tableExists table, s => (.ok (s.tables.contains table), s)
  | .commit, s =>
      if s.refusesCommit then (.error ⟨"scripted commit failure"⟩, s) else (.ok (), s)
  | .release, s | .begin, s | .rollback, s => (.ok (), s)

/-- Whether a call is left out of the log. -/
def isSilent : Call → Bool
  | .next | .read _ | .finish => true
  | _ => false

/-- One call: it is logged, and a statement or check may fail. -/
def step (call : Call) (s : Recorded) : Except DriverError call.Answer × Recorded :=
  if isSilent call then answer call s
  else
    let s := s.record call.logText
    match call.subject?.bind s.failure? with
    | some e => (.error e, s)
    | none => answer call s

/-- The recording driver. -/
def driver : Driver Recorded where
  step := step
  remaining s := s.cursor.length
  remaining_next s h := by
    simp only [step, isSilent, if_true, answer] at h ⊢
    split at h
    · cases h
    · simp_all
  remaining_read slots s := by simp [step, isSilent, answer]

end Recorded

end EntityMapper
