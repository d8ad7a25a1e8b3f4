import EntityMapper.Driver.Recorded
import EntityMapper.Proofs.Session.Requests

/-!
# Cursors

A query that succeeds opens a cursor, on which rows are advanced and read until it is finished. The
state of the cursor tells which calls may be made (`Cursor.answer?`), and a journal is balanced when
every call in it may be made where it is, with no cursor open at either end. Every job is balanced,
so every request is (`Request.cursors_balanced`), and a database that counts its open cursors counts
as many after a request as before it (`Request.openCursors_kept`).
-/

namespace EntityMapper

variable {σ α : Type} {d : Driver σ}

/-- Whether a cursor is open, and whether it was just advanced to a row. -/
inductive Cursor
  | closed | opened | onRow
  deriving DecidableEq

namespace Cursor

/-- What a call makes of the cursor; none where the call may not be made. A row is read only right
after the cursor was advanced to it, and an open cursor is finished before any other call. -/
def answer? (cursor : Cursor) : (call : Call) → Except DriverError call.Answer → Option Cursor
  | .query _, .ok _ => if cursor = closed then some opened else none
  | .next, .ok true => if cursor = closed then none else some onRow
  | .next, _ => if cursor = closed then none else some opened
  | .read _, _ => if cursor = onRow then some opened else none
  | .finish, _ => if cursor = closed then none else some closed
  | _, _ => if cursor = closed then some closed else none

/-- What a line of a journal makes of the cursor. -/
def step? (cursor : Cursor) : Entry → Option Cursor
  | .event _ | .cached _ => some cursor
  | .call call answer => cursor.answer? call answer

/-- What a journal makes of the cursor; none where some call in it may not be made. -/
def walk? (cursor : Cursor) (journal : List Entry) : Option Cursor := journal.foldlM step? cursor

theorem walk?_append (cursor : Cursor) (journal later : List Entry) :
    cursor.walk? (journal ++ later) = (cursor.walk? journal).bind (·.walk? later) :=
  List.foldlM_append

/-- Reports leave the cursor as it is. -/
theorem walk?_reports (cursor : Cursor) (events : List Event) :
    cursor.walk? (reports events) = some cursor := by
  induction events with
  | nil => rfl
  | cons e events ih => exact ih

end Cursor

/-! ## Balanced journals -/

/-- Whether every call of a journal may be made where it is, with no cursor open before it or after
it. -/
def Balanced (journal : List Entry) : Prop := Cursor.closed.walk? journal = some .closed

theorem Balanced.append {journal later : List Entry} (h : Balanced journal)
    (hlater : Balanced later) : Balanced (journal ++ later) := by
  rw [Balanced, Cursor.walk?_append, h]
  exact hlater

theorem Balanced.quiet (events : List Event) : Balanced (reports events) :=
  Cursor.closed.walk?_reports events

/-- Being balanced is a law of runs. -/
theorem Balanced.runLaw : RunLaw fun _ (_ : World σ) journal _ => Balanced journal :=
  .blind (fun _ events => .quiet events) .append

/-! ## Jobs -/

namespace Session

variable {s : Sql.Statement} {slots : List Value} {zero : Value}

/-- Scanning the first row leaves the cursor open. -/
theorem scanFirst_walk (w : World σ) :
    Cursor.opened.walk? ((scanFirst slots : Action d _).run w).journal = some .opened := by
  rw [scanFirst, Action.run_bind, Action.run_call]
  rcases d.step .next w.driver with ⟨e | found, atRow⟩
  · rfl
  · cases found with
    | false => rfl
    | true => rfl

/-- Scanning all rows leaves the cursor open. -/
theorem scanColumn_walk (w : World σ) :
    Cursor.opened.walk? (scanColumn d zero w).journal = some .opened := by
  fun_induction scanColumn d zero w with
  | case1 w e atEnd hstep => rfl
  | case2 w atEnd hstep => rfl
  | case3 w atRow hstep entry e after hread => rfl
  | case4 w atRow hstep entry values after hread _ rest ih => exact ih

/-- Fetching opens a cursor, if the query succeeds, and finishes it after the scan. -/
theorem fetch_balanced {scan : Action d (Except DriverError α)}
    (hscan : ∀ w, Cursor.opened.walk? (scan.run w).journal = some .opened) (w : World σ) :
    Balanced ((fetch s scan : Task d α).exec w).journal := by
  have hrun := fetch_run s scan w
  generalize (fetch s scan : Task d α).exec w = outcome at hrun ⊢
  cases hrun with
  | refused hquery => rfl
  | scanned hquery hleft hfinish =>
      subst hleft
      show Cursor.opened.walk? (_ ++ [_]) = some .closed
      rw [Cursor.walk?_append, hscan]
      rfl

/-- Ensuring a table opens no cursor. -/
theorem ensure_balanced {witness : Witness} {creating : Event}
    {definition : Except MapperError Sql.Statement} (w : World σ) :
    Balanced ((ensure witness creating definition : Task d Unit).exec w).journal := by
  have hrun := ensure_run (d := d) witness creating definition w
  generalize (ensure witness creating definition : Task d Unit).exec w = outcome at hrun ⊢
  cases hrun <;> rfl

/-- Dropping a table opens no cursor. -/
theorem dropKnown_balanced {table origin : String} {dropping : Event} (w : World σ) :
    Balanced ((dropKnown table origin dropping s : Task d Unit).exec w).journal := by
  have hrun := dropKnown_run (d := d) table origin dropping s w
  generalize (dropKnown table origin dropping s : Task d Unit).exec w = outcome at hrun ⊢
  cases hrun <;> rfl

end Session

/-- Every job is balanced. -/
theorem Job.balanced (job : Job) (w : World σ) : Balanced ((job.task d).exec w).journal := by
  cases job with
  | ensure witness creating definition => exact Session.ensure_balanced w
  | drop table origin dropping statement => exact Session.dropKnown_balanced w
  | insert s | update s | delete s => rfl
  | fetchRow s slots => exact Session.fetch_balanced Session.scanFirst_walk w
  | fetchColumn s zero => exact Session.fetch_balanced Session.scanColumn_walk w

/-! ## What a line does to the cursor -/

/-- Whether a line may stand between a query and the finish of its cursor. -/
def Entry.OnCursor : Entry → Prop
  | .call .next _ | .call (.read _) _ | .event _ | .cached _ => True
  | .call .. => False

/-- The number of open cursors after a line. A cursor is finished by the call, whatever the answer. -/
def Entry.openAfter (count : Nat) : Entry → Nat
  | .call (.query _) (.ok _) => count + 1
  | .call .finish _ => count - 1
  | _ => count

/-- The number of open cursors after a journal. -/
def openAfter (count : Nat) (journal : List Entry) : Nat := journal.foldl Entry.openAfter count

theorem Entry.OnCursor.openAfter_eq {entry : Entry} (h : entry.OnCursor) (count : Nat) :
    entry.openAfter count = count := by
  cases entry with
  | event e | cached cache => rfl
  | call call answer =>
      cases call with
      | next | read slots => rfl
      | release | begin | commit | rollback | query s | finish | insert s | update s | delete s
      | execute s | tableExists table => exact h.elim

namespace Cursor

/-- All that a line can do to the cursor: open it, work on it, finish it, or have nothing to do with
it. -/
inductive Moves : Cursor → Entry → Cursor → Prop
  | opens (s : Sql.Statement) : Moves closed (.call (.query s) (.ok ())) opened
  | works {cursor left : Cursor} {entry : Entry} (hopen : cursor ≠ closed) (hleft : left ≠ closed)
      (hentry : entry.OnCursor) : Moves cursor entry left
  | finishes {cursor : Cursor} (hopen : cursor ≠ closed) (answer : Except DriverError Unit) :
      Moves cursor (.call .finish answer) closed
  | idles {entry : Entry} (hentry : ∀ count, entry.openAfter count = count) :
      Moves closed entry closed

/-- Where an open cursor leads to. -/
theorem step?_moves_of_open {cursor left : Cursor} {entry : Entry} (hopen : cursor ≠ closed)
    (h : cursor.step? entry = some left) : Moves cursor entry left := by
  cases entry with
  | event e | cached cache =>
      cases h
      exact .works hopen hopen trivial
  | call call answer =>
      rw [step?] at h
      cases call with
      | next =>
          match answer with
          | .ok true | .ok false | .error e =>
              simp only [answer?, if_neg hopen] at h
              cases h
              exact .works hopen Cursor.noConfusion trivial
      | read slots =>
          rw [answer?] at h
          split at h
          · cases h
            exact .works hopen Cursor.noConfusion trivial
          · cases h
      | finish =>
          rw [answer?, if_neg hopen] at h
          cases h
          exact .finishes hopen answer
      | query s =>
          cases answer with
          | ok u | error e => simp [answer?, hopen] at h
      | release | begin | commit | rollback | insert s | update s | delete s | execute s
      | tableExists table => simp [answer?, hopen] at h

/-- Where a cursor that is not open leads to. -/
theorem step?_moves_of_closed {left : Cursor} {entry : Entry} (h : closed.step? entry = some left) :
    Moves closed entry left := by
  cases entry with
  | event e | cached cache =>
      cases h
      exact .idles fun _ => rfl
  | call call answer =>
      cases call with
      | query s =>
          cases answer with
          | ok u =>
              cases h
              exact .opens s
          | error e =>
              cases h
              exact .idles fun _ => rfl
      | next =>
          match answer with
          | .ok true | .ok false | .error e => cases h
      | read slots | finish => cases h
      | release | begin | commit | rollback | insert s | update s | delete s | execute s
      | tableExists table =>
          cases h
          exact .idles fun _ => rfl

/-- A line does one of the listed things to the cursor. -/
theorem step?_moves {cursor left : Cursor} {entry : Entry} (h : cursor.step? entry = some left) :
    Moves cursor entry left := by
  by_cases hopen : cursor = closed
  · subst hopen
    exact step?_moves_of_closed h
  · exact step?_moves_of_open hopen h

/-- A cursor that is open is finished after calls of its own, and balanced lines follow. -/
theorem finish_of_walk? {cursor : Cursor} {journal : List Entry} (hopen : cursor ≠ closed)
    (h : cursor.walk? journal = some closed) : ∃ inside answer rest,
      journal = inside ++ .call .finish answer :: rest ∧ (∀ entry ∈ inside, entry.OnCursor) ∧
        Balanced rest := by
  induction journal generalizing cursor with
  | nil => exact absurd (Option.some.inj h) hopen
  | cons entry journal ih =>
      obtain ⟨left, hstep, h⟩ := Option.bind_eq_some_iff.1 h
      cases step?_moves hstep with
      | opens s => exact absurd rfl hopen
      | works _ hleft hentry =>
          obtain ⟨inside, answer, rest, rfl, hall, hrest⟩ := ih hleft h
          exact ⟨entry :: inside, answer, rest, rfl, List.forall_mem_cons.2 ⟨hentry, hall⟩, hrest⟩
      | finishes _ answer => exact ⟨[], answer, journal, rfl, List.forall_mem_nil _, h⟩
      | idles hentry => exact absurd rfl hopen

/-- The number of cursors that are open. -/
def held : Cursor → Nat
  | closed => 0
  | opened | onRow => 1

theorem held_of_open {cursor : Cursor} (h : cursor ≠ closed) : cursor.held = 1 := by
  cases cursor with
  | closed => exact absurd rfl h
  | opened | onRow => rfl

/-- A line counts what it does to the cursor. -/
theorem Moves.openAfter_eq {cursor left : Cursor} {entry : Entry} (h : Moves cursor entry left)
    (count : Nat) : entry.openAfter (count + cursor.held) = count + left.held := by
  cases h with
  | opens s => rfl
  | works hopen hleft hentry => rw [hentry.openAfter_eq, held_of_open hopen, held_of_open hleft]
  | finishes hopen answer =>
      rw [held_of_open hopen]
      rfl
  | idles hentry => exact hentry _

/-- A journal counts what it makes of the cursor. -/
theorem openAfter_of_walk? {cursor left : Cursor} {journal : List Entry}
    (h : cursor.walk? journal = some left) (count : Nat) :
    openAfter (count + cursor.held) journal = count + left.held := by
  induction journal generalizing cursor with
  | nil =>
      cases h
      rfl
  | cons entry journal ih =>
      obtain ⟨next, hstep, h⟩ := Option.bind_eq_some_iff.1 h
      show openAfter (entry.openAfter _) journal = _
      rw [(step?_moves hstep).openAfter_eq]
      exact ih h

end Cursor

/-! ## Requests -/

namespace Request

/-- Every request is balanced. -/
theorem balanced (q : Request) (w : World σ) : Balanced ((q.act d).run w).journal :=
  q.composed.law Balanced.runLaw (fun job _ w => job.balanced w) w

/-- Whatever the driver answers and the cache knows, a request uses cursors as they may be used: it
queries, and makes calls that have nothing to do with a cursor, only where none is open, advances
and finishes only one that is open, and reads only right after it was advanced to a row. Every query
that succeeds is followed by calls that work on its cursor and then by its finish. As many cursors
are open afterwards as were before, also where the request fails. -/
theorem cursors_balanced (q : Request) (w : World σ) :
    Cursor.closed.walk? ((q.act d).run w).journal = some .closed ∧
      (∀ before s after, ((q.act d).run w).journal = before ++ .call (.query s) (.ok ()) :: after →
        ∃ inside answer rest, after = inside ++ .call .finish answer :: rest ∧
          (∀ entry ∈ inside, entry.OnCursor) ∧ Cursor.closed.walk? rest = some .closed) ∧
      ∀ count, openAfter count ((q.act d).run w).journal = count := by
  have hbalanced := q.balanced (d := d) w
  refine ⟨hbalanced, fun before s after hjournal => ?_, Cursor.openAfter_of_walk? hbalanced⟩
  rw [Balanced, hjournal, Cursor.walk?_append] at hbalanced
  obtain ⟨cursor, -, hbalanced⟩ := Option.bind_eq_some_iff.1 hbalanced
  obtain ⟨left, hstep, hafter⟩ := Option.bind_eq_some_iff.1 hbalanced
  cases Cursor.step?_moves hstep with
  | opens => exact Cursor.finish_of_walk? Cursor.noConfusion hafter
  | works _ _ hentry => exact hentry.elim
  | idles hentry => exact absurd (hentry 0) (Nat.succ_ne_zero 0)

end Request

/-! ## A database that counts -/

namespace Recorded

/-- An answer counts the cursor that its call opens or finishes. -/
theorem answer_openCursors (call : Call) (s : Recorded) :
    (answer call s).2.openCursors =
      Entry.openAfter s.openCursors (.call call (answer call s).1) := by
  cases call with
  | next | commit | execute statement =>
      rw [answer]
      split <;> rfl
  | query | finish | read | insert | update | delete | tableExists | release | begin
  | rollback => rfl

/-- A call counts the cursor that it opens or finishes. -/
theorem step_openCursors (call : Call) (s : Recorded) :
    (step call s).2.openCursors = Entry.openAfter s.openCursors (.call call (step call s).1) := by
  rw [step]
  split
  · exact answer_openCursors call s
  · rename_i hlogged
    dsimp only
    split
    · -- A call that is logged and fails is no finish.
      cases call with
      | finish => exact absurd rfl hlogged
      | _ => rfl
    · exact answer_openCursors call (s.record call.logText)

/-- The count after a run is that of its journal. -/
theorem openCursors_eq {w w' : World Recorded} {journal : List Entry}
    (h : Recounts driver w journal w') :
    w'.driver.openCursors = openAfter w.driver.openCursors journal := by
  induction h with
  | done w => rfl
  | event e _ ih | cached cache _ ih => exact ih
  | @call w w' journal s call answer hstep _ ih =>
      have hcount : (driver.step call w.driver).2.openCursors =
          Entry.openAfter w.driver.openCursors (.call call (driver.step call w.driver).1) :=
        step_openCursors call w.driver
      rw [hstep] at hcount
      rw [ih, hcount]
      rfl

end Recorded

/-- A recorded database has as many open cursors after a request as before it. -/
theorem Request.openCursors_kept (q : Request) (w : World Recorded) :
    ((q.act Recorded.driver).run w).world.driver.openCursors = w.driver.openCursors := by
  rw [Recorded.openCursors_eq (q.composed.recounts w)]
  exact Cursor.openAfter_of_walk? (q.balanced w) _

end EntityMapper
