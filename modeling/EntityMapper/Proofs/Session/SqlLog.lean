import EntityMapper.Proofs.Session.Laws

/-!
# The log of statements

Every statement is reported before it is run, and an update that has not affected one row is
followed by a warning with the number of rows. In a journal that is put together from such groups
and from lines that say nothing of statements (`Logged`) the log tells the truth (`LogTruthful`).
Every journal of a program is one (`Program.log_truthful`).
-/

namespace EntityMapper

variable {n : Nat} {σ α : Type} {d : Driver σ}

/-! ## What a log says -/

/-- The text of the statement that an event carries where statements are logged. -/
def Event.sql? (e : Event) : Option String :=
  if e.level = .debug then e.fields.lookup "sql" else none

/-- The statement that a call runs, and how it is run. -/
def Call.run? : Call → Option (Verb × Sql.Statement)
  | .execute s => some (.execute, s)
  | .insert s => some (.insert, s)
  | .update s => some (.update, s)
  | .delete s => some (.delete, s)
  | .query s => some (.query, s)
  | _ => none

namespace Entry

/-- The text of a statement that is logged. -/
def logged? : Entry → Option String
  | .event e => e.sql?
  | .call .. | .cached _ => none

/-- The text of a statement that the driver receives. -/
def received? : Entry → Option String
  | .call c _ => c.statement?.map (·.text)
  | .event _ | .cached _ => none

/-- The number of rows that a warning carries. -/
def warned? : Entry → Option UInt64
  | .event (.unexpectedCount _ affected) => some affected
  | _ => none

/-- The number of rows that an update has affected, where it is not one. -/
def miscount? : Entry → Option UInt64
  | .call (.update _) (.ok affected) => Option.guard (· ≠ 1) affected
  | _ => none

/-- Whether a line neither logs a statement nor runs one, nor warns of a number of rows. -/
def Silent : Entry → Prop
  | .event (.statement ..) | .event (.unexpectedCount ..) => False
  | .event _ | .cached _ => True
  | .call c _ => c.statement? = none

end Entry

/-- Whether the log in a journal tells the truth: the logged texts are those that the driver
receives, one for each statement and in order; each statement is logged right before it is run,
whether it fails or not; the warnings carry the numbers of rows of the updates that have not
affected one, in order; and each of these updates is followed by its warning. -/
structure LogTruthful (journal : List Entry) : Prop where
  texts_eq : journal.filterMap Entry.logged? = journal.filterMap Entry.received?
  logged_before : ∀ before call answer after s,
    journal = before ++ .call call answer :: after → call.statement? = some s →
      ∃ earlier verb, before = earlier ++ [.event (.statement verb s)] ∧ call.run? = some (verb, s)
  counts_eq : journal.filterMap Entry.warned? = journal.filterMap Entry.miscount?
  warned_after : ∀ before s affected after,
    journal = before ++ .call (.update s) (.ok affected) :: after → affected ≠ (1 : UInt64) →
      ∃ table later, after = .event (.unexpectedCount table affected) :: later

/-! ## Groups of lines -/

/-- Whether a journal is put together from silent lines and from statements, each logged and then
run, with a warning after an update that has not affected one row. -/
inductive Logged : List Entry → Prop
  | nil : Logged []
  | silent {entry : Entry} {journal : List Entry} (h : entry.Silent) (hrest : Logged journal) :
      Logged (entry :: journal)
  | run {verb : Verb} {s : Sql.Statement} {call : Call} {answer : Except DriverError call.Answer}
      {journal : List Entry} (hcall : call.run? = some (verb, s))
      (hcount : (Entry.call call answer).miscount? = none) (hrest : Logged journal) :
      Logged (.event (.statement verb s) :: .call call answer :: journal)
  | miscounted {s : Sql.Statement} {affected : UInt64} {table : String} {journal : List Entry}
      (hcount : affected ≠ 1) (hrest : Logged journal) :
      Logged (.event (.statement .update s) :: .call (.update s) (.ok affected) ::
        .event (.unexpectedCount table affected) :: journal)

namespace Logged

variable {journal later : List Entry}

theorem append (h : Logged journal) (hlater : Logged later) : Logged (journal ++ later) := by
  induction h with
  | nil => exact hlater
  | silent h _ ih => exact .silent h ih
  | run hcall hcount _ ih => exact .run hcall hcount ih
  | miscounted hcount _ ih => exact .miscounted hcount ih

/-- Silent lines. -/
theorem of_silent (h : ∀ entry ∈ journal, entry.Silent) : Logged journal := by
  induction journal with
  | nil => exact .nil
  | cons entry journal ih =>
      exact .silent (h entry List.mem_cons_self) (ih fun e he => h e (List.mem_cons_of_mem _ he))

end Logged

theorem Call.statement?_of_run? {call : Call} {verb : Verb} {s : Sql.Statement}
    (h : call.run? = some (verb, s)) : call.statement? = some s := by
  cases call with
  | query | insert | update | delete | execute =>
      cases h
      rfl
  | release | begin | commit | rollback | next | read | finish | tableExists => cases h

/-- A silent line logs no text, hands over none, carries no count and needs none. -/
theorem Entry.Silent.blank {entry : Entry} (h : entry.Silent) : entry.logged? = none ∧
    entry.received? = none ∧ entry.warned? = none ∧ entry.miscount? = none := by
  cases entry with
  | cached cache => exact ⟨rfl, rfl, rfl, rfl⟩
  | event e =>
      cases e with
      | statement | unexpectedCount => exact absurd h id
      | began | advanced | failed | creatingTable | creatingLinks | droppingTable | droppingLinks
      | nothingToUpdate | rollbackFailed | connecting =>
          exact ⟨by simp [logged?, Event.sql?, Event.level, Event.fields], rfl, rfl, rfl⟩
  | call c answer =>
      have hstatement : c.statement? = none := h
      refine ⟨rfl, by rw [received?, hstatement]; rfl, rfl, ?_⟩
      cases c with
      | query | insert | update | delete | execute => cases hstatement
      | release | begin | commit | rollback | next | read | finish | tableExists => rfl

theorem Entry.logged?_statement (verb : Verb) (s : Sql.Statement) :
    (Entry.event (.statement verb s)).logged? = some s.text := by
  simp [logged?, Event.sql?, Event.level, Event.fields]

theorem Entry.received?_of_run? {call : Call} (answer : Except DriverError call.Answer)
    {verb : Verb} {s : Sql.Statement} (h : call.run? = some (verb, s)) :
    (Entry.call call answer).received? = some s.text := by
  rw [received?, Call.statement?_of_run? h]
  rfl

/-- The answer to an update carries a count that needs a warning unless it is one. -/
theorem Entry.miscount?_update (s : Sql.Statement) (affected : UInt64) :
    (Entry.call (.update s) (.ok affected)).miscount?
      = if affected = 1 then none else some affected := by
  show Option.guard (fun affected : UInt64 => decide (affected ≠ 1)) affected = _
  by_cases h : affected = 1 <;> simp [Option.guard, h]

namespace Logged

variable {journal : List Entry}

/-- The logged texts are those that the driver receives. -/
theorem texts_eq (h : Logged journal) :
    journal.filterMap Entry.logged? = journal.filterMap Entry.received? := by
  induction h with
  | nil => rfl
  | silent h _ ih =>
      obtain ⟨hlogged, hreceived, -, -⟩ := h.blank
      rw [List.filterMap_cons_none hlogged, List.filterMap_cons_none hreceived, ih]
  | run hcall _ _ ih =>
      rw [List.filterMap_cons_some (Entry.logged?_statement _ _), List.filterMap_cons_none rfl,
        List.filterMap_cons_none rfl,
        List.filterMap_cons_some (Entry.received?_of_run? _ hcall), ih]
  | @miscounted s affected table journal _ _ ih =>
      have hreceived : (Entry.call (.update s) (.ok affected)).received? = some s.text :=
        Entry.received?_of_run? _ rfl
      have hwarning : (Entry.event (.unexpectedCount table affected)).logged? = none := by
        simp [Entry.logged?, Event.sql?, Event.level]
      rw [List.filterMap_cons_some (Entry.logged?_statement _ _), List.filterMap_cons_none rfl,
        List.filterMap_cons_none hwarning, List.filterMap_cons_none rfl,
        List.filterMap_cons_some hreceived, List.filterMap_cons_none rfl, ih]

/-- The warnings carry the counts of the updates that need one. -/
theorem counts_eq (h : Logged journal) :
    journal.filterMap Entry.warned? = journal.filterMap Entry.miscount? := by
  induction h with
  | nil => rfl
  | silent h _ ih =>
      obtain ⟨-, -, hwarned, hcount⟩ := h.blank
      rw [List.filterMap_cons_none hwarned, List.filterMap_cons_none hcount, ih]
  | run hcall hcount _ ih =>
      rw [List.filterMap_cons_none rfl, List.filterMap_cons_none rfl, List.filterMap_cons_none rfl,
        List.filterMap_cons_none hcount, ih]
  | @miscounted s affected table journal hcount _ ih =>
      have hcount := (Entry.miscount?_update s affected).trans (if_neg hcount)
      have hwarned : (Entry.event (.unexpectedCount table affected)).warned? = some affected := rfl
      rw [List.filterMap_cons_none rfl, List.filterMap_cons_none rfl,
        List.filterMap_cons_some hwarned, List.filterMap_cons_none rfl,
        List.filterMap_cons_some hcount,
        List.filterMap_cons_none rfl, ih]

/-- A statement that is run is logged right before, and a count that needs a warning has it right
after. -/
theorem around_call (h : Logged journal) {before after : List Entry} {call : Call}
    {answer : Except DriverError call.Answer} {s : Sql.Statement}
    (hjournal : journal = before ++ .call call answer :: after)
    (hs : call.statement? = some s) :
    (∃ earlier verb, before = earlier ++ [.event (.statement verb s)] ∧
      call.run? = some (verb, s)) ∧
    ∀ affected, (Entry.call call answer).miscount? = some affected →
      ∃ table later, after = .event (.unexpectedCount table affected) :: later := by
  induction h generalizing before with
  | nil => cases before <;> cases hjournal
  | silent h _ ih =>
      cases before with
      | nil =>
          cases hjournal
          have hsilent : call.statement? = none := h
          rw [hsilent] at hs
          cases hs
      | cons entry before =>
          obtain ⟨rfl, hrest⟩ := List.cons.inj hjournal
          obtain ⟨⟨earlier, verb, rfl, hcall⟩, hafter⟩ := ih hrest
          exact ⟨⟨_ :: earlier, verb, rfl, hcall⟩, hafter⟩
  | run hcall hcount _ ih =>
      match before with
      | [] => cases hjournal
      | [_] =>
          cases hjournal
          cases (Call.statement?_of_run? hcall).symm.trans hs
          exact ⟨⟨[], _, rfl, hcall⟩, fun affected h => nomatch hcount.symm.trans h⟩
      | _ :: _ :: before =>
          cases hjournal
          obtain ⟨⟨earlier, verb, rfl, hcall⟩, hafter⟩ := ih rfl
          exact ⟨⟨_ :: _ :: earlier, verb, rfl, hcall⟩, hafter⟩
  | @miscounted s' affected table journal hcount _ ih =>
      match before with
      | [] => cases hjournal
      | [_] =>
          cases hjournal
          cases hs
          refine ⟨⟨[], .update, rfl, rfl⟩, fun affected h => ?_⟩
          rw [Entry.miscount?_update, if_neg hcount] at h
          cases h
          exact ⟨table, _, rfl⟩
      | [_, _] => cases hjournal
      | _ :: _ :: _ :: before =>
          cases hjournal
          obtain ⟨⟨earlier, verb, rfl, hcall⟩, hafter⟩ := ih rfl
          exact ⟨⟨_ :: _ :: _ :: earlier, verb, rfl, hcall⟩, hafter⟩

/-- The log in a journal that is put together from such groups tells the truth. -/
theorem truthful (h : Logged journal) : LogTruthful journal where
  texts_eq := h.texts_eq
  logged_before _ _ _ _ _ hjournal hs := (h.around_call hjournal hs).1
  counts_eq := h.counts_eq
  warned_after _ _ _ _ hjournal haffected :=
    (h.around_call hjournal rfl).2 _ ((Entry.miscount?_update _ _).trans (if_neg haffected))

end Logged

/-! ## What requests and programs log -/

/-- That statements are logged is kept along runs. -/
theorem loggedLaw : JournalLaw fun (_ : World σ) journal _ => Logged journal where
  nil _ := .nil
  append := .append
  stage e he _ := by
    refine .silent ?_ .nil
    cases e with
    | began | advanced | failed => exact trivial
    | statement | creatingTable | creatingLinks | droppingTable | droppingLinks | unexpectedCount
    | nothingToUpdate | rollbackFailed | connecting => exact absurd he id

section Pieces

variable {w : World σ}

/-- A notice logs no statement. -/
theorem Event.IsNotice.silent {e : Event} (h : e.IsNotice) : (Entry.event e).Silent := by
  cases e with
  | creatingTable | creatingLinks | droppingTable | droppingLinks | nothingToUpdate => exact trivial
  | began | advanced | failed | statement | unexpectedCount | rollbackFailed | connecting =>
      exact absurd h id

/-- A schema statement is logged before it is run. -/
theorem logged_executed {s : Sql.Statement} {answer : Except DriverError Unit}
    {journal : List Entry} (h : Logged journal) : Logged (executed s answer ++ journal) :=
  .run rfl rfl h

/-- A statement of which the count is not looked at is logged before it is run. -/
theorem logged_reported {verb : Verb} {s : Sql.Statement} (call : Call)
    (hcall : call.run? = some (verb, s))
    (hcount : ∀ answer, (Entry.call call answer).miscount? = none) :
    (do Task.report (.statement verb s); Task.call call : Task d call.Answer).Obeys
      fun _ _ journal _ => Logged journal := by
  intro w
  rw [Task.exec_reported _ rfl]
  exact .run hcall (hcount _) .nil

/-- A query is logged before it is run, and its cursor runs no statement. -/
theorem logged_fetch {s : Sql.Statement} {scan : Action d (Except DriverError α)}
    (hscan : ∀ w, ∀ entry ∈ (scan.run w).journal, entry.Silent) :
    (Session.fetch s scan : Task d α).Obeys fun _ _ journal _ => Logged journal := by
  intro w
  have hrun := Session.fetch_run (d := d) s scan w
  generalize (Session.fetch s scan : Task d α).exec w = outcome at hrun ⊢
  cases hrun with
  | refused => exact .run rfl rfl .nil
  | scanned hquery hleft hfinish =>
      subst hleft
      exact .run rfl rfl ((Logged.of_silent (hscan _)).append (.silent rfl .nil))

/-- Every job but an update logs its statement before it is run. -/
theorem Job.Worded.logged {E : MapperError → Prop} {job : Job} (h : job.Worded E) :
    (job.task d).Obeys fun _ _ journal _ => Logged journal := by
  cases job with
  | ensure witness creating definition =>
      intro w
      have hrun := Session.ensure_run (d := d) witness creating definition w
      have hnotice := h.1.silent
      show Logged ((Session.ensure witness creating definition : Task d Unit).exec w).journal
      generalize (Session.ensure witness creating definition : Task d Unit).exec w = outcome
        at hrun ⊢
      cases hrun with
      | known | foreign => exact .nil
      | unchecked | undefined => exact .silent rfl .nil
      | found => exact .silent rfl (.silent trivial .nil)
      | uncreated => exact .silent rfl (.silent hnotice (logged_executed .nil))
      | created => exact .silent rfl (.silent hnotice (logged_executed (.silent trivial .nil)))
  | drop table origin dropping statement =>
      intro w
      have hrun := Session.dropKnown_run (d := d) table origin dropping statement w
      have hnotice := Event.IsNotice.silent h
      show Logged ((Session.dropKnown table origin dropping statement :
        Task d Unit).exec w).journal
      generalize (Session.dropKnown table origin dropping statement : Task d Unit).exec w = outcome
        at hrun ⊢
      cases hrun with
      | unknown | foreign => exact .nil
      | undropped => exact .silent hnotice (logged_executed .nil)
      | dropped => exact .silent hnotice (logged_executed (.silent trivial .nil))
  | insert s => exact logged_reported (.insert s) rfl fun _ => rfl
  | update s => exact absurd h id
  | delete s => exact logged_reported (.delete s) rfl fun _ => rfl
  | fetchRow s slots =>
      exact logged_fetch (Session.scanFirst_lines (fun _ => rfl) fun _ _ => rfl)
  | fetchColumn s zero =>
      exact logged_fetch (Session.scanColumn_lines (fun _ => rfl) fun _ _ => rfl)

/-- An update that succeeds is followed by a look at its count. -/
theorem Piece.counted_exec {table : String} {s : Sql.Statement} {affected : UInt64} {after : σ}
    (h : d.step (.update s) w.driver = (.ok affected, after)) :
    ((Piece.counted table s).task d).exec w = ⟨.ok (), { w with driver := after },
      .event (.statement .update s) :: .call (.update s) (.ok affected) ::
        if affected = 1 then [] else [.event (.unexpectedCount table affected)]⟩ := by
  have hupdate : (Task.update s : Task d UInt64).exec w = _ := Task.exec_reported _ h
  have hlook : Task.exec (d := d)
      (if affected != 1 then Task.report (.unexpectedCount table affected) else pure ())
      { w with driver := after } = ⟨.ok (), { w with driver := after },
        if affected = 1 then [] else [.event (.unexpectedCount table affected)]⟩ := by
    by_cases hcount : affected = 1
    · rw [if_pos hcount, if_neg (by simp [hcount])]
      rfl
    · rw [if_neg hcount, if_pos (by simpa using hcount)]
      rfl
  exact Task.exec_bind_eq hupdate hlook

/-- An update of which the count is looked at is logged before it is run, and followed by a warning
where the count is not one. -/
theorem logged_counted (table : String) (s : Sql.Statement) :
    ((Piece.counted table s).task d).Obeys fun _ _ journal _ => Logged journal := by
  intro w
  rcases hupdate : d.step (.update s) w.driver with ⟨answer, after⟩
  cases answer with
  | error e =>
      have hexec : (Task.update s : Task d UInt64).exec w = _ := Task.exec_reported _ hupdate
      have hrun : ((Piece.counted table s).task d).exec w = _ := Task.exec_bind_error hexec
      rw [hrun]
      exact .run rfl rfl .nil
  | ok affected =>
      rw [Piece.counted_exec hupdate]
      dsimp only
      split
      · rename_i hcount
        exact .run rfl ((Entry.miscount?_update s affected).trans (if_pos hcount)) .nil
      · rename_i hcount
        exact .miscounted hcount .nil

/-- Every piece logs its statements before they are run. -/
theorem Piece.Within.logged {ms : Models n} {root : Fin n} {kind : Job.Kind}
    {E : MapperError → Prop} {piece : Piece} (h : piece.Within ms root kind E) :
    (piece.task d).Obeys fun _ _ journal _ => Logged journal := by
  cases piece with
  | job j => exact h.2.logged
  | counted table s => exact logged_counted table s
  | report e => exact fun w => .silent (Event.IsNotice.silent h) .nil

end Pieces

/-- Every request logs its statements before they are run. -/
theorem Request.logged (q : Request) (w : World σ) : Logged ((q.act d).run w).journal := by
  refine q.law loggedLaw (fun piece hpiece => ?_) w
  obtain ⟨kind, -, hwithin⟩ := hpiece
  exact hwithin.logged

/-- That statements are logged is kept by the lines around the work of a transaction. -/
theorem loggedProgramLaw : ProgramLaw d fun _ journal _ => Logged journal where
  toJournalLaw := loggedLaw
  bracket call hcall w := by
    refine .silent ?_ .nil
    cases call with
    | begin | commit | rollback => exact rfl
    | release | query | next | read | finish | insert | update | delete | execute | tableExists =>
        exact absurd hcall id
  undone e w := .silent trivial .nil

/-- Whatever requests and transactions a session runs, on any records, from any cache and on any
driver, its log tells the truth. The logged texts are those that the driver receives, in order; each
statement is logged right before it is run, the one that fails included; each update that has not
affected one row is followed by a warning with the number of rows, and nothing else is. -/
theorem Program.log_truthful {α : Type} (p : Program α) (w : World σ) :
    LogTruthful ((p.act d).run w).journal := by
  have hrequest : ∀ q : Request, True → ∀ w, Logged ((q.act d).run w).journal :=
    fun q _ w => q.logged w
  exact (Program.law loggedProgramLaw hrequest (p.every_of_forall fun _ => trivial) w).truthful

end EntityMapper
