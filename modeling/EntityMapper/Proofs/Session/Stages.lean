import EntityMapper.Proofs.Session.Requests

/-!
# The stages of an operation

An operation passes through stages, each of which it reports, and what it does in a stage fits that
stage: tables are looked for and created while the schema is ensured, tables are dropped and rows
written while the operation is executed, and rows are selected then and while the record is
hydrated. A `Passage` goes along the stages that an operation has before it; `Request.stageRun`
says that every request makes one, with all of the stages where it succeeds, and reports its end.
-/

namespace EntityMapper

variable {n : Nat} {σ α β γ : Type} {d : Driver σ}

/-! ## What fits a stage -/

/-- Whether an event tells of a change of stage. -/
def Event.IsStage : Event → Prop
  | .began .. | .advanced .. | .failed .. => True
  | _ => False

/-- Whether a call may be made in a stage. -/
def Stage.Allows : Stage → Call → Prop
  | .schemaEnsuring, .tableExists _ => True
  | .schemaEnsuring, .execute s => s.IsCreation
  | .executing, .execute s => ∃ table, s = .dropTable table
  | .executing, .insert s => s.Inserts
  | .executing, .update s => s.Updates
  | .executing, .delete s => s.Deletes
  | .executing, .query s | .hydrating, .query s => s.Selects
  | .executing, .next | .executing, .read _ | .executing, .finish => True
  | .hydrating, .next | .hydrating, .read _ | .hydrating, .finish => True
  | _, _ => False

/-- Whether a line fits a stage: it tells of no other one, and a call is one that the stage
allows. -/
def Entry.Fits (stage : Stage) : Entry → Prop
  | .event e => ¬ e.IsStage
  | .call c _ => stage.Allows c
  | .cached _ => True

/-- A stretch of an operation: where it stands, the stages before it, its lines, and where it stands
and what is before it afterwards. Every stage is entered from the one that was entered last. -/
inductive Passage (operation : Operation) (entity : String) :
    Stage → List Stage → List Entry → Stage → List Stage → Prop
  | stay (stage : Stage) (path : List Stage) : Passage operation entity stage path [] stage path
  | work {stage stage' : Stage} {path path' : List Stage} {entry : Entry} {journal : List Entry}
      (hentry : entry.Fits stage)
      (hrest : Passage operation entity stage path journal stage' path') :
      Passage operation entity stage path (entry :: journal) stage' path'
  | enter {stage stage' target : Stage} {path path' : List Stage} {journal : List Entry}
      (hrest : Passage operation entity target path journal stage' path') :
      Passage operation entity stage (target :: path)
        (.event (.advanced operation entity stage target) :: journal) stage' path'

/-- Work in a stage, and what follows. -/
theorem Passage.works {operation : Operation} {entity : String} {stage stage' : Stage}
    {path path' : List Stage} {journal later : List Entry}
    (h : ∀ entry ∈ journal, entry.Fits stage)
    (hlater : Passage operation entity stage path later stage' path') :
    Passage operation entity stage path (journal ++ later) stage' path' := by
  induction journal with
  | nil => exact hlater
  | cons entry journal ih =>
      exact .work (h entry List.mem_cons_self) (ih fun e he => h e (List.mem_cons_of_mem _ he))

/-- How an operation that ended in a stage reports its end: it is done, or it failed with an error
and is in no other stage any more. -/
def ending (operation : Operation) (entity : String) (stage : Stage) :
    Option MapperError → List Entry
  | none => [.event (.advanced operation entity stage .done)]
  | some e =>
      [.event (.failed operation entity stage e),
        .event (.advanced operation entity stage .failed)]

/-- Whether a journal is that of one operation, which begins at its first stage, passes through
stages of its path, all of them if it does not fail, and reports its end in the stage where it
stands then. -/
def StageRun (operation : Operation) (entity : String) (path : List Stage)
    (failure : Option MapperError) (journal : List Entry) : Prop :=
  ∃ passed stage left,
    journal = .event (.began operation entity) ::
      (passed ++ ending operation entity stage failure) ∧
    Passage operation entity .introspecting path passed stage left ∧
    (failure = none → left = [])

/-! ## What the pieces of an operation fit -/

/-- The stage in which jobs of a kind are done. -/
def Job.Kind.stage : Job.Kind → Stage
  | .ensuring => .schemaEnsuring
  | .dropping | .onRows => .executing

/-- A notice tells of no stage. -/
theorem Event.IsNotice.fits {e : Event} (h : e.IsNotice) (stage : Stage) :
    (Entry.event e).Fits stage := by
  cases e with
  | creatingTable | creatingLinks | droppingTable | droppingLinks | nothingToUpdate => exact id
  | began | advanced | failed | statement | unexpectedCount | rollbackFailed | connecting =>
      exact absurd h id

section Pieces

variable {ms : Models n} {root : Fin n} {kind : Job.Kind} {E : MapperError → Prop} {job : Job}
  {piece : Piece}

/-- A statement is reported before it is run. -/
theorem reported_fits {stage : Stage} {verb : Verb} {s : Sql.Statement} {call : Call}
    (h : stage.Allows call) :
    (do Task.report (.statement verb s); Task.call call : Task d call.Answer).Journals
      (Entry.Fits stage) :=
  .bind (.report id) fun _ => .call fun _ => h

/-- Fetching fits both the stage in which rows are worked on and that in which they are loaded. -/
theorem Job.fetches_fits {stage : Stage} (hstage : stage = .executing ∨ stage = .hydrating)
    {s : Sql.Statement} (hs : s.Selects) :
    (∀ slots, ((Job.fetchRow s slots).task d).Journals (Entry.Fits stage)) ∧
      ∀ zero, ((Job.fetchColumn s zero).task d).Journals (Entry.Fits stage) := by
  have hquery : stage.Allows (.query s) := by
    rcases hstage with rfl | rfl
    exacts [hs, hs]
  have hcursor : stage.Allows .next ∧ (∀ slots, stage.Allows (.read slots)) ∧
      stage.Allows .finish := by
    rcases hstage with rfl | rfl
    exacts [⟨trivial, fun _ => trivial, trivial⟩, ⟨trivial, fun _ => trivial, trivial⟩]
  obtain ⟨hnext, hread, hfinish⟩ := hcursor
  refine ⟨fun slots => ?_, fun zero => ?_⟩
  · exact Session.fetch_lines id (fun _ => hquery)
      (Session.scanFirst_lines (fun _ => hnext) fun slots _ => hread slots) fun _ => hfinish
  · exact Session.fetch_lines id (fun _ => hquery)
      (Session.scanColumn_lines (fun _ => hnext) fun slots _ => hread slots) fun _ => hfinish

/-- A job that is worded as it should be fits the stage of its kind. -/
theorem Job.Within.fits (h : job.Within ms root kind) (hworded : job.Worded E) :
    (job.task d).Journals (Entry.Fits kind.stage) := by
  obtain ⟨rfl, j, -, hserves⟩ := h
  cases job with
  | ensure witness creating definition =>
      intro w
      have hrun := Session.ensure_run (d := d) witness creating definition w
      have hcreation := hserves.2.2
      have hnotice := hworded.1.fits .schemaEnsuring
      show ∀ entry ∈ ((Session.ensure witness creating definition : Task d Unit).exec w).journal, _
      generalize (Session.ensure witness creating definition : Task d Unit).exec w = outcome
        at hrun ⊢
      cases hrun with
      | known | foreign => exact fun entry hentry => absurd hentry List.not_mem_nil
      | unchecked | undefined => simp [Entry.Fits, Stage.Allows, Job.kind, Job.Kind.stage]
      | found => simp [Entry.Fits, Stage.Allows, Job.kind, Job.Kind.stage]
      | uncreated _ _ hs | created _ _ hs =>
          have hs := (hcreation _ hs).1
          simpa [executed, Entry.Fits, Stage.Allows, Job.kind, Job.Kind.stage, Event.IsStage]
            using ⟨hnotice, hs⟩
  | drop table origin dropping statement =>
      intro w
      have hrun := Session.dropKnown_run (d := d) table origin dropping statement w
      have hnotice := Event.IsNotice.fits hworded .executing
      obtain ⟨-, -, rfl⟩ := hserves
      show ∀ entry ∈ ((Session.dropKnown table origin dropping (.dropTable table) :
        Task d Unit).exec w).journal, _
      generalize (Session.dropKnown table origin dropping (.dropTable table) :
        Task d Unit).exec w = outcome at hrun ⊢
      cases hrun with
      | unknown | foreign => exact fun entry hentry => absurd hentry List.not_mem_nil
      | undropped | dropped =>
          simpa [executed, Entry.Fits, Stage.Allows, Job.kind, Job.Kind.stage, Event.IsStage]
            using hnotice
  | insert s | delete s => exact reported_fits hworded
  | update s => exact absurd hworded id
  | fetchRow s slots => exact (Job.fetches_fits (.inl rfl) hworded).1 slots
  | fetchColumn s zero => exact (Job.fetches_fits (.inl rfl) hworded).2 zero

/-- A piece fits the stage of its kind. -/
theorem Piece.Within.fits (h : piece.Within ms root kind E) :
    (piece.task d).Journals (Entry.Fits kind.stage) := by
  cases piece with
  | job j => exact h.1.fits h.2
  | report e => exact .report (h.fits _)
  | counted table s =>
      obtain ⟨⟨rfl, -⟩, hs⟩ := h
      refine .bind (reported_fits hs) fun affected => ?_
      have hcount (affected : UInt64) : Task.Journals (d := d) (Entry.Fits .executing)
          (if affected != 1 then Task.report (.unexpectedCount table affected) else pure ()) := by
        split
        exacts [.report id, .pure ()]
      exact hcount affected

/-- What loads rows fits the stage in which a record is hydrated as well. -/
theorem Piece.Loads.fits (h : piece.Loads ms root E) :
    (piece.task d).Journals (Entry.Fits .hydrating) := by
  obtain ⟨hwithin, hfetches⟩ := h
  cases piece with
  | report | counted => exact absurd hfetches id
  | job j =>
      cases j with
      | ensure | drop | insert | update | delete => exact absurd hfetches id
      | fetchRow s slots => exact (Job.fetches_fits (.inr rfl) hwithin.2).1 slots
      | fetchColumn s zero => exact (Job.fetches_fits (.inr rfl) hwithin.2).2 zero

end Pieces

/-! ## The passage of an operation -/

namespace Staged

/-- Whether a step of an operation that stands in a stage goes along the stages before it, all of
them if it succeeds. -/
def Passes (stage : Stage) (path : List Stage) (x : Staged d β α) : Prop :=
  ∀ (p : Progress β) (w : World σ), p.stage = stage → ∃ left,
    Passage p.operation p.entity stage path (x.exec p w).journal (x.exec p w).value.2.stage left ∧
      ∀ a, (x.exec p w).value.1 = .ok a → left = []

variable {stage : Stage} {path : List Stage} {x : Staged d β α} {f : α → Staged d β γ}

/-- A task whose lines fit the stage. -/
theorem Passes.task {t : Task d α} (ht : t.Journals (Entry.Fits stage)) :
    (Staged.task t : Staged d β α).Passes stage [] := by
  rintro p w rfl
  rw [exec_task]
  refine ⟨[], ?_, fun _ _ => rfl⟩
  simpa using Passage.works (ht w) (.stay _ _)

/-- An attempt whose lines fit the stage. -/
theorem Passes.attempt {g : β → Action d (Attempt β α)}
    (hg : ∀ storage w, ∀ entry ∈ ((g storage).run w).journal, entry.Fits stage) :
    (Staged.attempt g : Staged d β α).Passes stage [] := by
  rintro p w rfl
  rw [exec_attempt]
  refine ⟨[], ?_, fun _ _ => rfl⟩
  simpa using Passage.works (hg p.storage w) (.stay _ _)

/-- A step that is already known, and what follows where it succeeded. -/
theorem Passes.ofExcept_bind {result : Except MapperError α}
    (hf : ∀ a, result = .ok a → (f a).Passes stage path) :
    (Staged.ofExcept result >>= f : Staged d β γ).Passes stage path := by
  rintro p w rfl
  rw [exec_bind, exec_ofExcept]
  cases result with
  | ok a => exact hf a rfl p w rfl
  | error e => exact ⟨path, .stay _ _, fun _ h => nomatch h⟩

/-- Entering the next stage, and what follows. -/
theorem Passes.advance_bind {target : Stage} {f : Unit → Staged d β γ}
    (hf : (f ()).Passes target path) :
    (Staged.advance target >>= f : Staged d β γ).Passes stage (target :: path) := by
  rintro p w rfl
  rw [exec_bind, exec_advance]
  obtain ⟨left, hpassage, hok⟩ := hf { p with stage := target } w rfl
  exact ⟨left, .enter hpassage, hok⟩

/-- A task whose lines fit the stage, and what follows where it succeeded. -/
theorem Passes.task_bind {t : Task d α} (ht : t.Journals (Entry.Fits stage))
    (hf : ∀ a, (f a).Passes stage path) :
    (Staged.task t >>= f : Staged d β γ).Passes stage path := by
  rintro p w rfl
  rw [exec_bind, exec_task]
  cases hvalue : (t.exec w).value with
  | error e =>
      refine ⟨path, ?_, fun _ h => nomatch h⟩
      simpa using Passage.works (ht w) (.stay _ _)
  | ok a =>
      obtain ⟨left, hpassage, hok⟩ := hf a p (t.exec w).world rfl
      exact ⟨left, .works (ht w) hpassage, hok⟩

/-- An operation begins at its first stage, makes its passage, and ends by its reports. -/
theorem Passes.operate {operation : Operation} {entity : String} {storage : β}
    (hx : x.Passes .introspecting path) (w : World σ) :
    StageRun operation entity path
      ((operate operation entity storage x).run w).value.failure?
      ((operate operation entity storage x).run w).journal := by
  rw [run_operate]
  obtain ⟨left, hpassage, hok⟩ := hx ⟨operation, entity, .introspecting, storage⟩ w rfl
  refine ⟨_, _, left, ?_, hpassage, fun hfailure => ?_⟩
  · dsimp only [closing, Attempt.failure?]
    cases (x.exec ⟨operation, entity, .introspecting, storage⟩ w).value.1 with
    | ok a => rfl
    | error e => rfl
  · obtain ⟨a, ha⟩ := eq_ok_of_failure? hfailure
    exact hok a ha

end Staged

namespace Request

/-- The operation that a request asks for. -/
def operation : Request → Operation
  | .create .. => .create
  | .drop .. => .drop
  | .insert _ => .insert
  | .update _ => .update
  | .delete _ => .delete
  | .query _ => .query

/-- The entity that a request is reported for. -/
def entity (q : Request) : String := (q.models.model q.root).name

/-- The stages that a request enters until it is done. -/
def path : Request → List Stage
  | .create .. => [.schemaEnsuring]
  | .drop .. | .delete _ => [.executing]
  | .insert _ | .update _ => [.schemaEnsuring, .executing]
  | .query _ => [.schemaEnsuring, .executing, .hydrating]

end Request

namespace Session

variable {c : Catalog n} {ms : Models n} {k : Fin n}

/-- Creating or dropping, from what it does with the dependencies of the model. -/
theorem onSchema_stageRun {operation : Operation} {stage : Stage}
    {work : List (Fin n) → Task d Unit}
    (hwork : ∀ dependencies, ms.dependencies k = .ok dependencies →
      (work dependencies).Journals (Entry.Fits stage)) (w : World σ) :
    let left := (do
      let left ← Staged.operate operation (ms.model k).name () do
        let dependencies ← Staged.ofExcept (ms.dependencies k)
        Staged.advance stage
        Staged.task (work dependencies)
      return left.result : Action d (Except MapperError Unit)).run w
    StageRun operation (ms.model k).name [stage] (failure? left.value) left.journal := by
  rw [Action.run_bind, Action.run_pure, List.append_nil]
  refine Staged.Passes.operate (.ofExcept_bind fun dependencies h => ?_) w
  exact .advance_bind (.task (hwork dependencies h))

/-- Ensuring the tables of a model and its dependencies fits its stage. -/
theorem ensureSchema_fits {dependencies : List (Fin n)} (h : ms.dependencies k = .ok dependencies) :
    (ensureSchema ms k dependencies : Task d Unit).Journals (Entry.Fits .schemaEnsuring) :=
  (ensureSchema_assembled (E := fun _ => True) (fun _ _ _ _ => trivial)
    (Models.dependencies_mem_closure h) (.inl rfl)).lines fun _ h => h.fits

/-- Dropping the tables of a model and its dependencies fits its stage. -/
theorem dropSchema_fits {dependencies : List (Fin n)} (h : ms.dependencies k = .ok dependencies) :
    (dropSchema ms k dependencies : Task d Unit).Journals (Entry.Fits .executing) :=
  (dropSchema_assembled (E := fun _ => True) (fun _ _ _ _ => trivial)
    (Models.dependencies_mem_closure h) (.inl rfl)).lines fun _ h => h.fits

/-- A prepared operation passes through its first two stages and goes on from there. -/
theorem prepared_passes {r : Record c} {work : Bound c r.model → Staged d (Record c) Unit}
    {path : List Stage} (hwork : ∀ b, (work b).Passes .executing path) :
    Staged.Passes .introspecting (.schemaEnsuring :: .executing :: path) (do
      let (b, dependencies) ← Staged.ofExcept r.introspect
      Staged.advance .schemaEnsuring
      Staged.task (ensureSchema c r.model dependencies)
      Staged.advance .executing
      work b) := by
  refine .ofExcept_bind fun (b, dependencies) h => .advance_bind (.task_bind ?_ fun _ => ?_)
  · exact ensureSchema_fits (Record.introspect_eq_ok_iff.1 h).1
  · exact .advance_bind (hwork b)

/-- What is left of a query once the tables are ensured is executed and then hydrates. -/
theorem load_passes {r : Record c} (b : Bound c r.model) :
    (load r b : Staged d _ _).Passes .executing [.hydrating] := by
  refine .task_bind ((fetchRow_assembled .any (.inl rfl)).lines fun _ h => h.1.fits) fun row => ?_
  refine .advance_bind (.attempt fun _ => ?_)
  exact (Action.Assembled.wrap (loadRecord_assembled .any (.inl rfl) row)).lines fun _ h => h.fits

end Session

/-- Every request makes one run through its stages: it begins at the first one and enters those of
its path one after the other, each from the one before it, and what it does in a stage fits that
stage. It enters all of them and is then reported done if it succeeds. Otherwise its error is
reported with the stage that it stands in, and then that it has failed. -/
theorem Request.stageRun (q : Request) (w : World σ) :
    StageRun q.operation q.entity q.path (q.failure? ((q.act d).run w).value)
      ((q.act d).run w).journal := by
  cases q with
  | create ms k => exact Session.onSchema_stageRun (fun _ h => Session.ensureSchema_fits h) w
  | drop ms k => exact Session.onSchema_stageRun (fun _ h => Session.dropSchema_fits h) w
  | insert r =>
      refine (Session.prepared_passes fun b => .attempt fun r' => ?_).operate w
      exact (Session.insertRecord_assembled .any (.within (E := fun _ => True))).lines
        fun _ h => h.fits
  | @update n c r =>
      refine (Session.prepared_passes fun b => .task ?_).operate w
      have hbase : ∀ j, (ColumnType.entity r.model).base? = some j → j ∈ c.closure r.model :=
        fun j hj => .inl (Option.some.inj hj).symm
      exact (Session.updateHeld_assembled .any (.within (E := fun _ => True)) _ hbase).lines
        fun _ h => h.fits
  | delete r =>
      refine Staged.Passes.operate (.ofExcept_bind fun (b, _) _ => .advance_bind (.task ?_)) w
      exact (Session.deleteRecord_assembled .any (.inl rfl)).lines fun _ h => h.fits
  | query r => exact (Session.prepared_passes fun b => Session.load_passes b).operate w

end EntityMapper
