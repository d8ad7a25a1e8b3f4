import EntityMapper.Proofs.Session.Steps
import EntityMapper.Session.Transaction

/-!
# The jobs of operations

Operations call the driver in jobs: a table is ensured or dropped, a row or a link is written, a
query is run and scanned. `Action.Composed` says that an action is made of certain jobs, one after
the other, and that after the first one that fails there is nothing left but reports. What every
such job obeys and runs in a row keep, the whole action obeys (`Action.Composed.law`).
-/

namespace EntityMapper

variable {σ α β γ : Type} {d : Driver σ}

/-- What operations do with the driver in one go. -/
inductive Job
  | ensure (witness : Witness) (creating : Event) (definition : Except MapperError Sql.Statement)
  | drop (table origin : String) (dropping : Event) (statement : Sql.Statement)
  | insert (s : Sql.Statement)
  | update (s : Sql.Statement)
  | delete (s : Sql.Statement)
  | fetchRow (s : Sql.Statement) (slots : List Value)
  | fetchColumn (s : Sql.Statement) (zero : Value)

namespace Job

/-- What a job answers. -/
def Answer : Job → Type
  | .ensure .. | .drop .. => Unit
  | .insert _ | .update _ | .delete _ => UInt64
  | .fetchRow .. => Option (List Value)
  | .fetchColumn .. => List Value

/-- The task that a job is. -/
def task (d : Driver σ) : (job : Job) → Task d job.Answer
  | .ensure witness creating definition => Session.ensure witness creating definition
  | .drop table origin dropping statement => Session.dropKnown table origin dropping statement
  | .insert s => Task.insert s
  | .update s => Task.update s
  | .delete s => Task.delete s
  | .fetchRow s slots => Session.fetch s (Session.scanFirst slots)
  | .fetchColumn s zero => Session.fetch s (Session.scanColumn d zero)

end Job

/-- The error of a result. -/
def failure? : Except MapperError α → Option MapperError
  | .ok _ => none
  | .error e => some e

theorem eq_error_of_failure? {result : Except MapperError α} {e : MapperError}
    (h : failure? result = some e) : result = .error e := by
  cases result with
  | ok a => cases h
  | error e' => exact congrArg _ (Option.some.inj h)

theorem eq_ok_of_failure? {result : Except MapperError α} (h : failure? result = none) :
    ∃ a, result = .ok a := by
  cases result with
  | ok a => exact ⟨a, rfl⟩
  | error e => cases h

/-- The lines of reports. -/
abbrev reports (events : List Event) : List Entry := events.map .event

/-- Reports make no call. -/
theorem made_reports (events : List Event) : (reports events).filterMap Entry.made? = [] := by
  refine List.filterMap_eq_nil_iff.2 fun entry hentry => ?_
  obtain ⟨event, -, rfl⟩ := List.mem_map.1 hentry
  rfl

/-- An operation ends with reports. -/
theorem Staged.closing_reports (operation : Operation) (entity : String)
    (left : Except MapperError α × Progress β) :
    ∃ events, closing operation entity left = reports events := by
  rw [closing]
  split
  exacts [⟨[_], rfl⟩, ⟨[_, _], rfl⟩]

/-- A law of runs, which relates how a run fails, the world it starts from, its journal and the
world it leaves: reports obey it, it is kept when a run goes on after a success, and when a failed
run ends with reports. -/
structure RunLaw (L : Option MapperError → World σ → List Entry → World σ → Prop) : Prop where
  quiet : ∀ failure w events, L failure w (reports events) w
  append : ∀ {failure w w' w'' journal later},
    L none w journal w' → L failure w' later w'' → L failure w (journal ++ later) w''
  trail : ∀ {e w w' journal} events,
    L (some e) w journal w' → L (some e) w (journal ++ reports events) w'

/-- Whether every run of a task obeys a law. -/
def Task.Obeys (L : Option MapperError → World σ → List Entry → World σ → Prop) (t : Task d α) :
    Prop :=
  ∀ w, L (failure? (t.exec w).value) w (t.exec w).journal (t.exec w).world

namespace RunLaw

variable {L M : Option MapperError → World σ → List Entry → World σ → Prop}
  {failure : Option MapperError} {w w' : World σ} {journal : List Entry}

/-- A run after reports. -/
theorem lead (hL : RunLaw L) (events : List Event) (h : L failure w journal w') :
    L failure w (reports events ++ journal) w' := hL.append (hL.quiet none w events) h

/-- A run before reports. -/
theorem close (hL : RunLaw L) (h : L failure w journal w') (events : List Event) :
    L failure w (journal ++ reports events) w' := by
  cases failure with
  | none => exact hL.append h (hL.quiet none w' events)
  | some e => exact hL.trail events h

/-- A law that does not look at how a run fails. -/
theorem blind {L : World σ → List Entry → World σ → Prop}
    (hquiet : ∀ w events, L w (reports events) w)
    (happend : ∀ {w w' w'' journal later},
      L w journal w' → L w' later w'' → L w (journal ++ later) w'') :
    RunLaw fun _ => L where
  quiet _ := hquiet
  append := happend
  trail events h := happend h (hquiet _ events)

/-- Two laws that a run obeys at once. -/
theorem and (hL : RunLaw L) (hM : RunLaw M) :
    RunLaw fun failure w journal w' => L failure w journal w' ∧ M failure w journal w' where
  quiet failure w events := ⟨hL.quiet failure w events, hM.quiet failure w events⟩
  append h hlater := ⟨hL.append h.1 hlater.1, hM.append h.2 hlater.2⟩
  trail events h := ⟨hL.trail events h.1, hM.trail events h.2⟩

end RunLaw

namespace Action

/-- Whether an action is made of certain jobs, where its answer tells how it fails. -/
inductive Composed (P : Job → Prop) : {α : Type} → (α → Option MapperError) → Action d α → Prop
  | done {α : Type} (failure : α → Option MapperError) (a : α) : Composed P failure (pure a)
  | report (e : Event) : Composed P (fun _ => none) (Action.report e)
  | job (job : Job) (h : P job) : Composed P failure? (job.task d).run
  | bind {α β : Type} {failure : α → Option MapperError} {failure' : β → Option MapperError}
      {action : Action d α} {next : α → Action d β} (hfirst : Composed P failure action)
      (hnext : ∀ w, failure (action.run w).value = none →
        Composed P failure' (next (action.run w).value))
      (hfailed : ∀ a e, failure a = some e → ∃ b events, failure' b = some e ∧
        ∀ w, (next a).run w = ⟨b, w, reports events⟩) :
      Composed P failure' (action >>= next)

variable {P Q : Job → Prop} {failure : α → Option MapperError} {action : Action d α}

/-- A law that the jobs obey is obeyed by whatever is made of them. -/
theorem Composed.law {L : Option MapperError → World σ → List Entry → World σ → Prop}
    (hL : RunLaw L) (hjob : ∀ job, P job → (job.task d).Obeys L) (h : action.Composed P failure)
    (w : World σ) :
    L (failure (action.run w).value) w (action.run w).journal (action.run w).world := by
  induction h generalizing w with
  | done failure a => exact hL.quiet _ w []
  | report e => exact hL.quiet _ w [e]
  | job job h => exact hjob job h w
  | @bind α β failure failure' action next hfirst hnext hfailed ihfirst ihnext =>
      have hbefore := ihfirst w
      cases hvalue : failure (action.run w).value with
      | none =>
          rw [hvalue] at hbefore
          rw [run_bind]
          exact hL.append hbefore (ihnext w hvalue (action.run w).world)
      | some e =>
          -- Nothing is left but reports, so the law of what has failed is the law of the whole.
          obtain ⟨b, events, hb, hrun⟩ := hfailed _ e hvalue
          rw [hvalue] at hbefore
          rw [run_bind, hrun, hb]
          exact hL.trail events hbefore

/-- An action made of certain jobs is made of jobs that are more than these. -/
theorem Composed.mono (h : action.Composed P failure) (hPQ : ∀ job, P job → Q job) :
    action.Composed Q failure := by
  induction h with
  | done failure a => exact .done failure a
  | report e => exact .report e
  | job job h => exact .job job (hPQ job h)
  | bind hfirst hnext hfailed ihfirst ihnext => exact .bind ihfirst ihnext hfailed

/-- Work after an action that cannot fail. -/
theorem Composed.then {next : α → Action d β} {failure' : β → Option MapperError}
    (h : action.Composed P fun _ => none)
    (hnext : ∀ w, (next (action.run w).value).Composed P failure') :
    (action >>= next).Composed P failure' :=
  .bind h (fun w _ => hnext w) fun _ _ h => nomatch h

end Action

/-! ## Tasks -/

namespace Task

/-- Whether a task is made of certain jobs. -/
def Composed (P : Job → Prop) (t : Task d α) : Prop := Action.Composed P failure? t.run

variable {P : Job → Prop} {t : Task d α} {f : α → Task d γ}

theorem Composed.pure (a : α) : (pure a : Task d α).Composed P :=
  Action.Composed.done failure? (.ok a)

theorem Composed.ofExcept (result : Except MapperError α) :
    (ofExcept result : Task d α).Composed P :=
  Action.Composed.done failure? result

theorem Composed.job (job : Job) (h : P job) : (job.task d).Composed P := Action.Composed.job job h

theorem Composed.report (e : Event) : (report e : Task d Unit).Composed P :=
  Action.Composed.then (.report e) fun _ => .done failure? (.ok ())

/-- Two tasks in a row are made of the jobs of the first one and of those of the second one after
it. -/
theorem Composed.bind (ht : t.Composed P)
    (hf : ∀ w a, (t.exec w).value = .ok a → (f a).Composed P) : (t >>= f).Composed P := by
  refine Action.Composed.bind ht (fun w hvalue => ?_) fun result e hfailed => ?_
  · obtain ⟨a, ha⟩ := eq_ok_of_failure? hvalue
    rw [ha]
    exact hf w a ha
  · rw [eq_error_of_failure? hfailed]
    exact ⟨.error e, [], rfl, fun w => rfl⟩

/-- A step that is already known, and what follows where it succeeded. -/
theorem Composed.ofExcept_bind {result : Except MapperError α}
    (hf : ∀ a, result = .ok a → (f a).Composed P) :
    (Task.ofExcept result >>= f : Task d γ).Composed P :=
  .bind (.ofExcept result) fun _ => hf

/-- A task for every item of a list. -/
theorem Composed.forM {g : γ → Task d Unit} : (xs : List γ) → (∀ x ∈ xs, (g x).Composed P) →
    (xs.forM g).Composed P
  | [], _ => .pure ()
  | x :: xs, h => by
      show (g x >>= fun _ => xs.forM g).Composed P
      exact .bind (h x List.mem_cons_self) fun _ _ _ =>
        Composed.forM xs fun y hy => h y (List.mem_cons_of_mem _ hy)

/-- A law that the jobs of a task obey is obeyed by the task. -/
theorem Composed.law {L : Option MapperError → World σ → List Entry → World σ → Prop}
    (hL : RunLaw L) (hjob : ∀ job, P job → (job.task d).Obeys L) (h : t.Composed P) : t.Obeys L :=
  Action.Composed.law hL hjob h

end Task

/-! ## Attempts -/

/-- The error of an attempt. -/
def Attempt.failure? (left : Attempt β α) : Option MapperError := EntityMapper.failure? left.result

namespace Action

variable {P : Job → Prop} {δ : Type} {action : Action d (Attempt β α)}

/-- An attempt on a part of some storage. -/
theorem Composed.wrap {wrap : β → δ} (h : action.Composed P Attempt.failure?) :
    Composed (d := d) P Attempt.failure? (do
      let left ← action
      return ⟨wrap left.storage, left.result⟩) :=
  .bind h (fun _ _ => .done _ _) fun _ _ hfailed => ⟨_, [], hfailed, fun _ => rfl⟩

end Action

/-! ## Operations -/

namespace Staged

/-- Whether a step of an operation that finds the given storage is made of certain jobs. -/
def Composed (P : Job → Prop) (storage : β) (x : Staged d β α) : Prop :=
  ∀ p, p.storage = storage → Action.Composed P (fun left => failure? left.1) (x.run.run p)

variable {P : Job → Prop} {storage : β} {x : Staged d β α} {f : α → Staged d β γ}

theorem Composed.advance (target : Stage) :
    (advance target : Staged d β Unit).Composed P storage :=
  fun _ _ => Action.Composed.then (.report _) fun _ => .done _ _

theorem Composed.task {t : Task d α} (ht : t.Composed P) :
    (task t : Staged d β α).Composed P storage :=
  fun p _ => .bind ht (fun _ _ => .done _ _) fun result _ hfailed =>
    ⟨(result, p), [], hfailed, fun _ => rfl⟩

theorem Composed.attempt {g : β → Action d (Attempt β α)}
    (hg : (g storage).Composed P Attempt.failure?) :
    (attempt g : Staged d β α).Composed P storage := by
  rintro p rfl
  exact .bind hg (fun _ _ => .done _ _) fun left _ hfailed =>
    ⟨(left.result, { p with storage := left.storage }), [], hfailed, fun _ => rfl⟩

/-- Two steps in a row, the first of which leaves the storage alone, are made of the jobs of
both. -/
theorem Composed.bind (hx : x.Composed P storage)
    (hkeeps : ∀ p w, (x.exec p w).value.2.storage = p.storage)
    (hf : ∀ a, (f a).Composed P storage) : (x >>= f).Composed P storage := by
  intro p hp
  -- Two steps are two actions in a row, the second of which also meets the failure of the first.
  show Action.Composed P _ (x.run.run p >>= fun left => (ExceptT.bindCont f left.1).run left.2)
  refine .bind (hx p hp) (fun w hvalue => ?_) fun left e hvalue => ?_
  · have hkept : ((x.run.run p).run w).value.2.storage = storage := (hkeeps p w).trans hp
    generalize ((x.run.run p).run w).value = left at hvalue hkept ⊢
    obtain ⟨result, p'⟩ := left
    obtain ⟨a, rfl⟩ := eq_ok_of_failure? hvalue
    exact hf a p' hkept
  · obtain ⟨result, p'⟩ := left
    obtain rfl := eq_error_of_failure? hvalue
    exact ⟨(.error e, p'), [], rfl, fun w => rfl⟩

/-- Entering a stage, and what follows. -/
theorem Composed.advance_bind {target : Stage} {f : Unit → Staged d β γ}
    (hf : (f ()).Composed P storage) : (Staged.advance target >>= f).Composed P storage :=
  .bind (.advance target) (fun _ _ => rfl) fun _ => hf

/-- A task, and what follows where it succeeded. -/
theorem Composed.task_bind {t : Task d α} (ht : t.Composed P) (hf : ∀ a, (f a).Composed P storage) :
    (Staged.task t >>= f).Composed P storage :=
  .bind (.task ht) (fun _ _ => rfl) hf

/-- A step that is already known, and what follows where it succeeded. -/
theorem Composed.ofExcept_bind {result : Except MapperError α}
    (hf : ∀ a, result = .ok a → (f a).Composed P storage) :
    (Staged.ofExcept result >>= f : Staged d β γ).Composed P storage := by
  cases result with
  | ok a => exact fun p hp => Action.Composed.then (.done _ _) fun w => hf a rfl p hp
  | error e => exact fun p _ => Action.Composed.then (.done _ _) fun w => .done _ _

/-- A step that is made of certain jobs is made of jobs that are more than these. -/
theorem Composed.mono {Q : Job → Prop} (h : x.Composed P storage) (hPQ : ∀ job, P job → Q job) :
    x.Composed Q storage :=
  fun p hp => (h p hp).mono hPQ

/-- An operation adds nothing but reports to its steps. -/
theorem Composed.operate (operation : Operation) (entity : String) (hx : x.Composed P storage) :
    (operate operation entity storage x).Composed P Attempt.failure? := by
  refine Action.Composed.then (.report _) fun w => .bind (hx _ rfl) (fun w hvalue => ?_) ?_
  · generalize ((x.run.run _).run w).value = left at hvalue ⊢
    obtain ⟨result, p⟩ := left
    obtain ⟨a, rfl⟩ := eq_ok_of_failure? hvalue
    exact Action.Composed.then (.report _) fun _ => .done _ _
  · rintro ⟨result, p⟩ e hvalue
    obtain rfl := eq_error_of_failure? hvalue
    exact ⟨⟨p.storage, .error e⟩, [.failed operation entity p.stage e,
      .advanced operation entity p.stage .failed], rfl, fun w => rfl⟩

end Staged

end EntityMapper
