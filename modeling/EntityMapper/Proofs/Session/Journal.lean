import EntityMapper.Proofs.Session.Jobs

/-!
# What journals recount

A journal recounts a run when every call in it is answered as the driver does in the state that
the calls before it have left, and when the cache changes as the journal notes it
(`Recounts`). So a journal tells which cache is seen at each of its lines (`moments`), and what
every call keeps of the driver, the run keeps.
-/

namespace EntityMapper

variable {σ α β γ : Type} {d : Driver σ}

/-! ## The cache along a journal -/

/-- The cache after a line of a journal. -/
def Entry.after (cache : SchemaCache) : Entry → SchemaCache
  | .cached changed => changed
  | .event _ | .call .. => cache

/-- The cache after a journal. -/
def cacheAfter (cache : SchemaCache) (journal : List Entry) : SchemaCache :=
  journal.foldl Entry.after cache

/-- The lines of a journal, each with the cache at the moment before it. -/
def moments (cache : SchemaCache) : List Entry → List (SchemaCache × Entry)
  | [] => []
  | entry :: journal => (cache, entry) :: moments (entry.after cache) journal

/-- Whether a line changes the cache. -/
def Entry.ChangesCache : Entry → Prop
  | .cached _ => True
  | .event _ | .call .. => False

theorem cacheAfter_append (cache : SchemaCache) (journal later : List Entry) :
    cacheAfter cache (journal ++ later) = cacheAfter (cacheAfter cache journal) later :=
  List.foldl_append

theorem moments_append (cache : SchemaCache) (journal later : List Entry) :
    moments cache (journal ++ later) =
      moments cache journal ++ moments (cacheAfter cache journal) later := by
  induction journal generalizing cache with
  | nil => rfl
  | cons entry journal ih => exact congrArg _ (ih (entry.after cache))

/-- The line of a moment stands in the journal. -/
theorem mem_of_mem_moments {cache seen : SchemaCache} {journal : List Entry} {entry : Entry}
    (h : (seen, entry) ∈ moments cache journal) : entry ∈ journal := by
  induction journal generalizing cache with
  | nil => cases h
  | cons first journal ih =>
      rcases List.mem_cons.1 h with h | h
      · exact List.mem_cons.2 (.inl (congrArg Prod.snd h))
      · exact List.mem_cons_of_mem _ (ih h)

/-- Every line of a journal has its moment. -/
theorem exists_mem_moments (cache : SchemaCache) {journal : List Entry} {entry : Entry}
    (h : entry ∈ journal) : ∃ seen, (seen, entry) ∈ moments cache journal := by
  induction journal generalizing cache with
  | nil => cases h
  | cons first journal ih =>
      rcases List.mem_cons.1 h with rfl | h
      · exact ⟨cache, List.mem_cons_self⟩
      · obtain ⟨seen, hseen⟩ := ih (first.after cache) h
        exact ⟨seen, List.mem_cons_of_mem _ hseen⟩

/-- The cache stays as it is along lines that do not change it. -/
theorem cacheAfter_idle {cache : SchemaCache} {journal : List Entry}
    (h : ∀ entry ∈ journal, ¬ entry.ChangesCache) : cacheAfter cache journal = cache := by
  induction journal with
  | nil => rfl
  | cons entry journal ih =>
      have hentry : entry.after cache = cache := by
        cases entry with
        | cached changed => exact absurd trivial (h _ List.mem_cons_self)
        | event e => rfl
        | call c answer => rfl
      show cacheAfter (entry.after cache) journal = cache
      rw [hentry, ih fun other hother => h other (List.mem_cons_of_mem _ hother)]

/-- At every moment of a journal that does not change the cache, it is what it was at first. -/
theorem moments_idle {cache seen : SchemaCache} {journal : List Entry} {entry : Entry}
    (hidle : ∀ entry ∈ journal, ¬ entry.ChangesCache)
    (h : (seen, entry) ∈ moments cache journal) : seen = cache := by
  induction journal generalizing cache with
  | nil => cases h
  | cons first journal ih =>
      rcases List.mem_cons.1 h with h | h
      · exact congrArg Prod.fst h
      · have hfirst : cacheAfter cache [first] = cache :=
          cacheAfter_idle fun other hother =>
            hidle other (List.mem_cons.2 (.inl (List.mem_singleton.1 hother)))
        exact (ih (fun other hother => hidle other (List.mem_cons_of_mem _ hother)) h).trans hfirst

/-! ## Journals and runs -/

/-- Whether a journal recounts how a world became another one. -/
inductive Recounts (d : Driver σ) : World σ → List Entry → World σ → Prop
  | done (w : World σ) : Recounts d w [] w
  | event {w w' : World σ} {journal : List Entry} (e : Event) (hrest : Recounts d w journal w') :
      Recounts d w (.event e :: journal) w'
  | call {w w' : World σ} {journal : List Entry} {s : σ} {call : Call}
      {answer : Except DriverError call.Answer} (hstep : d.step call w.driver = (answer, s))
      (hrest : Recounts d { w with driver := s } journal w') :
      Recounts d w (.call call answer :: journal) w'
  | cached {w w' : World σ} {journal : List Entry} (cache : SchemaCache)
      (hrest : Recounts d { w with cache := cache } journal w') :
      Recounts d w (.cached cache :: journal) w'

namespace Recounts

variable {w w' w'' : World σ} {journal later : List Entry}

theorem append (h : Recounts d w journal w') (hlater : Recounts d w' later w'') :
    Recounts d w (journal ++ later) w'' := by
  induction h with
  | done w => exact hlater
  | event e _ ih => exact .event e (ih hlater)
  | call hstep _ ih => exact .call hstep (ih hlater)
  | cached cache _ ih => exact .cached cache (ih hlater)

/-- Reports change nothing. -/
theorem quiet (w : World σ) (events : List Event) : Recounts d w (reports events) w := by
  induction events with
  | nil => exact .done w
  | cons e events ih => exact .event e ih

/-- A run leaves the cache that its journal tells. -/
theorem cache_eq (h : Recounts d w journal w') : w'.cache = cacheAfter w.cache journal := by
  induction h with
  | done w => rfl
  | event e _ ih => exact ih
  | call hstep _ ih => exact ih
  | cached cache _ ih => exact ih

/-- What every call of a journal keeps of the driver, the run keeps. -/
theorem keeps {I : σ → Prop} (h : Recounts d w journal w')
    (hkeeps : ∀ call answer, Entry.call call answer ∈ journal → ∀ s, I s → I (d.step call s).2)
    (hw : I w.driver) : I w'.driver := by
  induction h with
  | done w => exact hw
  | event e _ ih => exact ih (fun call answer hcall => hkeeps call answer (.tail _ hcall)) hw
  | cached cache _ ih => exact ih (fun call answer hcall => hkeeps call answer (.tail _ hcall)) hw
  | @call w w' journal s call answer hstep _ ih =>
      refine ih (fun call answer hcall => hkeeps call answer (.tail _ hcall)) ?_
      have hs := hkeeps call answer List.mem_cons_self w.driver hw
      rwa [hstep] at hs

/-- Recounting is a law of runs. -/
theorem runLaw : RunLaw fun _ w journal w' => Recounts d w journal w' := .blind quiet append

end Recounts

/-- Whether every call of a journal has a property. -/
def Calls (Q : Call → Prop) (journal : List Entry) : Prop :=
  ∀ call answer, Entry.call call answer ∈ journal → Q call

theorem Calls.append {Q : Call → Prop} {journal later : List Entry} (h : Calls Q journal)
    (hlater : Calls Q later) : Calls Q (journal ++ later) := by
  intro call answer hcall
  rcases List.mem_append.1 hcall with hcall | hcall
  exacts [h call answer hcall, hlater call answer hcall]

theorem Calls.nil {Q : Call → Prop} : Calls Q [] := fun _ _ hcall => absurd hcall List.not_mem_nil

theorem Calls.single {Q : Call → Prop} {call : Call} {answer : Except DriverError call.Answer}
    (h : Q call) : Calls Q [.call call answer] := by
  intro call' answer' hcall
  cases List.mem_singleton.1 hcall
  exact h

theorem Calls.quiet {Q : Call → Prop} (events : List Event) : Calls Q (reports events) := by
  intro call answer hcall
  obtain ⟨e, -, heq⟩ := List.mem_map.1 hcall
  cases heq

/-- What all calls of all jobs have is a law of runs. -/
theorem Calls.runLaw (Q : Call → Prop) :
    RunLaw fun _ (_ : World σ) journal _ => Calls Q journal :=
  .blind (fun _ events => .quiet events) .append

/-- That no line changes the cache is a law of runs. -/
theorem idle_runLaw :
    RunLaw fun _ (_ : World σ) journal _ => ∀ entry ∈ journal, ¬ entry.ChangesCache := by
  refine .blind (fun _ events entry hentry => ?_) fun h hlater entry hentry => ?_
  · obtain ⟨e, -, rfl⟩ := List.mem_map.1 hentry
    exact id
  · exact (List.mem_append.1 hentry).elim (h entry) (hlater entry)

/-- Whether every call of a journal has a property, in view of the cache at the moment of the
call. -/
def CallsAt (Q : SchemaCache → Call → Prop) (cache : SchemaCache) (journal : List Entry) : Prop :=
  ∀ seen call answer, (seen, Entry.call call answer) ∈ moments cache journal → Q seen call

theorem CallsAt.append {Q : SchemaCache → Call → Prop} {cache : SchemaCache}
    {journal later : List Entry} (h : CallsAt Q cache journal)
    (hlater : CallsAt Q (cacheAfter cache journal) later) : CallsAt Q cache (journal ++ later) := by
  intro seen call answer hcall
  rw [moments_append] at hcall
  rcases List.mem_append.1 hcall with hcall | hcall
  exacts [h seen call answer hcall, hlater seen call answer hcall]

/-- What all calls of a journal have, they have at their moments. -/
theorem Calls.at {Q : Call → Prop} {journal : List Entry} (h : Calls Q journal)
    (cache : SchemaCache) : CallsAt (fun _ => Q) cache journal :=
  fun _ call answer hcall => h call answer (mem_of_mem_moments hcall)

theorem CallsAt.mono {Q R : SchemaCache → Call → Prop} {cache : SchemaCache} {journal : List Entry}
    (h : CallsAt Q cache journal) (hQR : ∀ seen call, Q seen call → R seen call) :
    CallsAt R cache journal :=
  fun seen call answer hcall => hQR seen call (h seen call answer hcall)

/-- Along a run whose journal tells the cache, what all calls have at their moments is a law. -/
theorem CallsAt.runLaw (Q : SchemaCache → Call → Prop) : RunLaw fun _ (w : World σ) journal w' =>
    w'.cache = cacheAfter w.cache journal ∧ CallsAt Q w.cache journal := by
  refine .blind (fun w events => ⟨?_, ?_⟩) ?_
  · exact (cacheAfter_idle (idle_runLaw.quiet none w events)).symm
  · exact ((Calls.quiet events).at w.cache).mono fun _ _ => False.elim
  · intro w w' w'' journal later ⟨hcache, hcalls⟩ ⟨hlater, hcallsLater⟩
    rw [hcache] at hlater hcallsLater
    exact ⟨hlater.trans (cacheAfter_append _ _ _).symm, hcalls.append hcallsLater⟩

/-- Whether the journals of an action recount its runs. -/
def Action.Faithful (action : Action d α) : Prop :=
  ∀ w, Recounts d w (action.run w).journal (action.run w).world

namespace Action.Faithful

variable {action : Action d α}

theorem pure (a : α) : (pure a : Action d α).Faithful := .done

theorem call (c : Call) : (Action.call c : Action d _).Faithful := fun _ => .call rfl (.done _)

theorem bind {next : α → Action d β} (h : action.Faithful) (hnext : ∀ a, (next a).Faithful) :
    (action >>= next).Faithful :=
  fun w => (h w).append (hnext _ _)

/-- Two tasks in a row, whether the first one fails or not. -/
theorem task_bind {t : Task d α} {f : α → Task d γ} (ht : t.run.Faithful)
    (hf : ∀ a, (f a).run.Faithful) : (t >>= f).run.Faithful := by
  refine bind ht fun result => ?_
  cases result with
  | ok a => exact hf a
  | error e => exact pure (Except.error e)

theorem task_lift (h : action.Faithful) : (ExceptT.lift action : Task d α).run.Faithful :=
  bind h fun _ => pure _

theorem task_call (c : Call) : (Task.call c : Task d c.Answer).run.Faithful :=
  bind (call c) fun _ => pure _

/-- A statement is reported before it is handed to the driver. -/
theorem reported (e : Event) (c : Call) :
    (do Task.report e; Task.call c : Task d c.Answer).run.Faithful :=
  task_bind (fun w => .event e (.done w)) fun _ => task_call c

theorem modifyCache (f : SchemaCache → SchemaCache) :
    (ExceptT.lift (Action.modifyCache f) : Task d Unit).run.Faithful :=
  task_lift fun _ => .cached _ (.done _)

end Action.Faithful

namespace Session

open Action.Faithful

variable {witness : Witness} {creating dropping : Event} {statement : Sql.Statement}
  {definition : Except MapperError Sql.Statement} {table origin : String} {slots : List Value}
  {zero : Value}

theorem ensure_faithful : (ensure witness creating definition : Task d Unit).run.Faithful := by
  refine task_bind .done fun known => ?_
  split
  · exact pure _
  · refine task_bind (task_call _) fun found => ?_
    split
    · refine task_bind .done fun statement => ?_
      exact task_bind (fun w => .event _ (.done w)) fun _ =>
        task_bind (reported _ _) fun _ => modifyCache _
    · exact modifyCache _

theorem dropKnown_faithful :
    (dropKnown table origin dropping statement : Task d Unit).run.Faithful := by
  refine task_bind .done fun known => ?_
  split
  · exact task_bind (fun w => .event _ (.done w)) fun _ =>
      task_bind (reported _ _) fun _ => modifyCache _
  · exact pure _

theorem scanFirst_faithful : (scanFirst slots : Action d _).Faithful := by
  refine bind (call _) fun advanced => ?_
  split
  · exact pure _
  · exact pure _
  · exact bind (call _) fun _ => pure _

theorem scanColumn_faithful : Action.Faithful (d := d) (scanColumn d zero) := by
  intro w
  show Recounts d w (scanColumn d zero w).journal (scanColumn d zero w).world
  fun_induction scanColumn d zero w with
  | case1 w e atEnd hstep => exact .call hstep (.done _)
  | case2 w atEnd hstep => exact .call hstep (.done _)
  | case3 w atRow hstep entry e after hread => exact .call hstep (.call hread (.done _))
  | case4 w atRow hstep entry values after hread _ rest ih =>
      exact .call hstep (.call hread ih)

theorem fetch_faithful {scan : Action d (Except DriverError α)} (h : scan.Faithful) :
    (fetch statement scan : Task d α).run.Faithful := by
  refine task_bind (fun w => .event _ (.done w)) fun _ => ?_
  refine task_bind (task_call _) fun _ => ?_
  refine task_bind (task_lift h) fun scanned => ?_
  refine task_bind (task_lift (call _)) fun finished => ?_
  exact task_bind .done fun _ => task_bind .done fun _ => pure _

end Session

/-- Every job recounts what it does. -/
theorem Job.recounts (job : Job) (w : World σ) :
    Recounts d w ((job.task d).exec w).journal ((job.task d).exec w).world := by
  cases job with
  | ensure witness creating definition => exact Session.ensure_faithful w
  | drop table origin dropping statement => exact Session.dropKnown_faithful w
  | insert s => exact Action.Faithful.reported _ _ w
  | update s => exact Action.Faithful.reported _ _ w
  | delete s => exact Action.Faithful.reported _ _ w
  | fetchRow s slots => exact Session.fetch_faithful Session.scanFirst_faithful w
  | fetchColumn s zero => exact Session.fetch_faithful Session.scanColumn_faithful w

/-- What is made of jobs recounts what it does. -/
theorem Action.Composed.recounts {P : Job → Prop} {failure : α → Option MapperError}
    {action : Action d α} (h : action.Composed P failure) (w : World σ) :
    Recounts d w (action.run w).journal (action.run w).world :=
  h.law Recounts.runLaw (fun job _ w => job.recounts w) w

end EntityMapper
