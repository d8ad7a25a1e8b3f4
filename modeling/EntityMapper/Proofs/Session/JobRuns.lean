import EntityMapper.Proofs.Session.Journal
import EntityMapper.Proofs.Session.Schema

/-!
# The runs of jobs

All that ensuring a table can come to (`EnsureRun`), all that dropping one can come to
(`DropRun`), all that fetching from a cursor can come to (`FetchRun`), and the calls that a job on
rows makes, which leaves the cache alone.
-/

namespace EntityMapper

variable {σ α : Type} {d : Driver σ}

/-- What is left of running a schema statement: a report, and the call with its answer. -/
def executed (s : Sql.Statement) (answer : Except DriverError Unit) : List Entry :=
  [.event (.statement .execute s), .call (.execute s) answer]

/-- What ensuring a table leads to. The cache decides whether the driver is asked at all; a table
that is neither known nor there is created. Only a table that is there is put into the cache. -/
inductive EnsureRun (d : Driver σ) (witness : Witness) (creating : Event)
    (definition : Except MapperError Sql.Statement) (w : World σ) :
    Outcome σ (Except MapperError Unit) → Prop
  | known {held : Witness} (hheld : w.cache.fetch witness.table = some held)
      (horigin : held.origin = witness.origin) :
      EnsureRun d witness creating definition w ⟨.ok (), w, []⟩
  | foreign {held : Witness} (hheld : w.cache.fetch witness.table = some held)
      (horigin : ¬ held.origin = witness.origin) :
      EnsureRun d witness creating definition w
        ⟨.error (.foreignTable witness.table held.origin witness.origin), w, []⟩
  | unchecked {e : DriverError} {s : σ} (hfree : w.cache.fetch witness.table = none)
      (hlook : d.step (.tableExists witness.table) w.driver = (.error e, s)) :
      EnsureRun d witness creating definition w
        ⟨.error (.driver e), { w with driver := s },
          [.call (.tableExists witness.table) (.error e)]⟩
  | found {s : σ} (hfree : w.cache.fetch witness.table = none)
      (hlook : d.step (.tableExists witness.table) w.driver = (.ok true, s)) :
      EnsureRun d witness creating definition w
        ⟨.ok (), ⟨s, w.cache.put witness⟩,
          [.call (.tableExists witness.table) (.ok true), .cached (w.cache.put witness)]⟩
  | undefined {e : MapperError} {s : σ} (hfree : w.cache.fetch witness.table = none)
      (hlook : d.step (.tableExists witness.table) w.driver = (.ok false, s))
      (hdefinition : definition = .error e) :
      EnsureRun d witness creating definition w
        ⟨.error e, { w with driver := s }, [.call (.tableExists witness.table) (.ok false)]⟩
  | uncreated {e : DriverError} {s s' : σ} {statement : Sql.Statement}
      (hfree : w.cache.fetch witness.table = none)
      (hlook : d.step (.tableExists witness.table) w.driver = (.ok false, s))
      (hdefinition : definition = .ok statement)
      (hcreate : d.step (.execute statement) s = (.error e, s')) :
      EnsureRun d witness creating definition w
        ⟨.error (.driver e), { w with driver := s' },
          .call (.tableExists witness.table) (.ok false) :: .event creating ::
            executed statement (.error e)⟩
  | created {s s' : σ} {statement : Sql.Statement}
      (hfree : w.cache.fetch witness.table = none)
      (hlook : d.step (.tableExists witness.table) w.driver = (.ok false, s))
      (hdefinition : definition = .ok statement)
      (hcreate : d.step (.execute statement) s = (.ok (), s')) :
      EnsureRun d witness creating definition w
        ⟨.ok (), ⟨s', w.cache.put witness⟩,
          .call (.tableExists witness.table) (.ok false) :: .event creating ::
            (executed statement (.ok ()) ++ [.cached (w.cache.put witness)])⟩

/-- What dropping a table leads to. Only a table that the cache knows is dropped, and forgotten
once it is gone. -/
inductive DropRun (d : Driver σ) (table origin : String) (dropping : Event)
    (statement : Sql.Statement) (w : World σ) : Outcome σ (Except MapperError Unit) → Prop
  | unknown (hfree : w.cache.fetch table = none) :
      DropRun d table origin dropping statement w ⟨.ok (), w, []⟩
  | foreign {held : Witness} (hheld : w.cache.fetch table = some held)
      (horigin : ¬ held.origin = origin) :
      DropRun d table origin dropping statement w
        ⟨.error (.foreignTable table held.origin origin), w, []⟩
  | undropped {held : Witness} {e : DriverError} {s : σ}
      (hheld : w.cache.fetch table = some held) (horigin : held.origin = origin)
      (hdrop : d.step (.execute statement) w.driver = (.error e, s)) :
      DropRun d table origin dropping statement w
        ⟨.error (.driver e), { w with driver := s },
          .event dropping :: executed statement (.error e)⟩
  | dropped {held : Witness} {s : σ} (hheld : w.cache.fetch table = some held)
      (horigin : held.origin = origin)
      (hdrop : d.step (.execute statement) w.driver = (.ok (), s)) :
      DropRun d table origin dropping statement w
        ⟨.ok (), ⟨s, w.cache.remove table⟩,
          .event dropping :: (executed statement (.ok ()) ++ [.cached (w.cache.remove table)])⟩

/-- What fetching answers once the cursor is scanned and finished: the first error counts. -/
def fetched (scanned : Except DriverError α) (finished : Except DriverError Unit) :
    Except DriverError α := do
  let answer ← scanned
  finished
  return answer

/-- What fetching leads to. A cursor that was opened is scanned and then finished, however the scan
went. -/
inductive FetchRun (d : Driver σ) (s : Sql.Statement) (scan : Action d (Except DriverError α))
    (w : World σ) : Outcome σ (Except MapperError α) → Prop
  | refused {e : DriverError} {after : σ} (hquery : d.step (.query s) w.driver = (.error e, after)) :
      FetchRun d s scan w
        ⟨.error (.driver e), { w with driver := after },
          [.event (.statement .query s), .call (.query s) (.error e)]⟩
  | scanned {opened after : σ} {left : Outcome σ (Except DriverError α)}
      {finished : Except DriverError Unit}
      (hquery : d.step (.query s) w.driver = (.ok (), opened))
      (hscan : scan.run { w with driver := opened } = left)
      (hfinish : d.step .finish left.world.driver = (finished, after)) :
      FetchRun d s scan w
        ⟨(fetched left.value finished).mapError .driver, { left.world with driver := after },
          .event (.statement .query s) :: .call (.query s) (.ok ()) ::
            (left.journal ++ [.call .finish finished])⟩

namespace SchemaCache

variable {cache : SchemaCache} {table origin : String} {held : Witness}

theorem check_free (h : cache.fetch table = none) : cache.check table origin = .ok false := by
  rw [check, h]

theorem check_own (h : cache.fetch table = some held) (horigin : held.origin = origin) :
    cache.check table origin = .ok true := by
  rw [check, h]
  exact if_pos horigin

theorem check_foreign (h : cache.fetch table = some held) (horigin : ¬ held.origin = origin) :
    cache.check table origin = .error (.foreignTable table held.origin origin) := by
  rw [check, h]
  exact if_neg horigin

theorem fetch_put (cache : SchemaCache) (witness : Witness) (table : String) :
    (cache.put witness).fetch table =
      if table = witness.table then some witness else cache.fetch table :=
  KeyMap.get?_insert cache.witnesses witness.table table witness

theorem fetch_remove (cache : SchemaCache) (dropped table : String) :
    (cache.remove dropped).fetch table = if table = dropped then none else cache.fetch table :=
  KeyMap.get?_erase cache.witnesses dropped table

end SchemaCache

namespace Session

open SchemaCache

variable {w : World σ}

/-- A schema statement is reported and handed to the driver. -/
theorem execute_exec {s : Sql.Statement} {answer : Except DriverError Unit} {after : σ}
    (h : d.step (.execute s) w.driver = (answer, after)) :
    (Task.execute s : Task d Unit).exec w =
      ⟨answer.mapError .driver, { w with driver := after }, executed s answer⟩ :=
  Task.exec_reported _ h

/-- Ensuring a table comes to one of the listed runs. -/
theorem ensure_run (witness : Witness) (creating : Event)
    (definition : Except MapperError Sql.Statement) (w : World σ) :
    EnsureRun d witness creating definition w
      ((ensure witness creating definition : Task d Unit).exec w) := by
  cases hheld : w.cache.fetch witness.table with
  | some held =>
    by_cases horigin : held.origin = witness.origin
    · rw [ensure_known (check_own hheld horigin)]
      exact .known hheld horigin
    · rw [ensure, Task.exec_bind, Task.exec_check, check_foreign hheld horigin]
      exact .foreign hheld horigin
  | none =>
    rw [ensure, Task.exec_bind, Task.exec_check, check_free hheld]
    simp only [Bool.false_eq_true, if_false, Task.exec_bind, Task.exec_call, List.nil_append]
    rcases hlook : d.step (.tableExists witness.table) w.driver with ⟨answer, s⟩
    cases answer with
    | error e => exact .unchecked hheld hlook
    | ok there =>
      cases there with
      | true => exact .found hheld hlook
      | false =>
        cases definition with
        | error e => exact .undefined hheld hlook rfl
        | ok statement =>
          rcases hcreate : d.step (.execute statement) s with ⟨answer', s'⟩
          simp only [Except.mapError, Bool.not_false, if_true, Task.exec_ofExcept,
            Task.exec_report, Task.exec_bind, execute_exec (w := ⟨s, w.cache⟩) hcreate]
          cases answer' with
          | error e => exact .uncreated hheld hlook rfl hcreate
          | ok u => exact .created hheld hlook rfl hcreate

/-- Dropping a table comes to one of the listed runs. -/
theorem dropKnown_run (table origin : String) (dropping : Event) (statement : Sql.Statement)
    (w : World σ) : DropRun d table origin dropping statement w
      ((dropKnown table origin dropping statement : Task d Unit).exec w) := by
  cases hheld : w.cache.fetch table with
  | none =>
    rw [dropKnown, Task.exec_bind, Task.exec_check, check_free hheld]
    exact .unknown hheld
  | some held =>
    by_cases horigin : held.origin = origin
    · rw [dropKnown, Task.exec_bind, Task.exec_check, check_own hheld horigin]
      rcases hdrop : d.step (.execute statement) w.driver with ⟨answer, s⟩
      simp only [if_true, List.nil_append, Task.exec_report, Task.exec_bind, execute_exec hdrop]
      cases answer with
      | error e => exact .undropped hheld horigin hdrop
      | ok u => exact .dropped hheld horigin hdrop
    · rw [dropKnown, Task.exec_bind, Task.exec_check, check_foreign hheld horigin]
      exact .foreign hheld horigin

/-- A fetch whose query succeeds answers what its scan and its finish do. -/
theorem fetch_exec {s : Sql.Statement} {scan : Action d (Except DriverError α)}
    {scanned : Except DriverError α} {finished : Except DriverError Unit} {w' : World σ}
    {opened closed : σ} {journal : List Entry}
    (hquery : d.step (.query s) w.driver = (.ok (), opened))
    (hscan : scan.run { w with driver := opened } = ⟨scanned, w', journal⟩)
    (hfinish : d.step .finish w'.driver = (finished, closed)) :
    (fetch s scan).exec w = ⟨(fetched scanned finished).mapError .driver,
      { w' with driver := closed }, .event (.statement .query s) ::
        .call (.query s) (.ok ()) :: (journal ++ [.call .finish finished])⟩ := by
  have hopen : (Task.call (.query s) : Task d (Call.query s).Answer).exec w
      = ⟨.ok (), { w with driver := opened }, [.call (.query s) (.ok ())]⟩ := by
    rw [Task.exec_call, hquery]
    rfl
  have hscanned : Task.exec (ExceptT.lift scan : Task d _) { w with driver := opened } =
      ⟨.ok scanned, w', journal⟩ := by
    rw [Task.exec_lift, hscan]
  have hclose : Task.exec (ExceptT.lift (Action.call .finish) : Task d _) w'
      = ⟨.ok finished, { w' with driver := closed }, [.call .finish finished]⟩ := by
    rw [Task.exec_lift, Action.run_call, hfinish]
  have hanswer : Task.exec (d := d) (do
      let answer ← Task.ofExcept (scanned.mapError .driver)
      Task.ofExcept (finished.mapError .driver)
      return answer) { w' with driver := closed }
        = ⟨(fetched scanned finished).mapError .driver, { w' with driver := closed }, []⟩ := by
    cases scanned with
    | error e => rfl
    | ok a =>
      cases finished with
      | error e => rfl
      | ok u => rfl
  exact Task.exec_bind_eq (Task.exec_report _) <| Task.exec_bind_eq hopen <|
    Task.exec_bind_eq hscanned <| Task.exec_bind_eq hclose hanswer

/-- Fetching comes to one of the listed runs. -/
theorem fetch_run (s : Sql.Statement) (scan : Action d (Except DriverError α)) (w : World σ) :
    FetchRun d s scan w ((fetch s scan : Task d α).exec w) := by
  rcases hquery : d.step (.query s) w.driver with ⟨answer, opened⟩
  cases answer with
  | error e =>
    have hrefused : (Task.call (.query s) : Task d (Call.query s).Answer).exec w
        = ⟨.error (.driver e), { w with driver := opened }, [.call (.query s) (.error e)]⟩ := by
      rw [Task.exec_call, hquery]
      rfl
    have hfetch : (fetch s scan : Task d α).exec w = ⟨.error (.driver e),
        { w with driver := opened },
        [.event (.statement .query s), .call (.query s) (.error e)]⟩ :=
      Task.exec_bind_eq (Task.exec_report _) (Task.exec_bind_error hrefused)
    rw [hfetch]
    exact .refused hquery
  | ok u =>
    rw [fetch_exec hquery rfl rfl]
    exact .scanned hquery rfl rfl

/-- Ensuring a table looks for it, and runs the statement that defines it. -/
theorem ensure_makes {witness : Witness} {creating : Event}
    {definition : Except MapperError Sql.Statement} {call : Call}
    {answer : Except DriverError call.Answer} (h : .call call answer ∈
      ((ensure witness creating definition : Task d Unit).exec w).journal) :
    call = .tableExists witness.table ∨ ∃ s, definition = .ok s ∧ call = .execute s := by
  have hrun := ensure_run (d := d) witness creating definition w
  generalize (ensure witness creating definition : Task d Unit).exec w = outcome at h hrun
  cases hrun with
  | known | foreign => cases h
  | unchecked | found | undefined =>
      simp only [List.mem_cons, List.not_mem_nil, or_false, reduceCtorEq] at h
      cases h
      exact .inl rfl
  | uncreated _ _ hs | created _ _ hs =>
      simp only [executed, List.mem_cons, List.not_mem_nil, or_false, reduceCtorEq, false_or,
        List.mem_append] at h
      rcases h with h | h
      · cases h
        exact .inl rfl
      · cases h
        exact .inr ⟨_, hs, rfl⟩

/-- Dropping a table runs the statement that drops it. -/
theorem dropKnown_makes {table origin : String} {dropping : Event} {statement : Sql.Statement}
    {call : Call} {answer : Except DriverError call.Answer} (h : .call call answer ∈
      ((dropKnown table origin dropping statement : Task d Unit).exec w).journal) :
    call = .execute statement := by
  have hrun := dropKnown_run (d := d) table origin dropping statement w
  generalize (dropKnown table origin dropping statement : Task d Unit).exec w = outcome at h hrun
  cases hrun with
  | unknown | foreign => cases h
  | undropped | dropped =>
      simp only [executed, List.mem_cons, List.not_mem_nil, or_false, reduceCtorEq, false_or,
        List.mem_append] at h
      cases h
      rfl

end Session

/-! ## Jobs on rows -/

/-- The statement of a job that works on rows and links, or on those that a query finds. -/
def Job.rows? : Job → Option Sql.Statement
  | .ensure .. | .drop .. => none
  | .insert s | .update s | .delete s | .fetchRow s _ | .fetchColumn s _ => some s

/-- Whether a call runs a statement on rows, or works on the cursor of one. -/
def Call.WorksOn (s : Sql.Statement) : Call → Prop
  | .query s' | .insert s' | .update s' | .delete s' => s' = s
  | .next | .read _ | .finish => True
  | _ => False

/-- Whether a line reports, or notes a call that runs a statement on rows. -/
def Entry.WorksOn (s : Sql.Statement) : Entry → Prop
  | .event _ => True
  | .call c _ => c.WorksOn s
  | .cached _ => False

theorem Entry.WorksOn.idle {s : Sql.Statement} {entry : Entry} (h : entry.WorksOn s) :
    ¬ entry.ChangesCache := by
  cases entry with
  | cached cache => exact absurd h id
  | event e => exact id
  | call c answer => exact id

namespace Session

variable {s : Sql.Statement} {slots : List Value} {zero : Value} {P : Entry → Prop}

/-- Scanning the first row advances the cursor and reads it. -/
theorem scanFirst_lines (hnext : ∀ a, P (.call .next a))
    (hread : ∀ slots a, P (.call (.read slots) a)) (w : World σ) :
    ∀ entry ∈ ((scanFirst slots : Action d _).run w).journal, P entry := by
  rw [scanFirst, Action.run_bind, Action.run_call]
  intro entry hentry
  rcases List.mem_cons.1 hentry with rfl | hentry
  · exact hnext _
  · dsimp only at hentry
    split at hentry
    · cases hentry
    · cases hentry
    · rcases List.mem_singleton.1 hentry with rfl
      exact hread _ _

/-- Scanning all rows advances the cursor and reads it. -/
theorem scanColumn_lines (hnext : ∀ a, P (.call .next a))
    (hread : ∀ slots a, P (.call (.read slots) a)) (w : World σ) :
    ∀ entry ∈ (scanColumn d zero w).journal, P entry := by
  fun_induction scanColumn d zero w with
  | case1 w e atEnd hstep => simpa using hnext _
  | case2 w atEnd hstep => simpa using hnext _
  | case3 w atRow hstep entry e after hread' => simpa [entry] using ⟨hnext _, hread _ _⟩
  | case4 w atRow hstep entry values after hread' _ rest ih =>
      simpa [entry] using ⟨hnext _, hread _ _, ih⟩

/-- Fetching reports its query, makes it, and scans and finishes the cursor. -/
theorem fetch_lines {scan : Action d (Except DriverError α)}
    (hreport : P (.event (.statement .query s))) (hquery : ∀ a, P (.call (.query s) a))
    (hscan : ∀ w, ∀ entry ∈ (scan.run w).journal, P entry) (hfinish : ∀ a, P (.call .finish a)) :
    (fetch s scan : Task d α).Journals P := by
  refine .bind (.report hreport) fun _ => .bind (.call hquery) fun _ => ?_
  refine .bind (.lift hscan) fun scanned => .bind (.lift fun w => ?_) fun finished => ?_
  · intro entry hentry
    rcases List.mem_singleton.1 hentry with rfl
    exact hfinish _
  · exact .bind (.ofExcept _) fun _ => .bind (.ofExcept _) fun _ => .pure _

end Session

/-- A job on rows runs its statement and works on its cursor. -/
theorem Job.rows_lines {job : Job} {s : Sql.Statement} (h : job.rows? = some s) :
    (job.task d).Journals (Entry.WorksOn s) := by
  cases job with
  | ensure | drop => cases h
  | insert s' | update s' | delete s' =>
      cases h
      exact .bind (.report trivial) fun _ => .call fun _ => rfl
  | fetchRow s' slots =>
      cases h
      exact Session.fetch_lines trivial (fun _ => rfl)
        (Session.scanFirst_lines (fun _ => trivial) fun _ _ => trivial) fun _ => trivial
  | fetchColumn s' zero =>
      cases h
      exact Session.fetch_lines trivial (fun _ => rfl)
        (Session.scanColumn_lines (fun _ => trivial) fun _ _ => trivial) fun _ => trivial

/-- A job on rows leaves the cache alone. -/
theorem Job.rows_cache {job : Job} {s : Sql.Statement} (h : job.rows? = some s) (w : World σ) :
    ((job.task d).exec w).world.cache = w.cache := by
  rw [(job.recounts w).cache_eq]
  exact cacheAfter_idle fun entry hentry => (job.rows_lines h w entry hentry).idle

end EntityMapper
