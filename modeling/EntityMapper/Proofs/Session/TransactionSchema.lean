import EntityMapper.Proofs.Session.Laws
import EntityMapper.Proofs.Session.Refusals
import EntityMapper.Proofs.Sql.RowColumns

/-!
# Schema statements in transactions

Requests that work on rows ensure the tables that they need, also inside a transaction, so a table
may be created between its begin and its end (`Session.transaction_creates`). None is dropped there,
and what is created is a table that the cache does not know and that has been looked for in vain
(`Founded`). Where the cache knows the tables, the transaction is free of schema statements
(`Session.transaction_schema`).
-/

namespace EntityMapper

variable {n : Nat} {σ α β : Type} {d : Driver σ}

/-! ## Creations -/

/-- Whether a call runs a schema statement. -/
def Call.Executes : Call → Prop
  | .execute _ => True
  | _ => False

/-- Whether every schema statement of a journal creates a table that the cache does not know at that
moment, and comes right after a look for the table that has not found it. -/
inductive Founded : SchemaCache → List Entry → Prop
  | nil {cache : SchemaCache} : Founded cache []
  | other {cache : SchemaCache} {entry : Entry} {journal : List Entry}
      (h : ∀ call answer, entry = .call call answer → ¬ call.Executes)
      (hrest : Founded (entry.after cache) journal) : Founded cache (entry :: journal)
  | creation {cache : SchemaCache} {s : Sql.Statement} {creating : Event}
      {answer : Except DriverError Unit} {journal : List Entry} (hs : s.IsCreation)
      (hfree : cache.fetch s.table = none) (hrest : Founded cache journal) :
      Founded cache (.call (.tableExists s.table) (.ok false) :: .event creating ::
        (executed s answer ++ journal))

namespace Founded

variable {cache : SchemaCache} {journal later : List Entry}

theorem append (h : Founded cache journal) (hlater : Founded (cacheAfter cache journal) later) :
    Founded cache (journal ++ later) := by
  induction h with
  | nil => exact hlater
  | other h _ ih => exact .other h (ih hlater)
  | creation hs hfree _ ih => exact .creation hs hfree (ih hlater)

/-- Lines without schema statements. -/
theorem of_calls (h : Calls (fun call => ¬ call.Executes) journal) : Founded cache journal := by
  induction journal generalizing cache with
  | nil => exact .nil
  | cons entry journal ih =>
      refine .other (fun call answer hcall => h call answer (hcall ▸ List.mem_cons_self)) ?_
      exact ih fun call answer hcall => h call answer (List.mem_cons_of_mem _ hcall)

/-- What stands before a schema statement. -/
theorem before_execute (h : Founded cache journal) {before after : List Entry} {s : Sql.Statement}
    {answer : Except DriverError Unit}
    (hjournal : journal = before ++ .call (.execute s) answer :: after) :
    s.IsCreation ∧ (cacheAfter cache before).fetch s.table = none ∧ ∃ earlier creating,
      before = earlier ++ [.call (.tableExists s.table) (.ok false), .event creating,
        .event (.statement .execute s)] := by
  induction h generalizing before with
  | nil => cases before <;> cases hjournal
  | other h _ ih =>
      cases before with
      | nil =>
          cases hjournal
          exact absurd trivial (h _ _ rfl)
      | cons entry before =>
          obtain ⟨rfl, hrest⟩ := List.cons.inj hjournal
          obtain ⟨hs, hfree, earlier, creating, rfl⟩ := ih hrest
          exact ⟨hs, hfree, _ :: earlier, creating, rfl⟩
  | creation hs hfree _ ih =>
      match before with
      | [] | [_] | [_, _] => cases hjournal
      | [_, _, _] =>
          cases hjournal
          exact ⟨hs, hfree, [], _, rfl⟩
      | _ :: _ :: _ :: _ :: before =>
          cases hjournal
          obtain ⟨hs, hfree, earlier, creating, rfl⟩ := ih rfl
          exact ⟨hs, hfree, _ :: _ :: _ :: _ :: earlier, creating, rfl⟩

end Founded

/-! ## Requests on rows -/

/-- Whether a request works on rows. -/
def Request.IsOnRows : Request → Prop
  | .create .. | .drop .. => False
  | .insert _ | .update _ | .delete _ | .query _ => True

theorem Request.IsOnRows.not_drop {q : Request} (h : q.IsOnRows) : ¬ q.IsDrop := by
  cases q with
  | create | drop => exact absurd h id
  | insert | update | delete | query => simp [IsDrop, kinds]

/-- A job that drops nothing creates no table but one that was not found. -/
theorem Job.founded {ms : Models n} {root : Fin n} {kind : Job.Kind} {job : Job}
    (hjob : job.Within ms root kind) (hkind : kind ≠ .dropping) (w : World σ) :
    Founded w.cache ((job.task d).exec w).journal := by
  have hrows : ∀ s, job.rows? = some s → Founded w.cache ((job.task d).exec w).journal := by
    refine fun s hs => .of_calls fun call answer hcall hexecutes => ?_
    have hworks : call.WorksOn s := job.rows_lines hs w _ hcall
    cases call with
    | execute s' => exact hworks
    | release | begin | commit | rollback | query | next | read | finish | insert | update | delete
    | tableExists => exact hexecutes
  obtain ⟨rfl, j, hj, hserves⟩ := hjob
  cases job with
  | ensure witness creating definition =>
      have hrun := Session.ensure_run (d := d) witness creating definition w
      obtain ⟨-, -, hdefinition⟩ := hserves
      show Founded w.cache
        ((Session.ensure witness creating definition : Task d Unit).exec w).journal
      generalize (Session.ensure witness creating definition : Task d Unit).exec w = outcome
        at hrun ⊢
      cases hrun with
      | known | foreign => exact .nil
      | unchecked | found | undefined =>
          refine .of_calls fun call answer hcall => ?_
          simp only [List.mem_cons, List.not_mem_nil, or_false, reduceCtorEq] at hcall
          cases hcall
          exact id
      | uncreated hfree _ hs =>
          obtain ⟨hcreation, htable⟩ := hdefinition _ hs
          rw [← htable] at hfree ⊢
          exact .creation hcreation hfree .nil
      | created hfree _ hs =>
          obtain ⟨hcreation, htable⟩ := hdefinition _ hs
          rw [← htable] at hfree ⊢
          exact .creation hcreation hfree (.other (fun _ _ h => nomatch h) .nil)
  | drop => exact absurd rfl hkind
  | insert s | update s | delete s | fetchRow s | fetchColumn s => exact hrows s rfl

/-- That creations are founded, along a journal that tells the cache, is a law of runs. -/
theorem Founded.runLaw : RunLaw fun _ (w : World σ) journal w' =>
    w'.cache = cacheAfter w.cache journal ∧ Founded w.cache journal := by
  refine .blind (fun w events => ⟨?_, .of_calls (.quiet events)⟩) ?_
  · exact (cacheAfter_idle (idle_runLaw.quiet none w events)).symm
  · intro w w' w'' journal later ⟨hcache, hfounded⟩ ⟨hlater, hfoundedLater⟩
    rw [hcache] at hlater hfoundedLater
    exact ⟨hlater.trans (cacheAfter_append _ _ _).symm, hfounded.append hfoundedLater⟩

/-- A request on rows creates no table but one that was not found. -/
theorem Request.IsOnRows.founded {q : Request} (h : q.IsOnRows) (w : World σ) :
    ((q.act d).run w).world.cache = cacheAfter w.cache ((q.act d).run w).journal ∧
      Founded w.cache ((q.act d).run w).journal := by
  refine q.composed.law Founded.runLaw (fun job hjob w => ⟨(job.recounts w).cache_eq, ?_⟩) w
  obtain ⟨kind, hkind, hwithin⟩ := hjob
  refine Job.founded hwithin ?_ w
  rintro rfl
  exact h.not_drop hkind

/-- That creations are founded is kept by the lines around the work of a transaction. -/
theorem Founded.programLaw : ProgramLaw d fun w journal w' =>
    w'.cache = cacheAfter w.cache journal ∧ Founded w.cache journal where
  toJournalLaw := Founded.runLaw.journalLaw
  bracket call hcall w := by
    refine ⟨rfl, .other (fun call' answer heq hexecutes => ?_) .nil⟩
    cases heq
    cases call with
    | begin | commit | rollback => exact hexecutes
    | release | query | next | read | finish | insert | update | delete | execute | tableExists =>
        exact hcall
  undone e w := Founded.runLaw.quiet none w [.rollbackFailed e]

/-! ## Known tables -/

/-- Whether a call looks for a table or runs a schema statement. -/
def Call.IsOnSchema : Call → Prop
  | .tableExists _ | .execute _ => True
  | _ => False

/-- Whether a cache knows all tables that a request ensures. -/
def Request.Prepared (q : Request) (cache : SchemaCache) : Prop :=
  .ensuring ∈ q.kinds → ∀ j ∈ q.models.closure q.root, ∀ table, q.models.Owns j table →
    cache.fetch table ≠ none

/-- A request on rows that finds its tables in the cache makes no call on the schema. -/
theorem Request.IsOnRows.calls {q : Request} (h : q.IsOnRows) {w : World σ}
    (hprepared : q.Prepared w.cache) :
    Calls (fun call => ¬ call.IsOnSchema) ((q.act d).run w).journal := by
  intro call answer hcall hschema
  obtain ⟨kind, hkind, hsuits, j, hj, hserves⟩ := q.suited w call answer hcall
  -- The table that the call ensures is known to the cache, so there is no such call.
  have hnone : ∀ table, q.models.Owns j table → .ensuring ∈ q.kinds →
      call.ensured? ≠ some table := by
    intro table howns hensuring
    obtain ⟨held, hheld⟩ := Option.ne_none_iff_exists'.1 (hprepared hensuring j hj table howns)
    have honce := Request.ensured_once (d := d) h.not_drop table w
    exact (honce.held held hheld).2 call answer hcall
  cases kind with
  | ensuring =>
      cases call with
      | tableExists table => exact hnone table hserves hkind rfl
      | execute s => exact hnone s.table hserves hkind hsuits.created?
      | release | begin | commit | rollback | query | next | read | finish | insert | update
      | delete => exact hschema
  | dropping => exact h.not_drop hkind
  | onRows =>
      cases call with
      | tableExists | execute => exact hsuits
      | release | begin | commit | rollback | query | next | read | finish | insert | update
      | delete => exact hschema

/-- A request on rows forgets no table. -/
theorem Request.IsOnRows.keeps {q : Request} (h : q.IsOnRows) (w : World σ) (table : String)
    (hknown : w.cache.fetch table ≠ none) : ((q.act d).run w).world.cache.fetch table ≠ none := by
  obtain ⟨held, hheld⟩ := Option.ne_none_iff_exists'.1 hknown
  have honce := Request.ensured_once (d := d) h.not_drop table w
  rw [(honce.held held hheld).1]
  exact Option.some_ne_none held

namespace Program

variable (d) in
/-- The requests that a program makes, each with the cache that it finds, those inside transactions
included. -/
def requests : {α : Type} → Program α → World σ → List (SchemaCache × Request)
  | _, .done _, _ => []
  | _, .request q next, w =>
      let left := (q.act d).run w
      (w.cache, q) :: (next left.value).requests left.world
  | _, .transaction storage body next, w =>
      let begun := (Task.call (d := d) .begin).exec w
      let left := (Session.transaction storage fun _ => body.act d).run w
      let inside := match begun.value with
        | .ok _ => body.requests begun.world
        | .error _ => []
      inside ++ (next left.value).requests left.world

end Program

theorem Call.IsBracket.not_onSchema {call : Call} (h : call.IsBracket) : ¬ call.IsOnSchema := by
  cases call with
  | begin | commit | rollback => exact id
  | release | query | next | read | finish | insert | update | delete | execute | tableExists =>
      exact absurd h id

/-- A program of requests on rows makes no call on the schema where they find their tables in the
cache. -/
theorem Program.calls {p : Program α} (hrows : p.Every Request.IsOnRows) {w : World σ}
    (hprepared : ∀ made ∈ p.requests d w, made.2.Prepared made.1) :
    Calls (fun call => ¬ call.IsOnSchema) ((p.act d).run w).journal := by
  induction p generalizing w with
  | done a => exact .nil
  | request q next ih =>
      have hfirst := hrows.1.calls (d := d) (hprepared _ List.mem_cons_self)
      exact hfirst.append (ih _ (hrows.2 _) fun made hmade =>
        hprepared made (List.mem_cons_of_mem _ hmade))
  | transaction storage body next ihbody ihnext =>
      have hrun := Session.transaction_run storage (fun _ => body.act d) w
      refine (hrun.calls (fun _ => Call.IsBracket.not_onSchema) fun s hbegin => ?_).append
        (ihnext _ (hrows.2 _) fun made hmade => hprepared made (List.mem_append_right _ hmade))
      refine ihbody hrows.1 fun made hmade => hprepared made (List.mem_append_left _ ?_)
      rw [Task.exec_call, hbegin]
      exact hmade

/-! ## What is known at the start -/

theorem Request.Prepared.mono {q : Request} {cache later : SchemaCache} (h : q.Prepared cache)
    (hkept : ∀ table, cache.fetch table ≠ none → later.fetch table ≠ none) : q.Prepared later :=
  fun hensuring j hj table howns => hkept table (h hensuring j hj table howns)

/-- That no table is forgotten is kept by the lines around the work of a transaction. -/
theorem knownLaw : ProgramLaw d fun w _ w' =>
    ∀ table, w.cache.fetch table ≠ none → w'.cache.fetch table ≠ none where
  nil _ _ := id
  append h hlater table hknown := hlater table (h table hknown)
  stage _ _ _ _ := id
  bracket _ _ _ _ := id
  undone _ _ _ := id

/-- A program of requests on rows that would find their tables in the cache at the start finds them
there all the time. -/
theorem Program.prepared_of_known {p : Program α} {cache : SchemaCache}
    (h : p.Every fun q => q.IsOnRows ∧ q.Prepared cache) {w : World σ}
    (hknown : ∀ table, cache.fetch table ≠ none → w.cache.fetch table ≠ none) :
    ∀ made ∈ p.requests d w, made.2.Prepared made.1 := by
  induction p generalizing w with
  | done a => exact fun _ h => absurd h List.not_mem_nil
  | request q next ih =>
      obtain ⟨⟨hrows, hprepared⟩, hnext⟩ := h
      intro made hmade
      rcases List.mem_cons.1 hmade with rfl | hmade
      · exact hprepared.mono hknown
      · exact ih _ (hnext _) (fun table ht => hrows.keeps w table (hknown table ht)) made hmade
  | transaction storage body next ihbody ihnext =>
      have hbody := body.law (d := d) knownLaw (fun q hq w => hq.1.keeps w) h.1
      have hkept := knownLaw.transaction
        (Session.transaction_run storage (fun _ => body.act d) w) hbody
      intro made hmade
      rcases List.mem_append.1 hmade with hmade | hmade
      · split at hmade
        · exact ihbody (w := ((Task.call (d := d) .begin).exec w).world) h.1 hknown made hmade
        · exact absurd hmade List.not_mem_nil
      · exact ihnext _ (h.2 _) (fun table ht => hkept table (hknown table ht)) made hmade

/-! ## Transactions -/

namespace Session

/-- Every schema statement of a transaction of requests on rows creates a table that the cache does
not know at that moment and that was just looked for and not found; no table is dropped. Where the
transaction begins and each request that it makes finds its tables in the cache, it makes no call on
the schema at all. -/
theorem transaction_schema (storage : β) {body : Program (Attempt β α)}
    (hrows : body.Every Request.IsOnRows) (w : World σ) :
    let journal := ((transaction storage fun _ => body.act d).run w).journal
    (∀ before s answer after, journal = before ++ .call (.execute s) answer :: after →
      s.IsCreation ∧ (cacheAfter w.cache before).fetch s.table = none ∧ ∃ earlier creating,
        before = earlier ++ [.call (.tableExists s.table) (.ok false), .event creating,
          .event (.statement .execute s)]) ∧
    ((∀ s, d.step .begin w.driver = (.ok (), s) →
        ∀ made ∈ body.requests d { w with driver := s }, made.2.Prepared made.1) →
      Calls (fun call => ¬ call.IsOnSchema) journal) := by
  intro journal
  have hrun := transaction_run storage (fun _ => body.act d) w
  refine ⟨fun before s answer after hjournal => ?_, fun hprepared => ?_⟩
  · have hbody := body.law Founded.programLaw (fun q hq w => hq.founded (d := d) w) hrows
    exact (Founded.programLaw.transaction hrun hbody).2.before_execute hjournal
  · exact hrun.calls (fun _ => Call.IsBracket.not_onSchema) fun s hbegin =>
      Program.calls hrows (hprepared s hbegin)

end Session

/-- A letter is inserted and queried. -/
def insertThenQuery : Program (Attempt (Record letters) Unit) :=
  .request (.insert letter.record) fun left => .request (.query left.storage) fun left => .done left

/-- A cache that knows the table of letters and that of their replies. -/
def lettersCache : SchemaCache :=
  (SchemaCache.empty.put (.ofModel (letters.model 0))).put
    (.ofTable "letters_Letterreply2letters_Letter" (letters.model 0))

/-- A letter is inserted and queried in one transaction, which makes no call on the schema. -/
theorem letters_transaction_schema :
    insertThenQuery.Every Request.IsOnRows ∧
      (∀ s, Recorded.driver.step .begin .fresh = (.ok (), s) →
        ∀ made ∈ insertThenQuery.requests Recorded.driver ⟨s, lettersCache⟩,
          made.2.Prepared made.1) ∧
      Calls (fun call => ¬ call.IsOnSchema) ((Session.transaction letter.record fun _ =>
        insertThenQuery.act Recorded.driver).run ⟨.fresh, lettersCache⟩).journal := by
  have hknown : ∀ j table, letters.Owns j table → lettersCache.fetch table ≠ none := by
    intro j table howns
    obtain rfl : j = 0 := Subsingleton.elim j 0
    rw [lettersCache, SchemaCache.fetch_put, SchemaCache.fetch_put]
    cases howns with
    | table =>
        have htable : (Witness.ofModel (letters.model 0)).table = (letters.model 0).table := rfl
        rw [if_neg (by decide +kernel), if_pos htable.symm]
        exact Option.some_ne_none _
    | links hrs hr =>
        have hrelations : letters.relations 0 = .ok [⟨0, "reply", 0, true⟩] := by decide +kernel
        obtain rfl := Except.ok.inj (hrs.symm.trans hrelations)
        obtain rfl := List.mem_singleton.1 hr
        rw [if_pos (by decide +kernel)]
        exact Option.some_ne_none _
  have hprepared : insertThenQuery.Every fun q => q.IsOnRows ∧ q.Prepared lettersCache :=
    ⟨⟨trivial, fun _ j _ => hknown j⟩, fun _ =>
      ⟨⟨trivial, fun _ j _ => hknown j⟩, fun _ => trivial⟩⟩
  have hrows : insertThenQuery.Every Request.IsOnRows :=
    ⟨trivial, fun _ => ⟨trivial, fun _ => trivial⟩⟩
  have hmade : ∀ s, Recorded.driver.step .begin .fresh = (.ok (), s) →
      ∀ made ∈ insertThenQuery.requests Recorded.driver ⟨s, lettersCache⟩,
        made.2.Prepared made.1 :=
    fun _ _ => Program.prepared_of_known hprepared fun _ => id
  exact ⟨hrows, hmade, (Session.transaction_schema letter.record hrows _).2 hmade⟩

/-- An item is inserted, and the transaction is given up. -/
def abortedInsertion : Program (Attempt (Record rightItems) Unit) :=
  .request (.insert rightItem.record) fun left =>
    .done ⟨left.storage, .error (.custom .invalidArgument .orm "abort")⟩

namespace Session

/-- Where a record is introspected, a prepared operation has the lines of ensuring its tables. -/
theorem PreparedRun.mem_of_ensured {c : Catalog n} {operation : Operation} {r : Record c}
    {work : Bound c r.model → Staged d (Record c) Unit} {w : World σ}
    {outcome : Outcome σ (Attempt (Record c) Unit)}
    (h : PreparedRun d operation r work w outcome) {b : Bound c r.model} {deps : List (Fin n)}
    (hintrospect : r.introspect = .ok (b, deps)) {line : Entry}
    (hline : line ∈ ((ensureSchema c r.model deps : Task d Unit).exec w).journal) :
    line ∈ outcome.journal := by
  obtain ⟨hdeps, -⟩ := Record.introspect_eq_ok_iff.1 hintrospect
  cases h with
  | refused hrefused => cases hintrospect.symm.trans hrefused
  | unensured hfound hensure | worked _ hfound hensure =>
      cases hdeps.symm.trans hfound
      rw [hensure] at hline
      exact List.mem_append_right _ (List.mem_append_left _ hline)

/-- Ensuring the tables of items from a cache that knows nothing creates their table. -/
theorem ensureSchema_rightItems : ∃ s : Sql.Statement, s.IsCreation ∧
    .call (.execute s) (.ok ()) ∈
      ((ensureSchema rightItems.toModels 0 [] : Task bare Unit).exec ⟨(), .empty⟩).journal := by
  have hcreate : ∃ s, rightItems.createTable 0 = .ok s :=
    Models.createTable_of_storable (by decide +kernel) rightItem.described
  obtain ⟨s, hs⟩ := hcreate
  obtain ⟨journal, hexec, hcreated⟩ := ensure_bare (w := ⟨(), .empty⟩)
    (.ofModel (rightItems.model 0)) (.creatingTable (rightItems.model 0).table) rfl hs
  have htables : (([0] : List (Fin 1)).forM (ensureTable rightItems) : Task bare Unit).exec
      ⟨(), .empty⟩ = ⟨.ok (), ⟨(), .put .empty (.ofModel (rightItems.model 0))⟩, journal ++ []⟩ :=
    Task.exec_bind_eq hexec rfl
  refine ⟨s, (createTable_creation hs).1, ?_⟩
  rw [ensureSchema, List.nil_append, Task.exec_bind, htables]
  exact List.mem_append_left _ (List.mem_append_left _ hcreated)

end Session

/-- A transaction that inserts an item from a cache that knows nothing creates the table of items
between its begin and its rollback. -/
theorem Session.transaction_creates :
    ¬ ∀ (body : Program (Attempt (Record rightItems) Unit)) (w : World Unit),
      body.Every Request.IsOnRows → ∀ s : Sql.Statement, s.IsCreation →
        ∀ answer, Entry.call (.execute s) answer ∉
          ((Session.transaction rightItem.record fun _ => body.act bare).run w).journal := by
  intro h
  obtain ⟨s, hs, hcreated⟩ := Session.ensureSchema_rightItems
  have hinsert : Entry.call (.execute s) (.ok ()) ∈
      ((Session.insert (d := bare) rightItem.record).run ⟨(), .empty⟩).journal := by
    rw [Session.insert_eq]
    exact (Session.prepared_run _ _ _ _).mem_of_ensured Session.introspect_rightItem hcreated
  refine h abortedInsertion ⟨(), .empty⟩ ⟨trivial, fun _ => trivial⟩ s hs (.ok ()) ?_
  have hrun := Session.transaction_run (d := bare) rightItem.record
    (fun _ => abortedInsertion.act bare) ⟨(), .empty⟩
  exact hrun.mem_of_work rfl (List.mem_append_left _ hinsert)

end EntityMapper
