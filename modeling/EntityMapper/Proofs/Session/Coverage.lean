import EntityMapper.Proofs.Session.Insertion
import EntityMapper.Proofs.Session.Requests

/-!
# Tables are ensured before they are used

Inserting, updating and querying first do all of their work on the schema, and then all of their
work on rows (`schema_before_rows`). What the cache knows it keeps to know (`SchemaCache.Within`),
so once the tables of the listed models and of their links are ensured one after the other, the
cache knows every table that a model of the closure owns.
-/

namespace EntityMapper

variable {n : Nat} {c : Catalog n} {σ α : Type} {d : Driver σ} {ms : Models n} {k root : Fin n}

/-! ## What a cache knows -/

namespace SchemaCache

/-- Whether a cache holds a table for a type. -/
def Knows (cache : SchemaCache) (table origin : String) : Prop :=
  ∃ held, cache.fetch table = some held ∧ held.origin = origin

/-- Whether every witness of a cache is still held by a later one. -/
def Within (cache later : SchemaCache) : Prop :=
  ∀ table held, cache.fetch table = some held → later.fetch table = some held

/-- Whether a cache knows every table that a model owns. -/
def Covers (cache : SchemaCache) (ms : Models n) (j : Fin n) : Prop :=
  ∀ table, ms.Owns j table → cache.Knows table (ms.model j).origin

variable {cache later : SchemaCache} {table origin : String}

theorem knows_of_check (h : cache.check table origin = .ok true) : cache.Knows table origin := by
  cases hheld : cache.fetch table with
  | none =>
      rw [check_free hheld] at h
      cases h
  | some held =>
      by_cases horigin : held.origin = origin
      · exact ⟨held, hheld, horigin⟩
      · rw [check_foreign hheld horigin] at h
        cases h

theorem Knows.within (h : cache.Knows table origin) (hlater : cache.Within later) :
    later.Knows table origin := by
  obtain ⟨held, hheld, horigin⟩ := h
  exact ⟨held, hlater table held hheld, horigin⟩

/-- A witness for a table that is not held yet displaces none. -/
theorem within_put {witness : Witness} (h : cache.fetch witness.table = none) :
    cache.Within (cache.put witness) := by
  intro table held hheld
  rw [fetch_put, if_neg]
  · exact hheld
  · rintro rfl
    rw [h] at hheld
    cases hheld

end SchemaCache

/-- That witnesses stay is a law of runs. -/
theorem within_runLaw : RunLaw fun _ (w : World σ) _ w' => w.cache.Within w'.cache :=
  .blind (fun _ _ _ _ hheld => hheld) fun h hlater table held hheld =>
    hlater table held (h table held hheld)

/-- Every job but a drop keeps the witnesses of the cache. -/
theorem Job.within {job : Job} (h : job.kind ≠ .dropping) (w : World σ) :
    w.cache.Within ((job.task d).exec w).world.cache := by
  have hrows : ∀ s, job.rows? = some s → w.cache.Within ((job.task d).exec w).world.cache := by
    intro s hs
    rw [Job.rows_cache hs w]
    exact fun _ _ hheld => hheld
  cases job with
  | drop => exact absurd rfl h
  | insert s | update s | delete s | fetchRow s | fetchColumn s => exact hrows s rfl
  | ensure witness creating definition =>
      have hrun := Session.ensure_run (d := d) witness creating definition w
      show w.cache.Within
        ((Session.ensure witness creating definition : Task d Unit).exec w).world.cache
      generalize (Session.ensure witness creating definition : Task d Unit).exec w = outcome
        at hrun ⊢
      cases hrun with
      | known | foreign | unchecked | undefined | uncreated => exact fun _ _ hheld => hheld
      | found hfree | created hfree => exact SchemaCache.within_put hfree

namespace Session

/-! ## What ensuring the tables of models comes to -/

/-- A task that ensures tables keeps the witnesses of the cache. -/
theorem ensuring_within {t : Task d α} (ht : t.Composed (Job.Within ms root .ensuring))
    (w : World σ) : w.cache.Within (t.exec w).world.cache := by
  refine ht.law within_runLaw (fun job hjob w => job.within ?_ w) w
  rw [hjob.kind_eq]
  decide

/-- Tasks that ensure tables, one after the other, come to all that each of them comes to. -/
theorem forM_ensuring {γ : Type} {g : γ → Task d Unit} {R : γ → SchemaCache → Prop}
    (hR : ∀ x cache later, cache.Within later → R x cache → R x later) : (xs : List γ) →
    (∀ x ∈ xs, (g x).Composed (Job.Within ms root .ensuring)) →
    (∀ x ∈ xs, ∀ w, (g x).Leads w fun _ w' _ => R x w'.cache) → ∀ w,
    (xs.forM g).Leads w fun _ w' _ => ∀ x ∈ xs, R x w'.cache
  | [], _, _, _ => .pure fun _ hx => absurd hx List.not_mem_nil
  | x :: xs, hg, hleads, w => by
      show (g x >>= fun _ => xs.forM g).Leads w _
      refine .bind _ (hleads x List.mem_cons_self w) fun _ w' _ hx => ?_
      have hg' : ∀ y ∈ xs, (g y).Composed (Job.Within ms root .ensuring) :=
        fun y hy => hg y (List.mem_cons_of_mem _ hy)
      intro u hu y hy
      rcases List.mem_cons.1 hy with rfl | hy
      · -- The tasks after the first one keep what it has come to.
        exact hR y _ _ (ensuring_within (.forM xs hg') w') hx
      · exact forM_ensuring hR xs hg' (fun z hz => hleads z (List.mem_cons_of_mem _ hz)) w' u hu y
          hy

theorem ensureTable_leads (w : World σ) : (ensureTable ms k : Task d Unit).Leads w fun _ w' _ =>
    w'.cache.Knows (ms.model k).table (ms.model k).origin :=
  fun u hu => SchemaCache.knows_of_check (ensure_leads u hu)

theorem ensureLinks_leads {r : Relation n} (w : World σ) :
    (ensureLinks ms r : Task d Unit).Leads w fun _ w' _ =>
      w'.cache.Knows (ms.linkTable r) (ms.model r.owner).origin :=
  fun u hu => SchemaCache.knows_of_check (ensure_leads u hu)

/-- Ensuring the tables of a model's links comes to the cache knowing them. -/
theorem ensureOwnLinks_leads {j : Fin n} (hj : j ∈ ms.closure root) (w : World σ) :
    (do (← Task.ofExcept (ms.relations j)).forM (ensureLinks ms) : Task d Unit).Leads w
      fun _ w' _ => ∀ rs, ms.relations j = .ok rs → ∀ r ∈ rs,
        w'.cache.Knows (ms.linkTable r) (ms.model r.owner).origin := by
  refine .bind (fun rs _ _ => ms.relations j = .ok rs) (.ofExcept fun rs hrs => hrs) ?_
  intro rs w' _ hrs u hu rs' hrs'
  obtain rfl := Except.ok.inj (hrs.symm.trans hrs')
  exact forM_ensuring (R := fun r cache => cache.Knows (ms.linkTable r) (ms.model r.owner).origin)
    (fun _ _ _ hlater hknows => hknows.within hlater) rs
    (fun r hr => ensureLinks_composed hj hrs hr) (fun r _ w => ensureLinks_leads w) w' u hu

/-- Once the tables of models of a closure and those of their links are ensured, the cache knows
every table that one of these models owns. -/
theorem ensureSchema_covers {dependencies : List (Fin n)}
    (h : ∀ j ∈ dependencies, j ∈ ms.closure k) (w : World σ) :
    (ensureSchema ms k dependencies : Task d Unit).Leads w fun _ w' _ =>
      ∀ j ∈ dependencies ++ [k], w'.cache.Covers ms j := by
  have hlisted : ∀ j ∈ dependencies ++ [k], j ∈ ms.closure k := by
    intro j hj
    rcases List.mem_append.1 hj with hj | hj
    · exact h j hj
    · exact .inl (List.mem_singleton.1 hj)
  have hlinks : ∀ j ∈ dependencies ++ [k], (do
      (← Task.ofExcept (ms.relations j)).forM (ensureLinks ms) : Task d Unit).Composed
        (Job.Within ms k .ensuring) :=
    fun j hj => .ofExcept_bind fun rs hrs =>
      .forM rs fun r hr => ensureLinks_composed (hlisted j hj) hrs hr
  refine .bind (fun _ w' _ => ∀ j ∈ dependencies ++ [k],
    w'.cache.Knows (ms.model j).table (ms.model j).origin) ?_ fun _ w' _ htables => ?_
  · exact forM_ensuring
      (R := fun j cache => cache.Knows (ms.model j).table (ms.model j).origin)
      (fun _ _ _ hlater hknows => hknows.within hlater) _
      (fun j hj => ensureTable_composed (hlisted j hj)) (fun j _ w => ensureTable_leads w) w
  · intro u hu j hj table howns
    cases howns with
    | table => exact (htables j hj).within (ensuring_within (.forM _ hlinks) w')
    | @links rs r hrs hr =>
        rw [← Models.relations_owner hrs hr]
        exact forM_ensuring (R := fun j cache => ∀ rs, ms.relations j = .ok rs → ∀ r ∈ rs,
            cache.Knows (ms.linkTable r) (ms.model r.owner).origin)
          (fun _ _ _ hlater hknows rs hrs r hr => (hknows rs hrs r hr).within hlater) _ hlinks
          (fun j hj w => ensureOwnLinks_leads (hlisted j hj) w) w' u hu j hj rs hrs r hr

/-! ## The phases of an operation -/

/-- The closure of a model that was introspected is the model itself with its dependencies. -/
theorem mem_listed {dependencies : List (Fin n)} (hident : Set.InjOn ms.identity (ms.closure k))
    (h : ms.dependencies k = .ok dependencies) {j : Fin n} (hj : j ∈ ms.closure k) :
    j ∈ dependencies ++ [k] := by
  obtain ⟨ts, found, hts, hfound, hperm⟩ := Models.dependencies_ok h
  by_cases hne : j = k
  · exact List.mem_append_right _ (List.mem_singleton.2 hne)
  · refine List.mem_append_left _ (hperm.mem_iff.2 ?_)
    exact (hfound.mem_iff hident hts j).2 ⟨hj.resolve_left hne, hne⟩

/-- A prepared operation ensures tables first and works on rows afterwards, so its first part obeys
what the jobs of the one kind obey, its second part what those of the other kind obey, and where the
second part makes a call, the cache knows every table of the closure when it begins. -/
theorem prepared_phases {L M : Option MapperError → World σ → List Entry → World σ → Prop}
    {operation : Operation} {r : Record c} {work : Bound c r.model → Staged d (Record c) Unit}
    (hL : RunLaw L) (hM : RunLaw M)
    (hensuring : ∀ job : Job, job.Within c r.model .ensuring → (job.task d).Obeys L)
    (hrows : ∀ job : Job, job.Within c r.model .onRows → (job.task d).Obeys M)
    (hident : Set.InjOn c.identity (c.closure r.model))
    (hwork : ∀ b, (work b).Composed (Job.Within c r.model .onRows) r) (w : World σ) :
    ∃ failure schema w' failure' data w'',
      ((prepared operation r work).run w).journal = schema ++ data ∧ L failure w schema w' ∧
        M failure' w' data w'' ∧ ((∃ call answer, .call call answer ∈ data) →
          ∀ j ∈ c.closure r.model, w'.cache.Covers c j) := by
  have hnone : ∀ {P : Prop}, (∃ call answer, Entry.call call answer ∈ ([] : List Entry)) → P :=
    fun ⟨_, _, hcall⟩ => nomatch hcall
  have hensured {deps : List (Fin n)} (hdeps : c.dependencies r.model = .ok deps) :=
    (ensureSchema_composed (d := d) (Models.dependencies_mem_closure hdeps) (.inl rfl)).law hL
      hensuring w
  have hrun := prepared_run (d := d) operation r work w
  generalize (prepared operation r work).run w = outcome at hrun
  cases hrun with
  | refused =>
      -- A record that is refused leads to reports only, all of which count to the first part.
      exact ⟨none, _, w, none, [], w, (List.append_nil _).symm, hL.quiet none w _,
        hM.quiet none w [], hnone⟩
  | @unensured deps e w' journal hdeps hensure =>
      -- Tables that were not all ensured: there is no second part.
      have hensured := hensured hdeps
      rw [hensure] at hensured
      exact ⟨some e, _, w', none, [], w', (List.append_nil _).symm,
        hL.lead _ (hL.close hensured _), hM.quiet none w' [], hnone⟩
  | @worked b deps w' journal left hbind hdeps hensure hleft =>
      have hensured := hensured hdeps
      have hcovers := ensureSchema_covers (d := d) (Models.dependencies_mem_closure hdeps) w ()
        (by rw [hensure])
      rw [hensure] at hensured hcovers
      let p : Progress (Record c) := ⟨operation, (c.model r.model).name, .executing, r⟩
      have hdata := (hwork b p rfl).law hM hrows w'
      obtain ⟨events, hclosing⟩ :=
        Staged.closing_reports operation (c.model r.model).name left.value
      subst hleft
      -- The second part begins with the report that the operation is executed.
      refine ⟨none, _, w', _, _, _, (List.append_assoc ..).symm, hL.lead _ hensured,
        hM.lead _ (hclosing ▸ hM.close hdata events), fun _ j hj => ?_⟩
      exact hcovers j (mem_listed hident hdeps hj)

/-- Inserting, updating and querying are prepared operations whose further work is on rows. -/
theorem prepared_of_mem {r : Record c} {operation : Action d (Attempt (Record c) Unit)}
    (h : operation ∈ [insert r, update r, query r]) :
    ∃ name work, operation = prepared name r work ∧
      ∀ b, (work b).Composed (Job.Within c r.model .onRows) r := by
  simp only [List.mem_cons, List.not_mem_nil, or_false] at h
  rcases h with rfl | rfl | rfl
  · exact ⟨_, _, insert_eq r, fun _ => .attempt (insertRecord_composed r)⟩
  · refine ⟨_, _, update_eq r, fun _ => .task (updateHeld_composed _ fun j hj => ?_)⟩
    exact .inl (Option.some.inj hj).symm
  · exact ⟨_, _, query_eq r, load_composed r⟩

/-- The calls of an insertion, an update or a query, whether it succeeds or not, are first looks for
tables of the closure and statements that create them, and then statements on the rows and links of
models of the closure and work on cursors. When the second part begins, the cache holds every table
that a statement of it names, for the type of the model that owns the table. -/
theorem schema_before_rows (r : Record c) (hident : Set.InjOn c.identity (c.closure r.model))
    (w : World σ) : ∀ operation ∈ [insert (d := d) r, update r, query r],
      ∃ schema data, (operation.run w).journal = schema ++ data ∧
        (∀ call answer, .call call answer ∈ schema →
          call.Suits .ensuring ∧ ∃ j ∈ c.closure r.model, call.Serves c j) ∧
        ∀ call answer, .call call answer ∈ data → call.Suits .onRows ∧
          ∀ s, call.statement? = some s → (∃ j ∈ c.closure r.model, c.Uses j s) ∧
            ∃ held, (cacheAfter w.cache schema).fetch s.table = some held ∧
              ∀ j ∈ c.closure r.model, c.Owns j s.table → held.origin = (c.model j).origin := by
  intro operation h
  obtain ⟨name, work, rfl, hwork⟩ := prepared_of_mem h
  obtain ⟨-, schema, w', -, data, -, hjournal, ⟨hschema, hrecounts⟩, hdata, hcovers⟩ :=
    prepared_phases ((Calls.runLaw _).and Recounts.runLaw) (Calls.runLaw _)
      (fun job hjob w => ⟨fun call answer hcall => hjob.calls hcall, job.recounts w⟩)
      (fun job hjob w call answer hcall => hjob.calls hcall) hident hwork w
  refine ⟨schema, data, hjournal, hschema, fun call answer hcall => ?_⟩
  obtain ⟨hsuits, j, hj, hserves⟩ := hdata call answer hcall
  have hcovers := hcovers ⟨call, answer, hcall⟩
  -- The journal of the first part tells the cache that the second part finds.
  rw [hrecounts.cache_eq] at hcovers
  refine ⟨hsuits, fun s hs => ?_⟩
  have huses : c.Uses j s := hserves.uses hsuits hs
  obtain ⟨held, hheld, -⟩ := hcovers j hj s.table huses.owns
  refine ⟨⟨j, hj, huses⟩, held, hheld, fun i hi howns => ?_⟩
  obtain ⟨held', hheld', horigin⟩ := hcovers i hi s.table howns
  obtain rfl := Option.some.inj (hheld.symm.trans hheld')
  exact horigin

/-- The insertion of a branch into a database that has the tables looks for each of them, inserts
the rows and links, and is covered. -/
theorem branch_schema_before_rows :
    ∃ schema data, ((insert (d := numbering) (branch 0 0 (by decide) (by decide)).record).run
        ⟨0, .empty⟩).journal = schema ++ data ∧
      (∀ call answer, .call call answer ∈ schema →
        call.Suits .ensuring ∧ ∃ j ∈ forest.closure 0, call.Serves forest j) ∧
      ∀ call answer, .call call answer ∈ data → call.Suits .onRows ∧
        ∀ s, call.statement? = some s → (∃ j ∈ forest.closure 0, forest.Uses j s) ∧
          ∃ held, (cacheAfter .empty schema).fetch s.table = some held ∧
            ∀ j ∈ forest.closure 0, forest.Owns j s.table → held.origin = (forest.model j).origin :=
  schema_before_rows (branch 0 0 (by decide) (by decide)).record
    (fun _ _ _ _ _ => Subsingleton.elim _ _) ⟨0, .empty⟩ _ (.head _)

end Session

end EntityMapper
