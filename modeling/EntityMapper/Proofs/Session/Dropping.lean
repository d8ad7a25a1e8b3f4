import EntityMapper.Proofs.Session.Soundness

/-!
# Dropping the tables of a closure

A run of drops over some tables makes one statement for each of them that the cache knows, and
forgets it (`Drops`); runs over two sets of tables in a row are a run over both (`Drops.append`).
A drop that succeeds is such a run over the tables of the models of the closure, and then over the
tables of their links (`drop_leads`), so that a second drop finds nothing to do.

On a recorded database every table goes by the name of some witness (`World.Named`). Creating puts
in witnesses of the closure only, so creating and then dropping leaves no witness and no table
(`drop_exact`).
-/

namespace EntityMapper

open Sql

variable {n : Nat} {σ γ : Type} {d : Driver σ} {ms : Models n} {k : Fin n}

namespace Models

variable (ms)

/-- The tables of some models. -/
def rowTables (js : List (Fin n)) : Set String := {table | ∃ j ∈ js, table = (ms.model j).table}

/-- The tables that hold the links of the relations that a model declares. -/
def ownLinkTables (j : Fin n) : Set String :=
  {table | ∃ rs, ms.relations j = .ok rs ∧ ∃ r ∈ rs, table = ms.linkTable r}

/-- The tables that hold the links of the relations that some models declare. -/
def linkTables (js : List (Fin n)) : Set String := {table | ∃ j ∈ js, table ∈ ms.ownLinkTables j}

variable {ms}

/-- The tables that some models own are their own and those of their links. -/
theorem owns_iff {js : List (Fin n)} {table : String} :
    (∃ j ∈ js, ms.Owns j table) ↔ table ∈ ms.rowTables js ∪ ms.linkTables js := by
  constructor
  · rintro ⟨j, hj, howns⟩
    cases howns with
    | table => exact .inl ⟨j, hj, rfl⟩
    | links hrs hr => exact .inr ⟨j, hj, _, hrs, _, hr, rfl⟩
  · rintro (⟨j, hj, rfl⟩ | ⟨j, hj, rs, hrs, r, hr, rfl⟩)
    · exact ⟨j, hj, .table⟩
    · exact ⟨j, hj, .links hrs hr⟩

end Models

/-- The call that drops a table. -/
def Made.drop (table : String) : Made := ⟨.execute (.dropTable table), .ok ()⟩

/-! ## Runs of drops -/

/-- Whether a run drops, once each, those of some tables that the cache knows, makes no other call,
forgets all of these tables and keeps every other witness. -/
structure Drops (tables : Set String) (w : World σ) (dropped : List String) (journal : List Entry)
    (w' : World σ) : Prop where
  calls : journal.filterMap Entry.made? = dropped.map Made.drop
  nodup : dropped.Nodup
  mem_iff : ∀ table, table ∈ dropped ↔ table ∈ tables ∧ (w.cache.fetch table).isSome
  forgotten : ∀ table ∈ tables, w'.cache.fetch table = none
  kept : ∀ table ∉ tables, w'.cache.fetch table = w.cache.fetch table

namespace Drops

variable {tables more : Set String} {w w' w'' : World σ} {dropped later : List String}
  {journal journal' : List Entry}

/-- Nothing is dropped where there is nothing to drop. -/
theorem nil (w : World σ) : Drops ∅ w [] [] w where
  calls := rfl
  nodup := .nil
  mem_iff table := by simp
  forgotten _ h := absurd h (Set.notMem_empty _)
  kept _ _ := rfl

/-- The second of two runs drops tables that were known at the start, and none that the first run
was about: these are unknown by then. -/
theorem mem_later_iff (h : Drops tables w dropped journal w')
    (hmore : Drops more w' later journal' w'') (table : String) :
    table ∈ later ↔ table ∈ more \ tables ∧ (w.cache.fetch table).isSome := by
  rw [hmore.mem_iff, Set.mem_sdiff]
  by_cases htable : table ∈ tables
  · simp [h.forgotten table htable, htable]
  · simp [h.kept table htable, htable]

/-- A run of drops over some tables, and then one over more of them. -/
theorem append (h : Drops tables w dropped journal w') (hmore : Drops more w' later journal' w'') :
    Drops (tables ∪ more) w (dropped ++ later) (journal ++ journal') w'' := by
  refine ⟨?_, List.nodup_append'.2 ⟨h.nodup, hmore.nodup, ?_⟩, fun table => ?_, ?_, ?_⟩
  · rw [List.filterMap_append, h.calls, hmore.calls, List.map_append]
  · intro table hdropped htwice
    exact ((h.mem_later_iff hmore table).1 htwice).1.2 ((h.mem_iff table).1 hdropped).1
  · rw [List.mem_append, h.mem_iff, h.mem_later_iff hmore, Set.mem_union, Set.mem_sdiff]
    tauto
  · intro table htable
    by_cases hin : table ∈ more
    · exact hmore.forgotten table hin
    · rw [hmore.kept table hin, h.forgotten table (htable.resolve_right hin)]
  · intro table htable
    obtain ⟨hout, hin⟩ := not_or.1 htable
    rw [hmore.kept table hin, h.kept table hout]

end Drops

namespace Session

variable {w : World σ}

/-- Dropping a table that may be known. -/
theorem dropKnown_leads (table : String) {origin : String} {dropping : Event} (w : World σ) :
    (dropKnown table origin dropping (.dropTable table) : Task d Unit).Leads w fun _ w' journal =>
      ∃ dropped, Drops {table} w dropped journal w' := by
  intro u hu
  have hrun := dropKnown_run (d := d) table origin dropping (.dropTable table) w
  generalize (dropKnown table origin dropping (.dropTable table) : Task d Unit).exec w = outcome
    at hu hrun ⊢
  cases hrun with
  | foreign | undropped => cases hu
  | unknown hfree =>
      refine ⟨[], rfl, .nil, fun other => ?_, fun other hother => ?_, fun _ _ => rfl⟩
      · simp only [List.not_mem_nil, Set.mem_singleton_iff, false_iff, not_and]
        rintro rfl
        simp [hfree]
      · rw [hother]
        exact hfree
  | dropped hheld horigin hdrop =>
      refine ⟨[table], rfl, List.nodup_singleton table, fun other => ?_, fun other hother => ?_,
        fun other hother => ?_⟩
      · rw [List.mem_singleton, Set.mem_singleton_iff, iff_self_and]
        rintro rfl
        simp [hheld]
      · rw [SchemaCache.fetch_remove, if_pos (Set.mem_singleton_iff.1 hother)]
      · rw [SchemaCache.fetch_remove, if_neg (Set.mem_singleton_iff.not.1 hother)]

/-- Runs of drops, one for each item of a list. -/
theorem forM_drops {g : γ → Task d Unit} {tables : γ → Set String} : (xs : List γ) →
    (∀ x ∈ xs, ∀ w, (g x).Leads w fun _ w' journal =>
      ∃ dropped, Drops (tables x) w dropped journal w') → ∀ w,
    (xs.forM g).Leads w fun _ w' journal =>
      ∃ dropped, Drops {table | ∃ x ∈ xs, table ∈ tables x} w dropped journal w'
  | [], _, w => .pure ⟨[], by simpa using Drops.nil w⟩
  | x :: xs, h, w => by
      show (g x >>= fun _ => xs.forM g).Leads w _
      refine .bind _ (h x List.mem_cons_self w) fun _ w' journal ⟨dropped, hfirst⟩ => ?_
      intro u hu
      obtain ⟨later, hrest⟩ := forM_drops xs (fun y hy => h y (List.mem_cons_of_mem _ hy)) w' u hu
      have htables : {table | ∃ y ∈ x :: xs, table ∈ tables y} =
          tables x ∪ {table | ∃ y ∈ xs, table ∈ tables y} := by
        ext table
        simp
      exact ⟨dropped ++ later, htables ▸ hfirst.append hrest⟩

/-- Dropping the tables of a model's links. -/
theorem dropOwnLinks_leads (j : Fin n) (w : World σ) :
    (do (← Task.ofExcept (ms.relations j)).forM (dropLinks ms) : Task d Unit).Leads w
      fun _ w' journal => ∃ dropped, Drops (ms.ownLinkTables j) w dropped journal w' := by
  refine .bind (fun rs w' journal => ms.relations j = .ok rs ∧ w' = w ∧ journal = [])
    (.ofExcept fun rs hrs => ⟨hrs, rfl, rfl⟩) ?_
  rintro rs _ _ ⟨hrs, rfl, rfl⟩ u hu
  obtain ⟨dropped, hdrops⟩ := forM_drops (g := dropLinks ms) rs
    (fun r _ w => dropKnown_leads (ms.linkTable r) w) _ u hu
  have htables : {table | ∃ r ∈ rs, table ∈ ({ms.linkTable r} : Set String)} =
      ms.ownLinkTables j := by
    ext table
    simp [Models.ownLinkTables, hrs]
  exact ⟨dropped, htables ▸ hdrops⟩

/-- Dropping the tables of some models and their links: first the ones, then the others. -/
theorem dropSchema_leads (k : Fin n) (deps : List (Fin n)) (w : World σ) :
    (dropSchema ms k deps : Task d Unit).Leads w fun _ w' journal =>
      ∃ w₁ entities links before after, journal = before ++ after ∧
        Drops (ms.rowTables (k :: deps)) w entities before w₁ ∧
          Drops (ms.linkTables (k :: deps)) w₁ links after w' := by
  refine .bind _ (forM_drops (g := dropTable ms) (k :: deps)
    (fun j _ w => dropKnown_leads (ms.model j).table w) w) ?_
  rintro _ w₁ before ⟨entities, hentities⟩ u hu
  obtain ⟨links, hlinks⟩ := forM_drops (k :: deps) (fun j _ w => dropOwnLinks_leads j w) w₁ u hu
  exact ⟨w₁, entities, links, before, _, rfl, hentities, hlinks⟩

/-- Nothing is dropped of models where the cache knows none of their tables. -/
theorem dropSchema_idle {deps : List (Fin n)} (hdeps : ms.dependencies k = .ok deps)
    (hfree : ∀ table ∈ ms.rowTables (k :: deps) ∪ ms.linkTables (k :: deps),
      w.cache.fetch table = none) :
    (dropSchema ms k deps : Task d Unit).exec w = ⟨.ok (), w, []⟩ := by
  have hidle : ∀ {table origin : String} {dropping : Event} {s : Statement},
      w.cache.fetch table = none →
        (dropKnown table origin dropping s : Task d Unit).exec w = ⟨.ok (), w, []⟩ := by
    intro table origin dropping s h
    rw [dropKnown, Task.exec_bind, Task.exec_check, SchemaCache.check_free h]
    rfl
  have hrows : ((k :: deps).forM (dropTable (d := d) ms)).exec w = ⟨.ok (), w, []⟩ :=
    Task.exec_forM_idle fun j hj => hidle (hfree _ (.inl ⟨j, hj, rfl⟩))
  have hlinks : ((k :: deps).forM fun j => do
      (← Task.ofExcept (ms.relations j)).forM (dropLinks (d := d) ms)).exec w
        = ⟨.ok (), w, []⟩ := by
    refine Task.exec_forM_idle fun j hj => ?_
    obtain ⟨rs, hrs⟩ := Models.dependencies_relations hdeps j hj
    rw [hrs]
    exact Task.exec_forM_idle fun r hr => hidle (hfree _ (.inr ⟨j, hj, rs, hrs, r, hr, rfl⟩))
  rw [dropSchema, Task.exec_bind, hrows]
  simp only [hlinks, List.append_nil]

/-! ## Operations on tables -/

/-- Creating or dropping comes to what it does with the dependencies of the model, and reports. -/
theorem onSchema_exec (operation : Operation) (stage : Stage) (work : List (Fin n) → Task d Unit)
    {deps : List (Fin n)} (hdeps : ms.dependencies k = .ok deps) (w : World σ) :
    ∃ before after, Task.exec (d := d) (ExceptT.mk do
      let left ← Staged.operate operation (ms.model k).name () do
        let dependencies ← Staged.ofExcept (ms.dependencies k)
        Staged.advance stage
        Staged.task (work dependencies)
      return left.result) w =
        { value := ((work deps).exec w).value
          world := ((work deps).exec w).world
          journal := reports before ++ (((work deps).exec w).journal ++ reports after) } := by
  obtain ⟨after, hafter⟩ := Staged.closing_reports operation (ms.model k).name
    (((work deps).exec w).value, (⟨operation, (ms.model k).name, stage, ()⟩ : Progress Unit))
  refine ⟨[.began operation (ms.model k).name,
    .advanced operation (ms.model k).name .introspecting stage], after, ?_⟩
  show (Staged.operate operation _ () _ >>= fun left => pure left.result : Action d _).run w = _
  rw [Action.run_bind, Staged.run_operate]
  simp only [Staged.exec_bind, Staged.exec_ofExcept, hdeps, Staged.exec_advance, Staged.exec_task,
    Action.run_pure, hafter, List.append_nil, List.nil_append]
  rfl

/-- Creating or dropping does nothing but report where the model cannot be introspected. -/
theorem onSchema_refused (operation : Operation) (stage : Stage)
    (work : List (Fin n) → Task d Unit) {e : MapperError} (hdeps : ms.dependencies k = .error e)
    (w : World σ) :
    ∃ events, Task.exec (d := d) (ExceptT.mk do
      let left ← Staged.operate operation (ms.model k).name () do
        let dependencies ← Staged.ofExcept (ms.dependencies k)
        Staged.advance stage
        Staged.task (work dependencies)
      return left.result) w = ⟨.error e, w, reports events⟩ := by
  refine ⟨[.began operation (ms.model k).name, .failed operation (ms.model k).name .introspecting e,
    .advanced operation (ms.model k).name .introspecting .failed], ?_⟩
  show (Staged.operate operation _ () _ >>= fun left => pure left.result : Action d _).run w = _
  rw [Action.run_bind, Staged.run_operate]
  simp only [Staged.exec_bind, Staged.exec_ofExcept, hdeps, Action.run_pure]
  rfl

/-- Creating tables comes to what it does with the dependencies of the model. -/
theorem create_outcome {deps : List (Fin n)} (hdeps : ms.dependencies k = .ok deps) (w : World σ) :
    ((create ms k : Task d Unit).exec w).value
        = ((ensureSchema ms k deps : Task d Unit).exec w).value ∧
      ((create ms k : Task d Unit).exec w).world
        = ((ensureSchema ms k deps : Task d Unit).exec w).world := by
  obtain ⟨_, _, hexec⟩ := onSchema_exec .create .schemaEnsuring (ensureSchema (d := d) ms k) hdeps w
  rw [create, hexec]
  exact ⟨rfl, rfl⟩

/-- Dropping tables answers what it does with the dependencies of the model. -/
theorem drop_outcome {deps : List (Fin n)} (hdeps : ms.dependencies k = .ok deps) (w : World σ) :
    ((drop ms k : Task d Unit).exec w).value
      = ((dropSchema ms k deps : Task d Unit).exec w).value := by
  obtain ⟨_, _, hexec⟩ := onSchema_exec .drop .executing (dropSchema (d := d) ms k) hdeps w
  rw [drop, hexec]

/-- A drop that succeeds is a run of drops over the tables of the closure: those of its models
first, and then those of their links. -/
theorem drop_leads {deps : List (Fin n)} (hdeps : ms.dependencies k = .ok deps) (w : World σ) :
    (drop ms k : Task d Unit).Leads w fun _ w' journal => ∃ entities links,
      Drops (ms.rowTables (k :: deps) ∪ ms.linkTables (k :: deps)) w (entities ++ links) journal
          w' ∧
        (∀ table ∈ entities, table ∈ ms.rowTables (k :: deps)) ∧
        ∀ table ∈ links, table ∉ ms.rowTables (k :: deps) := by
  intro u hu
  obtain ⟨before, after, hexec⟩ := onSchema_exec .drop .executing (dropSchema (d := d) ms k) hdeps w
  rw [drop, hexec] at hu ⊢
  obtain ⟨w₁, entities, links, first, second, hjournal, hentities, hlinks⟩ :=
    dropSchema_leads k deps w u hu
  refine ⟨entities, links, ?_, fun table h => ((hentities.mem_iff table).1 h).1,
    fun table h => ((hentities.mem_later_iff hlinks table).1 h).1.2⟩
  have hboth := hentities.append hlinks
  refine ⟨?_, hboth.nodup, hboth.mem_iff, hboth.forgotten, hboth.kept⟩
  simp only [hjournal, List.filterMap_append, made_reports, ← hboth.calls, List.nil_append,
    List.append_nil]

/-- A drop does nothing but report where the cache knows no table of the closure. -/
theorem drop_idle {deps : List (Fin n)} (hdeps : ms.dependencies k = .ok deps)
    (hfree : ∀ table ∈ ms.rowTables (k :: deps) ∪ ms.linkTables (k :: deps),
      w.cache.fetch table = none) :
    ∃ events, (drop ms k : Task d Unit).exec w = ⟨.ok (), w, reports events⟩ := by
  obtain ⟨before, after, hexec⟩ := onSchema_exec .drop .executing (dropSchema (d := d) ms k) hdeps w
  refine ⟨before ++ after, ?_⟩
  rw [drop, hexec, dropSchema_idle hdeps hfree]
  simp only [reports, List.map_append, List.nil_append]

end Session

/-! ## Creating and dropping on a recorded database -/

/-- Whether every table of the database goes by the name of some witness. -/
def World.Named (w : World Recorded) : Prop :=
  ∀ table ∈ w.driver.tables, ∃ key, (w.cache.fetch key).isSome ∧ readName key = table

/-- That every table has a witness stays so along the runs that keep it is a law of runs. -/
theorem World.namedLaw : RunLaw fun _ (w : World Recorded) _ w' => w.Named → w'.Named :=
  .blind (fun _ _ hw => hw) fun h hlater hw => hlater (h hw)

/-- That the witnesses of all other tables stay as they are is a law of runs. -/
theorem keptLaw (tables : Set String) : RunLaw fun _ (w : World σ) _ w' =>
    ∀ table ∉ tables, w'.cache.fetch table = w.cache.fetch table :=
  .blind (fun _ _ _ _ => rfl) fun h hlater table htable =>
    (hlater table htable).trans (h table htable)

namespace Session

/-- Ensuring a table puts in a witness for no other table. -/
theorem ensure_kept {witness : Witness} {creating : Event}
    {definition : Except MapperError Statement} (w : World σ) {table : String}
    (htable : table ≠ witness.table) :
    ((ensure witness creating definition : Task d Unit).exec w).world.cache.fetch table =
      w.cache.fetch table := by
  have hrun := ensure_run (d := d) witness creating definition w
  generalize (ensure witness creating definition : Task d Unit).exec w = outcome at hrun ⊢
  cases hrun with
  | known | foreign | unchecked | undefined | uncreated => rfl
  | found | created => rw [SchemaCache.fetch_put, if_neg htable]

variable {w : World Recorded}

/-- The witness of a new table goes by its name, and the witnesses of the old ones stay. -/
theorem ensure_named {witness : Witness} {creating : Event}
    {definition : Except MapperError Statement}
    (hdefinition : ∀ s, definition = .ok s → s.IsCreation ∧ s.table = witness.table)
    (hw : w.Named) :
    ((ensure (d := Recorded.driver) witness creating definition).exec w).world.Named := by
  have hrun := ensure_run (d := Recorded.driver) witness creating definition w
  have hput : ∀ table ∈ w.driver.tables,
      ∃ key, ((w.cache.put witness).fetch key).isSome ∧ readName key = table := by
    intro table htable
    obtain ⟨key, hkey, hname⟩ := hw table htable
    refine ⟨key, ?_, hname⟩
    rw [SchemaCache.fetch_put]
    split
    · rfl
    · exact hkey
  generalize (ensure (d := Recorded.driver) witness creating definition).exec w = outcome at hrun ⊢
  cases hrun with
  | known | foreign => exact hw
  | unchecked _ hstep | undefined _ hstep =>
      exact fun table h => hw table (Recorded.step_look hstep ▸ h)
  | found _ hstep => exact fun table h => hput table (Recorded.step_look hstep ▸ h)
  | uncreated _ hstep _ hcreate =>
      exact fun table h => hw table (Recorded.step_look hstep ▸ Recorded.step_failed hcreate ▸ h)
  | created _ hstep hs hcreate =>
      obtain ⟨hcreation, htable⟩ := hdefinition _ hs
      intro table h
      have htables := Recorded.step_created hcreation hcreate
      rw [htable, Recorded.step_look hstep] at htables
      rw [htables] at h
      split at h
      · exact hput table h
      · rcases List.mem_cons.1 h with rfl | h
        · exact ⟨witness.table, by rw [SchemaCache.fetch_put, if_pos rfl]; rfl, rfl⟩
        · exact hput table h

/-- The witness of a table that is dropped goes, and with it all tables that go by its name. -/
theorem dropKnown_named {table origin : String} {dropping : Event} (hw : w.Named) :
    ((dropKnown (d := Recorded.driver) table origin dropping (.dropTable table)).exec
      w).world.Named := by
  have hrun := dropKnown_run (d := Recorded.driver) table origin dropping (.dropTable table) w
  generalize (dropKnown (d := Recorded.driver) table origin dropping (.dropTable table)).exec w =
    outcome at hrun ⊢
  cases hrun with
  | unknown | foreign => exact hw
  | undropped _ _ hdrop => exact fun table h => hw table (Recorded.step_failed hdrop ▸ h)
  | dropped _ _ hdrop =>
      intro other h
      rw [Recorded.step_dropped hdrop] at h
      obtain ⟨hother, hne⟩ := List.mem_filter.1 h
      obtain ⟨key, hkey, hname⟩ := hw other hother
      refine ⟨key, ?_, hname⟩
      rw [SchemaCache.fetch_remove, if_neg]
      · exact hkey
      · rintro rfl
        exact of_decide_eq_true hne hname.symm

end Session

/-- A job that ensures or drops a table of a model keeps every table named. -/
theorem Job.named {job : Job} {j : Fin n} (hserves : job.Serves ms j) (hkind : job.kind ≠ .onRows)
    {w : World Recorded} (hw : w.Named) : ((job.task Recorded.driver).exec w).world.Named := by
  cases job with
  | ensure witness creating definition => exact Session.ensure_named hserves.2.2 hw
  | drop table origin dropping statement =>
      obtain ⟨-, -, rfl⟩ := hserves
      exact Session.dropKnown_named hw
  | insert | update | delete | fetchRow | fetchColumn => exact absurd rfl hkind

namespace Session

/-- Creating is made of jobs that ensure tables of the closure. -/
theorem create_serves {deps : List (Fin n)} (hdeps : ms.dependencies k = .ok deps) :
    (create ms k : Task d Unit).Composed fun job =>
      job.kind = .ensuring ∧ ∃ j ∈ k :: deps, job.Serves ms j := by
  refine onSchema_composed fun listed hlisted => ?_
  cases hlisted.symm.trans hdeps
  have hmem : ∀ j ∈ deps ++ [k], j ∈ k :: deps := fun j hj => by
    rcases List.mem_append.1 hj with hj | hj
    · exact List.mem_cons_of_mem _ hj
    · exact List.mem_cons.2 (.inl (List.mem_singleton.1 hj))
  refine .bind (.forM _ fun j hj => ?_) fun _ _ _ => .forM _ fun j hj =>
    .ofExcept_bind fun rs hrs => .forM _ fun r hr => ?_
  · exact .job (.ensure _ _ _) ⟨rfl, j, hmem j hj, .table, rfl, fun _ => createTable_creation⟩
  · refine .job (.ensure _ _ _) ⟨rfl, j, hmem j hj, .links hrs hr, ?_, ?_⟩
    · rw [← Models.relations_owner hrs hr]
      rfl
    · rintro s ⟨⟩
      exact ⟨trivial, rfl⟩

/-- Creating leaves the witnesses of tables outside the closure as they are. -/
theorem create_kept {deps : List (Fin n)} (hdeps : ms.dependencies k = .ok deps) (w : World σ) :
    ∀ table ∉ ms.rowTables (k :: deps) ∪ ms.linkTables (k :: deps),
      ((create ms k : Task d Unit).exec w).world.cache.fetch table = w.cache.fetch table := by
  refine (create_serves hdeps).law (keptLaw _) (fun job hjob w table htable => ?_) w
  obtain ⟨hkind, j, hj, hserves⟩ := hjob
  cases job with
  | ensure witness creating definition =>
      refine ensure_kept w ?_
      rintro rfl
      exact htable (Models.owns_iff.1 ⟨j, hj, hserves.1⟩)
  | drop | insert | update | delete | fetchRow | fetchColumn => cases hkind

/-- Creating and dropping keep every table named. -/
theorem create_named {deps : List (Fin n)} (hdeps : ms.dependencies k = .ok deps)
    {w : World Recorded} (hw : w.Named) :
    ((create ms k : Task Recorded.driver Unit).exec w).world.Named := by
  refine (create_serves hdeps).law World.namedLaw (fun job hjob w hw => ?_) w hw
  obtain ⟨hkind, j, -, hserves⟩ := hjob
  exact job.named hserves (by rw [hkind]; decide) hw

theorem drop_named {w : World Recorded} (hw : w.Named) :
    ((drop ms k : Task Recorded.driver Unit).exec w).world.Named := by
  refine (drop_composed fun _ h => h).law World.namedLaw (fun job hjob w hw => ?_) w hw
  obtain ⟨hkind, j, -, hserves⟩ := hjob
  exact job.named hserves (by rw [hkind]; decide) hw

end Session

/-- A cache that knows no table is empty. -/
theorem SchemaCache.eq_empty {cache : SchemaCache} (h : ∀ table, cache.fetch table = none) :
    cache = .empty := by
  obtain ⟨entries, hnodup⟩ := cache
  cases entries with
  | nil => rfl
  | cons entry entries =>
      have hfirst := h entry.1
      rw [fetch, KeyMap.get?, lookupEntry, if_pos rfl] at hfirst
      cases hfirst

namespace Session

/-- A drop that succeeds executes one statement for each table of the closure that the cache knows,
those of the models before those of the links, and calls the driver for nothing else. It forgets
the tables of the closure and keeps every other witness, so the next drop makes no call at all.

On a recorded database without tables, under a cache that knows none, creating and then dropping
leaves neither a witness nor a table, also where names hold backquotes. -/
theorem drop_exact {deps : List (Fin n)} (hdeps : ms.dependencies k = .ok deps) :
    (∀ {σ : Type} (d : Driver σ) (w : World σ),
      let left := (drop ms k : Task d Unit).exec w
      left.value = .ok () →
        (∃ entities links,
          Drops (ms.rowTables (k :: deps) ∪ ms.linkTables (k :: deps)) w (entities ++ links)
            left.journal left.world ∧
          (∀ table ∈ entities, table ∈ ms.rowTables (k :: deps)) ∧
          ∀ table ∈ links, table ∉ ms.rowTables (k :: deps)) ∧
        ∃ events,
          (drop ms k : Task d Unit).exec left.world = ⟨.ok (), left.world, reports events⟩) ∧
    ∀ s : Recorded, s.tables = [] →
      let made := (create ms k : Task Recorded.driver Unit).exec ⟨s, .empty⟩
      let left := (drop ms k : Task Recorded.driver Unit).exec made.world
      made.value = .ok () → left.value = .ok () →
        left.world.cache = .empty ∧ left.world.driver.tables = [] := by
  constructor
  · intro σ d w left hleft
    obtain ⟨entities, links, hdrops, hparts⟩ := drop_leads hdeps w () hleft
    exact ⟨⟨entities, links, hdrops, hparts⟩, drop_idle hdeps hdrops.forgotten⟩
  · intro s hs made left _ hleft
    obtain ⟨entities, links, hdrops, -⟩ := drop_leads hdeps made.world () hleft
    have hfree : ∀ table, left.world.cache.fetch table = none := by
      intro table
      by_cases htable : table ∈ ms.rowTables (k :: deps) ∪ ms.linkTables (k :: deps)
      · exact hdrops.forgotten table htable
      · exact (hdrops.kept table htable).trans (create_kept hdeps _ table htable)
    have hnamed : left.world.Named :=
      drop_named (create_named hdeps fun table h => absurd (hs ▸ h) List.not_mem_nil)
    refine ⟨SchemaCache.eq_empty hfree, List.eq_nil_iff_forall_not_mem.2 fun table htable => ?_⟩
    obtain ⟨key, hkey, -⟩ := hnamed table htable
    rw [hfree key] at hkey
    cases hkey

/-- A tree has a table for its nodes and two for their links. They come and go. -/
theorem drop_tree :
    Models.tree.dependencies 0 = .ok [] ∧
      let made := (create .tree 0 : Task Recorded.driver Unit).exec ⟨.fresh, .empty⟩
      let left := (drop .tree 0 : Task Recorded.driver Unit).exec made.world
      made.value = .ok () ∧ made.world.driver.tables.length = 3 ∧ left.value = .ok () ∧
        left.world.cache = .empty ∧ left.world.driver.tables = [] ∧
        ∃ events, (drop .tree 0 : Task Recorded.driver Unit).exec left.world =
          ⟨.ok (), left.world, reports events⟩ := by
  have hok : ∀ {result : Except MapperError Unit}, result.isOk = true → result = .ok () := by
    intro result h
    cases result with
    | ok u => rfl
    | error e => cases h
  have hdeps := Models.tree_dependencies
  have hmade := create_outcome (d := Recorded.driver) hdeps ⟨.fresh, .empty⟩
  have hleft := drop_outcome (d := Recorded.driver) hdeps
    ((create .tree 0 : Task Recorded.driver Unit).exec ⟨.fresh, .empty⟩).world
  rw [hmade.2] at hleft
  obtain ⟨hmadeOk, hlength, hleftOk⟩ :
      ((ensureSchema (d := Recorded.driver) .tree 0 []).exec ⟨.fresh, .empty⟩).value.isOk = true ∧
      ((ensureSchema (d := Recorded.driver) .tree 0 []).exec
        ⟨.fresh, .empty⟩).world.driver.tables.length = 3 ∧
      ((dropSchema (d := Recorded.driver) .tree 0 []).exec
        ((ensureSchema (d := Recorded.driver) .tree 0 []).exec
          ⟨.fresh, .empty⟩).world).value.isOk = true := by
    decide +kernel
  rw [← hmade.1] at hmadeOk
  rw [← hmade.2] at hlength
  rw [← hleft, ← hmade.2] at hleftOk
  obtain ⟨hcalls, hrecorded⟩ := drop_exact hdeps
  obtain ⟨hcache, hnone⟩ := hrecorded .fresh rfl (hok hmadeOk) (hok hleftOk)
  exact ⟨hdeps, hok hmadeOk, hlength, hok hleftOk, hcache, hnone,
    (hcalls Recorded.driver _ (hok hleftOk)).2⟩

end Session

end EntityMapper
