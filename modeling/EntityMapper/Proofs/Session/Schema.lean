import EntityMapper.Proofs.Session.Steps
import EntityMapper.Session.Schema

/-!
# Ensuring tables

Ensuring tables looks for them and creates them, and does nothing else (`ensureSchema_journals`).
It succeeds where no call fails, the definition can be built and the cache holds the table for no
other type; afterwards the cache knows the table.
-/

namespace EntityMapper

variable {n : Nat} {σ : Type} {d : Driver σ} {ms : Models n}

/-- Whether a line of a journal may come from ensuring tables: events, looks for tables, statements
that define them and changes of the cache. -/
def Entry.IsSchemaWork : Entry → Prop
  | .event _ | .cached _ | .call (.tableExists _) _ | .call (.execute _) _ => True
  | .call _ _ => False

/-- Whether a cache holds a table for no other type than one of the given origin. -/
def SchemaCache.Admits (cache : SchemaCache) (table origin : String) : Prop :=
  ∃ known, cache.check table origin = .ok known

namespace Session

variable {witness : Witness} {creating : Event} {definition : Except MapperError Sql.Statement}

/-- Ensuring a table looks for it and creates it. -/
theorem ensure_journals :
    (ensure witness creating definition : Task d Unit).Journals Entry.IsSchemaWork := by
  refine .bind (.check _ _) fun known => ?_
  split
  · exact .pure ()
  · refine .bind (.call fun _ => trivial) fun found => ?_
    split
    · exact .bind (.ofExcept _) fun statement => .bind (.report trivial) fun _ =>
        .bind (.bind (.report trivial) fun _ => .call fun _ => trivial) fun _ =>
          .modifyCache fun _ => trivial
    · exact .modifyCache fun _ => trivial

/-- Ensuring the tables of models and their links looks for tables and creates them. -/
theorem ensureSchema_journals (k : Fin n) (dependencies : List (Fin n)) :
    (ensureSchema ms k dependencies : Task d Unit).Journals Entry.IsSchemaWork :=
  .bind (.forM fun _ _ => ensure_journals) fun _ =>
    .forM fun _ _ => .bind (.ofExcept _) fun _ => .forM fun _ _ => ensure_journals

/-- A witness that was put is found. -/
theorem check_put (cache : SchemaCache) (witness : Witness) :
    (cache.put witness).check witness.table witness.origin = .ok true := by
  have hfetch : (cache.put witness).fetch witness.table = some witness := by
    rw [SchemaCache.fetch, SchemaCache.put, KeyMap.get?_insert, if_pos rfl]
  rw [SchemaCache.check, hfetch]
  exact if_pos rfl

/-- A table that was ensured is known to the cache. -/
theorem ensure_leads {w : World σ} :
    (ensure witness creating definition : Task d Unit).Leads w fun _ w' _ =>
      w'.cache.check witness.table witness.origin = .ok true := by
  have hput : ∀ (w' : World σ) (journal : List Entry), Task.Leads
      (ExceptT.lift (Action.modifyCache (·.put witness)) : Task d Unit) w' fun _ w'' _ =>
        w''.cache.check witness.table witness.origin = .ok true :=
    fun w' _ => .modifyCache (check_put w'.cache witness)
  refine .bind (fun known w' _ => w'.cache.check witness.table witness.origin = .ok known)
     (.check fun known hknown => hknown) ?_
  intro known w' journal hknown
  split
  · rename_i htrue
    rw [htrue] at hknown
    exact .pure hknown
  · refine .bind (fun _ _ _ => True) (.call fun _ _ => trivial) fun found w' _ _ => ?_
    split
    · refine .bind (fun _ _ _ => True) (.ofExcept fun _ _ => trivial) fun _ w' _ _ => ?_
      refine .bind (fun _ _ _ => True) (.report trivial) fun _ w' _ _ => ?_
      exact .bind (fun _ _ _ => True) (fun _ _ => trivial) fun _ w' _ _ => hput w' []
    · exact hput w' []

/-- A table is ensured where no call fails, its definition can be built and the cache admits it. -/
theorem ensure_succeeds {promise : Entry → Prop} {w : World σ} {s : Sql.Statement}
    (hpromise : ∀ call answer, promise (.call call answer) → ∃ a, answer = .ok a)
    (hadmits : w.cache.Admits witness.table witness.origin) (hs : definition = .ok s) :
    (ensure witness creating definition : Task d Unit).Succeeds promise w fun _ _ => True := by
  have hcall : ∀ (call : Call) (w' : World σ),
      (Task.call call : Task d call.Answer).Succeeds promise w' fun _ _ => True := by
    refine fun call w' => .call fun hentry => ?_
    obtain ⟨a, ha⟩ := hpromise _ _ hentry
    exact ⟨a, ha, trivial⟩
  obtain ⟨known, hknown⟩ := hadmits
  refine .bind (fun _ _ => True) (fun _ => ⟨known, hknown, trivial⟩) fun known w' _ => ?_
  split
  · exact .pure trivial
  · refine .bind _ (hcall _ w') fun found w' _ => ?_
    split
    · refine .bind (fun _ _ => True) (.ofExcept hs trivial) fun statement w' _ => ?_
      refine .bind (fun _ _ => True) (.report trivial) fun _ w' _ => ?_
      refine .bind (fun _ _ => True) (.bind (fun _ _ => True) (.report trivial) ?_) ?_
      · exact fun _ w' _ => hcall _ w'
      · exact fun _ w' _ _ => ⟨(), rfl, trivial⟩
    · exact fun _ => ⟨(), rfl, trivial⟩

/-! ## Models without relations -/

variable {k : Fin n}

/-- Ensuring the tables of a model that needs no other is ensuring its own table. -/
theorem ensureSchema_leads {w : World σ} (hrelations : ms.relations k = .ok []) :
    (ensureSchema ms k [] : Task d Unit).Leads w fun _ w' _ =>
      w'.cache.check (ms.model k).table (ms.model k).origin = .ok true := by
  have htable : (([] ++ [k] : List (Fin n)).forM (ensureTable ms) : Task d Unit).Leads w
      fun _ w' _ => w'.cache.check (ms.model k).table (ms.model k).origin = .ok true :=
    .bind _ ensure_leads fun _ w' _ hcheck => .pure hcheck
  refine .bind _ htable fun _ w' journal hcheck => ?_
  refine .bind (fun _ w'' _ => w''.cache.check (ms.model k).table (ms.model k).origin = .ok true)
    ?_ fun _ w'' _ hcheck => .pure hcheck
  refine .bind (fun relations w'' _ => relations = [] ∧ w'' = w') (.ofExcept ?_) ?_
  · intro relations h
    exact ⟨Except.ok.inj (h.symm.trans hrelations), rfl⟩
  · rintro relations w'' _ ⟨rfl, rfl⟩
    exact .pure hcheck

/-- The tables of a model that needs no other are ensured where no call fails and the cache holds
the model's table for no other type. -/
theorem ensureSchema_succeeds {promise : Entry → Prop} {w : World σ}
    (hpromise : ∀ call answer, promise (.call call answer) → ∃ a, answer = .ok a)
    (hrelations : ms.relations k = .ok []) {s : Sql.Statement} (hs : ms.createTable k = .ok s)
    (hadmits : w.cache.Admits (ms.model k).table (ms.model k).origin) :
    (ensureSchema ms k [] : Task d Unit).Succeeds promise w fun _ _ => True := by
  have htable : (([] ++ [k] : List (Fin n)).forM (ensureTable ms) : Task d Unit).Succeeds promise w
      fun _ _ => True :=
    .bind _ (ensure_succeeds hpromise hadmits hs) fun _ _ _ => .pure trivial
  refine .bind _ htable fun _ w' _ => ?_
  refine .bind (fun _ _ => True) ?_ fun _ w'' _ => .pure trivial
  refine .bind (fun relations _ => relations = []) (.ofExcept hrelations rfl) ?_
  rintro relations w'' rfl
  exact .pure trivial

/-! ## Known tables -/

/-- Nothing is done for a table that the cache knows. -/
theorem ensure_known {w : World σ}
    (hcheck : w.cache.check witness.table witness.origin = .ok true) :
    (ensure (d := d) witness creating definition).exec w = ⟨.ok (), w, []⟩ := by
  have hknown : ((Task.check (d := d) witness.table witness.origin).exec w).value = .ok true :=
    hcheck
  rw [ensure, Task.exec_bind_of_ok hknown]
  rfl

/-- Nothing is done for models where the cache knows their tables and those of their links. -/
theorem ensureSchema_known {dependencies : List (Fin n)} {w : World σ}
    (htables : ∀ j ∈ dependencies ++ [k],
      w.cache.check (ms.model j).table (ms.model j).origin = .ok true)
    (hlinks : ∀ j ∈ dependencies ++ [k], ∃ relations, ms.relations j = .ok relations ∧
      ∀ r ∈ relations, w.cache.check (ms.linkTable r) (ms.model r.owner).origin = .ok true) :
    (ensureSchema (d := d) ms k dependencies).exec w = ⟨.ok (), w, []⟩ := by
  have hmodels : ((dependencies ++ [k]).forM (ensureTable (d := d) ms)).exec w = ⟨.ok (), w, []⟩ :=
    Task.exec_forM_idle fun j hj => ensure_known (htables j hj)
  have hrelations : ((dependencies ++ [k]).forM fun entity => do
      (← Task.ofExcept (ms.relations entity)).forM (ensureLinks (d := d) ms)).exec w
        = ⟨.ok (), w, []⟩ := by
    refine Task.exec_forM_idle fun j hj => ?_
    obtain ⟨relations, hrelations, hknown⟩ := hlinks j hj
    rw [hrelations]
    exact Task.exec_forM_idle fun r hr => ensure_known (hknown r hr)
  rw [ensureSchema, Task.exec_bind, hmodels]
  simp only [hrelations, List.append_nil]

/-- Nothing is done for a model that needs no other and whose table the cache knows. -/
theorem ensureSchema_known_alone {w : World σ} (hrelations : ms.relations k = .ok [])
    (hcheck : w.cache.check (ms.model k).table (ms.model k).origin = .ok true) :
    (ensureSchema (d := d) ms k []).exec w = ⟨.ok (), w, []⟩ := by
  refine ensureSchema_known (fun j hj => ?_) fun j hj => ?_
  · rw [List.mem_singleton.1 hj]
    exact hcheck
  · rw [List.mem_singleton.1 hj]
    exact ⟨[], hrelations, fun r hr => absurd hr List.not_mem_nil⟩

end Session

end EntityMapper
