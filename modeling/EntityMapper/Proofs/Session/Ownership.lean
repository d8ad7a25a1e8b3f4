import EntityMapper.Proofs.Session.Deletion
import EntityMapper.Proofs.Session.Sharing

/-!
# Whose tables the cache lets requests touch

A cache that holds a witness of a table for one type permits no call on it on behalf of another
(`SchemaCache.Permits`). Tables are ensured where there is no witness, dropped where the witness is
the type's own, and worked on once they are ensured, so every request keeps to what the cache
permits, as far as it looks into the cache: a deletion does not (`Request.Guarded`).
-/

namespace EntityMapper

variable {n : Nat} {σ : Type} {d : Driver σ} {ms : Models n} {root : Fin n}

/-- The table that a call names. -/
def Call.table? : Call → Option String
  | .tableExists table => some table
  | call => call.statement?.map (·.table)

/-- Whether a cache holds no witness, for another type than a model's, of the table that a call
names. -/
def SchemaCache.Permits (cache : SchemaCache) (ms : Models n) (j : Fin n) (call : Call) : Prop :=
  ∀ table ∈ call.table?, ∀ held ∈ cache.fetch table, held.origin = (ms.model j).origin

/-- Whether a cache holds no witness, for another type than a model's, of a table that the model
owns. -/
def SchemaCache.Respects (cache : SchemaCache) (ms : Models n) (j : Fin n) : Prop :=
  ∀ table, ms.Owns j table → ∀ held ∈ cache.fetch table, held.origin = (ms.model j).origin

/-- Whether a call is made on behalf of models of a closure, by permission of the cache for each of
them. -/
def SchemaCache.Allows (ms : Models n) (root : Fin n) (cache : SchemaCache) (call : Call) : Prop :=
  (∃ j ∈ ms.closure root, call.Serves ms j) ∧
    ∀ j ∈ ms.closure root, call.Serves ms j → cache.Permits ms j call

/-- A call on behalf of a model names no table but one that the model owns. -/
theorem Call.Serves.owns {j : Fin n} {call : Call} (h : call.Serves ms j) :
    ∀ table ∈ call.table?, ms.Owns j table := by
  intro table htable
  cases call with
  | tableExists | execute =>
      cases htable
      exact h
  | query | insert | update | delete =>
      cases htable
      exact Models.Uses.owns h
  | next | read | finish | release | begin | commit | rollback => cases htable

namespace SchemaCache

variable {cache : SchemaCache} {j : Fin n}

theorem Respects.permits {call : Call} (h : cache.Respects ms j) (hserves : call.Serves ms j) :
    cache.Permits ms j call :=
  fun table htable => h table (hserves.owns table htable)

/-- A cache that knows the tables of a model for the model's type holds no other witness of them. -/
theorem Covers.respects (h : cache.Covers ms j) : cache.Respects ms j := by
  intro table howns held hheld
  obtain ⟨held', hheld', horigin⟩ := h table howns
  obtain rfl := Option.some.inj (hheld'.symm.trans hheld)
  exact horigin

end SchemaCache

/-! ## Jobs -/

namespace Session

/-- Whatever ensuring a table calls for, the cache holds no witness of the table at that moment. -/
theorem ensure_free (witness : Witness) (creating : Event)
    (definition : Except MapperError Sql.Statement) (w : World σ) :
    CallsAt (fun seen _ => seen.fetch witness.table = none) w.cache
      ((ensure witness creating definition : Task d Unit).exec w).journal := by
  have hrun := ensure_run (d := d) witness creating definition w
  generalize (ensure witness creating definition : Task d Unit).exec w = outcome at hrun ⊢
  intro seen call answer hcall
  cases hrun with
  | known | foreign => cases hcall
  | unchecked hfree | found hfree | undefined hfree | uncreated hfree | created hfree =>
      simp only [moments, executed, Entry.after, List.cons_append, List.nil_append, List.mem_cons,
        List.not_mem_nil, Prod.mk.injEq, reduceCtorEq, and_false, or_false, false_or] at hcall
      obtain rfl : seen = w.cache := by tauto
      exact hfree

/-- Whatever dropping a table calls for, the cache holds the type's own witness of the table at that
moment. -/
theorem dropKnown_own (table origin : String) (dropping : Event) (statement : Sql.Statement)
    (w : World σ) :
    CallsAt (fun seen _ => ∃ held, seen.fetch table = some held ∧ held.origin = origin) w.cache
      ((dropKnown table origin dropping statement : Task d Unit).exec w).journal := by
  have hrun := dropKnown_run (d := d) table origin dropping statement w
  generalize (dropKnown table origin dropping statement : Task d Unit).exec w = outcome at hrun ⊢
  intro seen call answer hcall
  cases hrun with
  | unknown | foreign => cases hcall
  | undropped hheld horigin | dropped hheld horigin =>
      simp only [moments, executed, Entry.after, List.cons_append, List.nil_append, List.mem_cons,
        List.not_mem_nil, Prod.mk.injEq, reduceCtorEq, and_false, or_false, false_or] at hcall
      obtain rfl : seen = w.cache := hcall.1
      exact ⟨_, hheld, horigin⟩

end Session

/-- A job that ensures a table makes no call that the cache does not allow. -/
theorem Job.Within.ensuring_allowed {job : Job} (hjob : job.Within ms root .ensuring)
    (w : World σ) : CallsAt (SchemaCache.Allows ms root) w.cache ((job.task d).exec w).journal := by
  intro seen call answer hcall
  have hmem := mem_of_mem_moments hcall
  refine ⟨(hjob.calls hmem).2, fun i _ _ table htable held hheld => ?_⟩
  obtain ⟨hkind, j, -, hserves⟩ := hjob
  cases job with
  | ensure witness creating definition =>
      have hfree := Session.ensure_free witness creating definition w seen call answer hcall
      have hnamed : table = witness.table := by
        rcases Session.ensure_makes hmem with rfl | ⟨s, hs, rfl⟩
        · exact (Option.some.inj htable).symm
        · exact (Option.some.inj htable).symm.trans (hserves.2.2 s hs).2
      rw [hnamed, hfree] at hheld
      cases hheld
  | drop | insert | update | delete | fetchRow | fetchColumn => cases hkind

/-- A job that drops a table makes its calls on behalf of a model that the cache permits them. -/
theorem Job.Within.dropping_permitted {job : Job} (hjob : job.Within ms root .dropping)
    (w : World σ) :
    CallsAt (fun seen call => ∃ j ∈ ms.closure root, call.Serves ms j ∧ seen.Permits ms j call)
      w.cache ((job.task d).exec w).journal := by
  intro seen call answer hcall
  obtain ⟨hkind, j, hj, hserves⟩ := hjob
  cases job with
  | drop table origin dropping statement =>
      obtain ⟨htable, rfl, rfl⟩ := hserves
      obtain ⟨held, hheld, horigin⟩ :=
        Session.dropKnown_own table _ dropping (.dropTable table) w seen call answer hcall
      obtain rfl := Session.dropKnown_makes (mem_of_mem_moments hcall)
      refine ⟨j, hj, htable, fun table' htable' held' hheld' => ?_⟩
      obtain rfl : table = table' := Option.some.inj htable'
      obtain rfl := Option.some.inj (hheld.symm.trans hheld')
      exact horigin
  | ensure | insert | update | delete | fetchRow | fetchColumn => cases hkind

/-- Calls on behalf of models whose tables the cache knows for no other type are allowed as long as
the cache stays as it is. -/
theorem CallsAt.of_respects {cache : SchemaCache} {journal : List Entry}
    (hidle : ∀ entry ∈ journal, ¬ entry.ChangesCache)
    (hcalls : Calls (fun call => ∃ j ∈ ms.closure root, call.Serves ms j) journal)
    (hrespects : (∃ call answer, Entry.call call answer ∈ journal) →
      ∀ j ∈ ms.closure root, cache.Respects ms j) :
    CallsAt (SchemaCache.Allows ms root) cache journal := by
  intro seen call answer hcall
  have hmem := mem_of_mem_moments hcall
  obtain rfl := moments_idle hidle hcall
  refine ⟨hcalls call answer hmem, fun j hj hserves => ?_⟩
  exact (hrespects ⟨call, answer, hmem⟩ j hj).permits hserves

/-! ## Requests -/

/-- Whether a request finds out whose the tables are that it works on. Insertions, updates and
queries ensure the tables of their closure, which has to tell its types apart; a deletion ensures
none, so the cache must not know them for other types. -/
def Request.Guarded (cache : SchemaCache) : Request → Prop
  | .create .. | .drop .. => True
  | .insert (c := c) r | .update (c := c) r | .query (c := c) r =>
      Set.InjOn c.identity (c.closure r.model)
  | .delete (c := c) r => ∀ j ∈ c.closure r.model, cache.Respects c.toModels j

namespace Session

variable {c : Catalog n}

/-- Creating tables makes no call that the cache does not allow. -/
theorem create_allowed {k : Fin n} (w : World σ) :
    CallsAt (SchemaCache.Allows ms k) w.cache ((create ms k : Task d Unit).exec w).journal :=
  ((create_composed fun _ hjob => hjob).law (CallsAt.runLaw _)
    (fun job hjob w => ⟨(job.recounts w).cache_eq, hjob.ensuring_allowed w⟩) w).2

/-- Dropping tables makes its calls on behalf of models that the cache permits them. -/
theorem drop_permitted {k : Fin n} (w : World σ) :
    CallsAt (fun seen call => ∃ j ∈ ms.closure k, call.Serves ms j ∧ seen.Permits ms j call)
      w.cache ((drop ms k : Task d Unit).exec w).journal :=
  ((drop_composed fun _ hjob => hjob).law (CallsAt.runLaw _)
    (fun job hjob w => ⟨(job.recounts w).cache_eq, hjob.dropping_permitted w⟩) w).2

/-- Inserting, updating and querying make no call that the cache does not allow. -/
theorem prepared_allowed {r : Record c} {operation : Action d (Attempt (Record c) Unit)}
    (h : operation ∈ [insert r, update r, query r])
    (hident : Set.InjOn c.identity (c.closure r.model)) (w : World σ) :
    CallsAt (SchemaCache.Allows c r.model) w.cache (operation.run w).journal := by
  obtain ⟨name, work, rfl, hwork⟩ := prepared_of_mem h
  obtain ⟨-, schema, w', -, data, -, hjournal, ⟨hcache, hschema⟩, ⟨hcalls, hidle⟩, hcovers⟩ :=
    prepared_phases (CallsAt.runLaw (SchemaCache.Allows c r.model))
      ((Calls.runLaw fun call => ∃ j ∈ c.closure r.model, call.Serves c j).and idle_runLaw)
      (fun job hjob w => ⟨(job.recounts w).cache_eq, hjob.ensuring_allowed w⟩)
      (fun job hjob w => ⟨fun call answer hcall => (hjob.calls hcall).2, hjob.idle w⟩)
      hident hwork w
  rw [hjournal]
  -- The first part is allowed job by job; the second part finds every table of the closure known.
  refine hschema.append (.of_respects hidle hcalls fun hsome j hj => ?_)
  exact hcache ▸ (hcovers hsome j hj).respects

/-- Deleting changes nothing in the cache. -/
theorem delete_idle (r : Record c) (w : World σ) :
    ∀ entry ∈ ((delete (d := d) r).run w).journal, ¬ entry.ChangesCache :=
  (delete_composed fun _ hjob => hjob).law idle_runLaw (fun _ hjob => hjob.idle) w

/-- Deleting makes no call that the cache does not allow, where the cache knows no table of the
closure for another type. -/
theorem delete_allowed {r : Record c} {w : World σ}
    (hrespects : ∀ j ∈ c.closure r.model, w.cache.Respects c.toModels j) :
    CallsAt (SchemaCache.Allows c r.model) w.cache ((delete (d := d) r).run w).journal := by
  have hcalls : Calls (fun call => ∃ j ∈ c.closure r.model, call.Serves c j)
      ((delete (d := d) r).run w).journal := by
    intro call answer hcall
    obtain ⟨kind, -, -, hserves⟩ := Request.suited (.delete r) w call answer hcall
    exact hserves
  exact .of_respects (delete_idle r w) hcalls fun _ => hrespects

end Session

/-- Every call of a guarded request is made on behalf of a model of its closure that the cache
permits it, and where the request drops nothing, every model that the call may be made for has this
permission. -/
theorem Request.permitted {q : Request} {w : World σ} (h : q.Guarded w.cache) :
    CallsAt (fun seen call =>
      (∃ j ∈ q.models.closure q.root, call.Serves q.models j ∧ seen.Permits q.models j call) ∧
        (¬ q.IsDrop → ∀ j ∈ q.models.closure q.root, call.Serves q.models j →
          seen.Permits q.models j call)) w.cache ((q.act d).run w).journal := by
  by_cases hdrop : q.IsDrop
  · cases q with
    | drop ms k =>
        exact (Session.drop_permitted w).mono fun _ _ hcall =>
          ⟨hcall, fun hnone => absurd hdrop hnone⟩
    | create | insert | update | query | delete =>
        simp [IsDrop, kinds] at hdrop
  · have hallowed :
        CallsAt (SchemaCache.Allows q.models q.root) w.cache ((q.act d).run w).journal := by
      cases q with
      | create ms k => exact Session.create_allowed w
      | drop ms k => exact absurd (.head _) hdrop
      | insert r => exact Session.prepared_allowed (r := r) (.head _) h w
      | update r => exact Session.prepared_allowed (r := r) (.tail _ (.head _)) h w
      | query r => exact Session.prepared_allowed (r := r) (.tail _ (.tail _ (.head _))) h w
      | delete r => exact Session.delete_allowed h
    refine hallowed.mono fun seen call hcall => ?_
    obtain ⟨⟨j, hj, hserves⟩, hpermits⟩ := hcall
    exact ⟨⟨j, hj, hserves, hpermits j hj hserves⟩, fun _ => hpermits⟩

namespace Sessions

variable {ι : Type} {σ : ι → Type} [DecidableEq ι]

/-- Whatever requests sessions that share a cache serve, one after the other: a guarded request
makes every call on behalf of a model of its closure for which the cache, at the moment of the call,
holds no other type's witness of the table that the call names. Where the request drops nothing,
this holds of every model that the call may be made for. -/
theorem tables_kept_apart (d : (i : ι) → Driver (σ i)) (s : Sessions σ)
    (requests : List (ι × Request)) : ∀ v ∈ s.serve d requests, v.request.Guarded v.world.cache →
      ∀ seen call answer, (seen, Entry.call call answer) ∈ moments v.world.cache (v.journal d) →
        (∃ j ∈ v.request.models.closure v.request.root,
          call.Serves v.request.models j ∧ seen.Permits v.request.models j call) ∧
        (¬ v.request.IsDrop → ∀ j ∈ v.request.models.closure v.request.root,
          call.Serves v.request.models j → seen.Permits v.request.models j call) :=
  fun _ _ hguarded => Request.permitted hguarded

end Sessions

/-! ## Two types of one table -/

/-- The items of a module, which are nothing but their keys, in one table for all modules. -/
def itemsOf (path : String) : EntityModel 1 :=
  ⟨"Item", path, some "items", [⟨"id", "id key auto", .integer .int64⟩], none⟩

/-- The items of the left module. -/
def leftItems : Models 1 := ⟨fun _ => itemsOf "left"⟩

/-- The items of the right module, as records. -/
def rightItems : Catalog 1 where
  model _ := itemsOf "right"
  rank _ := 0
  rank_lt := by decide +kernel

/-- An item of the right module. -/
def rightItem : Bound rightItems 0 where
  columns := .cons (.integer 0 IntegerKind.int64.holds_zero) .nil
  descriptors := [⟨0, "id", ⟨"id", true, true, FieldTag.id_ne, FieldTag.id_chars⟩,
    .scalar (.integer .int64)⟩]
  described := by decide +kernel

/-- The statement that deletes it. -/
def rightItemDeletion : Sql.Statement := .deleteRow "items" ⟨"id", .integer 0⟩

namespace Session

/-- Creating the table of the left items leaves a witness for them. -/
theorem create_leftItems (last : UInt64) :
    ((create leftItems 0 : Task numbering Unit).exec ⟨last, .empty⟩).world
      = ⟨last, .put .empty (.ofModel (leftItems.model 0))⟩ := by
  have hdescribed : (leftItems.model 0).describe = .ok rightItem.descriptors := by decide +kernel
  have hdependencies : leftItems.dependencies 0 = .ok [] :=
    Models.dependencies_of_exact (by decide +kernel) hdescribed
  have hrelations : leftItems.relations 0 = .ok [] := by decide +kernel
  have htables : (([0] : List (Fin 1)).forM (ensureTable leftItems) : Task numbering Unit).exec
      ⟨last, .empty⟩ = ⟨.ok (), ⟨last, .put .empty (.ofModel (leftItems.model 0))⟩,
        [.call (.tableExists (leftItems.model 0).table) (.ok true),
          .cached (.put .empty (.ofModel (leftItems.model 0)))]⟩ := rfl
  have hlinks : ∀ w, (([0] : List (Fin 1)).forM fun j => do
      (← Task.ofExcept (leftItems.relations j)).forM (ensureLinks leftItems) :
        Task numbering Unit).exec w = ⟨.ok (), w, []⟩ := by
    refine fun w => Task.exec_forM_idle fun j hj => ?_
    rw [List.mem_singleton.1 hj, hrelations]
    rfl
  have hschema : ((ensureSchema leftItems 0 [] : Task numbering Unit).exec ⟨last, .empty⟩).world =
      ⟨last, .put .empty (.ofModel (leftItems.model 0))⟩ := by
    rw [ensureSchema, List.nil_append, Task.exec_bind, htables]
    simp only [hlinks]
  show ((Staged.operate .create _ () _ >>= fun left => pure left.result : Action numbering _).run
    _).world = _
  rw [Action.run_bind, Staged.run_operate]
  simp only [Staged.exec_bind, Staged.exec_ofExcept, hdependencies, Staged.exec_advance,
    Staged.exec_task, hschema]
  rfl

/-- An item needs no other table. -/
theorem introspect_rightItem : rightItem.record.introspect = .ok (rightItem, []) :=
  Record.introspect_of_exact (by decide +kernel) (Columns.bind_eq_ok_iff.2 ⟨rfl, rfl⟩)

/-- Deleting an item is one statement on its table. -/
theorem delete_rightItem (w : World UInt64) :
    Entry.call (.delete rightItemDeletion) (.ok (1 : UInt64)) ∈
      ((delete (d := numbering) rightItem.record).run w).journal := by
  have hstatement : rightItem.deleteRow = .ok rightItemDeletion := by decide +kernel
  have hrecord : Entry.call (.delete rightItemDeletion) (.ok (1 : UInt64)) ∈
      ((deleteRecord (d := numbering) rightItem).exec w).journal := by
    rw [deleteRecord, Task.exec_bind, deleteRow_numbering hstatement]
    exact .tail _ (.head _)
  rw [delete, Staged.run_operate]
  simp only [Staged.exec_bind, Staged.exec_ofExcept, introspect_rightItem, Staged.exec_advance,
    Staged.exec_task, List.nil_append]
  exact .tail _ (List.mem_append_left _ (.tail _ hrecord))

end Session

namespace Sessions

/-- One session, whose cache knows nothing. -/
def alone : Sessions fun _ : Unit => UInt64 := ⟨fun _ => 0, .empty⟩

/-- Once the table of items is ensured for the left module, a deletion of an item of the right
module is still run on it, without the cache's permission for any model. -/
theorem delete_not_kept_apart :
    ¬ ∀ v ∈ alone.serve (fun _ => numbering)
        [((), .create leftItems 0), ((), .delete rightItem.record)],
      ∀ seen call answer,
        (seen, Entry.call call answer) ∈ moments v.world.cache (v.journal fun _ => numbering) →
        ∃ j ∈ v.request.models.closure v.request.root,
          call.Serves v.request.models j ∧ seen.Permits v.request.models j call := by
  intro h
  let v : Visit fun _ : Unit => UInt64 := (alone.leave (fun _ => numbering)
    (alone.visit () (.create leftItems 0))).visit () (.delete rightItem.record)
  have hcache : v.world.cache = .put .empty (.ofModel (leftItems.model 0)) :=
    congrArg World.cache (Session.create_leftItems 0)
  obtain ⟨seen, hmoment⟩ := exists_mem_moments v.world.cache (Session.delete_rightItem v.world)
  have hseen : seen = v.world.cache := moments_idle (Session.delete_idle _ v.world) hmoment
  -- Permission for a right item is refused by the witness that the left items have left.
  obtain ⟨j, -, -, hpermits⟩ := h v (.tail _ (.head _)) seen _ _ hmoment
  have hheld : seen.fetch "items" = some (.ofModel (leftItems.model 0)) := by
    rw [hseen, hcache, SchemaCache.fetch_put]
    exact if_pos (by decide +kernel)
  have horigin : (itemsOf "left").origin = (itemsOf "right").origin :=
    hpermits "items" rfl _ hheld
  exact absurd horigin (by decide)

/-- One session, whose cache knows the table of items for the right module. -/
def rightAlone : Sessions fun _ : Unit => UInt64 :=
  ⟨fun _ => 0, .put .empty (.ofModel (rightItems.model 0))⟩

/-- With the table ensured for the right module, the deletion of its item has permission. -/
theorem rightItem_kept_apart :
    Request.Guarded rightAlone.cache (.delete rightItem.record) ∧
      ∃ seen, (seen, Entry.call (.delete rightItemDeletion) (.ok (1 : UInt64))) ∈
          moments rightAlone.cache
            ((rightAlone.visit () (.delete rightItem.record)).journal fun _ => numbering) ∧
        ∃ j ∈ rightItems.closure 0, Call.Serves rightItems.toModels j (.delete rightItemDeletion) ∧
          seen.Permits rightItems.toModels j (.delete rightItemDeletion) := by
  have hguarded : Request.Guarded rightAlone.cache (.delete rightItem.record) := by
    intro j _ table _ held hheld
    have hheld : (SchemaCache.put .empty (.ofModel (rightItems.model 0))).fetch table = some held :=
      hheld
    rw [SchemaCache.fetch_put] at hheld
    split at hheld <;> cases hheld
    rfl
  obtain ⟨seen, hmoment⟩ :=
    exists_mem_moments rightAlone.cache (Session.delete_rightItem ⟨0, rightAlone.cache⟩)
  exact ⟨hguarded, seen, hmoment, (tables_kept_apart (fun _ => numbering) rightAlone
    [((), .delete rightItem.record)] _ (.head _) hguarded seen _ _ hmoment).1⟩

end Sessions

end EntityMapper
