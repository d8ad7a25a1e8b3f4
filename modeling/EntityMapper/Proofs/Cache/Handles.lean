import EntityMapper.Cache.Schema
import EntityMapper.Proofs.Cache.Memory

/-!
# Handles that share a cache

Handles on one backend see one map from tables to witnesses, in which the last put wins and nothing
expires; handles on other backends do not affect it (`CachePool.follows`). A schema cache is a store
in which every witness lives forever (`SchemaCache.store`), so no clock shows in it: what a handle
sees is the store that all calls of its backend make, whenever they are made
(`CachePool.store_view_after`).
-/

namespace EntityMapper

/-! ## Maps with changed values -/

namespace KeyMap

variable {α β : Type} (f : α → β) (m : KeyMap α)

/-- The map with a function applied to its values. -/
def map : KeyMap β where
  entries := m.entries.map (Prod.map id f)
  nodup := by
    rw [entryKeys, List.map_map]
    exact m.nodup

theorem eq_of_entries {m m' : KeyMap α} (h : m.entries = m'.entries) : m = m' := by
  cases m
  cases m'
  cases h
  rfl

theorem lookupEntry_map (key : String) (entries : List (String × α)) :
    lookupEntry key (entries.map (Prod.map id f)) = (lookupEntry key entries).map f := by
  induction entries with
  | nil => rfl
  | cons entry entries ih =>
      simp only [List.map_cons, Prod.map, id, lookupEntry, ih]
      split_ifs <;> rfl

theorem insertEntry_map (key : String) (value : α) (entries : List (String × α)) :
    insertEntry key (f value) (entries.map (Prod.map id f))
      = (insertEntry key value entries).map (Prod.map id f) := by
  induction entries with
  | nil => rfl
  | cons entry entries ih =>
      simp only [List.map_cons, Prod.map, id, insertEntry, ih]
      split_ifs <;> rfl

theorem get?_map (key : String) : (m.map f).get? key = (m.get? key).map f :=
  lookupEntry_map f key m.entries

theorem insert_map (key : String) (value : α) :
    (m.map f).insert key (f value) = (m.insert key value).map f :=
  eq_of_entries (insertEntry_map f key value m.entries)

theorem erase_map (key : String) : (m.map f).erase key = (m.erase key).map f :=
  eq_of_entries List.filter_map

end KeyMap

/-! ## A schema cache as a store -/

namespace SchemaCache

/-- What a schema cache can be asked to do. -/
inductive Request
  | put (witness : Witness)
  | fetch (table : String)
  | check (table origin : String)
  | remove (table : String)
  | reset
  deriving DecidableEq

/-- What a request is answered with. -/
inductive Answer
  | done
  | found (held : Option Witness)
  | checked (known : Except MapperError Bool)
  deriving DecidableEq

/-- Serves a request: the answer, and the cache that is left. -/
def serve (cache : SchemaCache) : Request → Answer × SchemaCache
  | .put witness => (.done, cache.put witness)
  | .fetch table => (.found (cache.fetch table), cache)
  | .check table origin => (.checked (cache.check table origin), cache)
  | .remove table => (.done, cache.remove table)
  | .reset => (.done, .empty)

/-- What a check makes of the witness that is held for a table. -/
def verdict (table origin : String) : Option Witness → Except MapperError Bool
  | none => .ok false
  | some held =>
      if held.origin = origin then .ok true
      else .error (.foreignTable table held.origin origin)

namespace Request

/-- What a request asks of a store of witnesses. Witnesses are put there forever. -/
def onStore : Request → MemoryCache.Request Witness
  | put witness => .put witness.table witness .forever
  | fetch table | check table _ => .fetch table
  | remove table => .remove table
  | reset => .clear

/-- What a request is answered when the store finds a witness or none. -/
def answer (found : Option Witness) : Request → Answer
  | fetch _ => .found found
  | check table origin => .checked (verdict table origin found)
  | put _ | remove _ | reset => .done

variable (request : Request) (table : String)

/-- Whether a request only looks at a cache. -/
def Reads : Prop :=
  (∃ table, request = .fetch table) ∨ ∃ table origin, request = .check table origin

/-- Whether a request puts a witness of a table. -/
def Puts (witness : Witness) : Prop := request = .put witness ∧ witness.table = table

/-- Whether a request displaces the witness of a table: by another one, or by removing the table or
all tables. -/
def Displaces : Prop :=
  (∃ witness, request.Puts table witness) ∨ request = .remove table ∨ request = .reset

variable {request table} {witness : Witness} {time : Nat}

theorem puts_onStore :
    (⟨time, request.onStore⟩ : MemoryCache.Call Witness).Puts table ⟨witness, none⟩ ↔
      request.Puts table witness := by
  cases request with
  | put other =>
      rw [onStore, MemoryCache.Call.puts_iff, Puts, put.injEq]
      constructor
      · rintro ⟨rfl, heq⟩
        cases heq
        exact ⟨rfl, rfl⟩
      · rintro ⟨rfl, rfl⟩
        exact ⟨rfl, rfl⟩
  | fetch | check | remove | reset => simp [onStore, MemoryCache.Call.Puts, Puts]

theorem displaces_onStore :
    (⟨time, request.onStore⟩ : MemoryCache.Call Witness).Displaces table ↔
      request.Displaces table := by
  cases request <;> simp [onStore, MemoryCache.Call.Displaces, Displaces, Puts]

end Request

/-- Serves a request with a store of witnesses, at a time. -/
def serveWith (store : MemoryCache Witness) (now : Nat) (request : Request) :
    Answer × MemoryCache Witness :=
  (store.serve ⟨now, request.onStore⟩).map (request.answer ·) id

/-- The store of the witnesses of a cache, in which they live forever. -/
def store (cache : SchemaCache) : MemoryCache Witness := ⟨cache.witnesses.map fun w => ⟨w, none⟩⟩

variable {cache : SchemaCache} {request : Request} {table origin : String} {witness : Witness}

theorem get?_store : cache.store.entries.get? table = (cache.fetch table).map (⟨·, none⟩) :=
  KeyMap.get?_map _ cache.witnesses table

/-- What lives forever is found at any time, and a fetch leaves it in place. -/
theorem fetch_store (cache : SchemaCache) (now : Nat) (table : String) :
    cache.store.fetch now table = (cache.fetch table, cache.store) := by
  rw [MemoryCache.fetch, get?_store]
  cases cache.fetch table <;> rfl

/-- The store of a cache serves requests as the cache does, at any time. -/
theorem serveWith_store (cache : SchemaCache) (now : Nat) (request : Request) :
    serveWith cache.store now request = (cache.serve request).map id store := by
  cases request with
  | put witness =>
      refine Prod.ext rfl ?_
      exact congrArg MemoryCache.mk (KeyMap.insert_map _ cache.witnesses witness.table witness)
  | fetch table =>
      exact congrArg (Prod.map (Request.answer · (.fetch table)) id) (fetch_store cache now table)
  | check table origin =>
      exact congrArg (Prod.map (Request.answer · (.check table origin)) id)
        (fetch_store cache now table)
  | remove table => exact Prod.ext rfl (congrArg MemoryCache.mk (KeyMap.erase_map _ _ table))
  | reset => rfl

/-- A request that only looks at a cache leaves it as it is. -/
theorem serve_of_reads (h : request.Reads) : (cache.serve request).2 = cache := by
  rcases h with ⟨table, rfl⟩ | ⟨table, origin, rfl⟩ <;> rfl

/-- A check answers by the witness that is held. -/
theorem check_eq_verdict :
    cache.check table origin = verdict table origin (cache.fetch table) := rfl

end SchemaCache

/-! ## Handles -/

namespace CachePool

/-- A request of a handle and the time at which it is served. -/
structure Call where
  time : Nat
  handle : Nat
  request : SchemaCache.Request
  deriving DecidableEq

/-- Serves a call with the cache behind its handle. -/
def serve (pool : CachePool) (c : Call) : SchemaCache.Answer × CachePool :=
  let (answer, cache) := (pool.view c.handle).serve c.request
  (answer, pool.modify c.handle fun _ => cache)

/-- The caches that a history of calls makes of empty ones. -/
def after (backendOf : Nat → Nat) (history : List Call) : CachePool :=
  history.foldl (fun pool c => (pool.serve c).2) (.ofHandles backendOf)

/-- Whether a call is made on the backend of a handle. -/
def Call.Reaches (backendOf : Nat → Nat) (handle : Nat) (c : Call) : Prop :=
  backendOf handle = backendOf c.handle

instance (backendOf : Nat → Nat) (handle : Nat) : DecidablePred (Call.Reaches backendOf handle) :=
  fun _ => inferInstanceAs (Decidable (_ = _))

/-- The call that a store of witnesses gets. -/
def Call.onStore (c : Call) : MemoryCache.Call Witness := ⟨c.time, c.request.onStore⟩

/-- The store that the calls on the backend of a handle make of an empty one. -/
def storeAfter (backendOf : Nat → Nat) (handle : Nat) (history : List Call) : MemoryCache Witness :=
  .after ((history.filter (Call.Reaches backendOf handle ·)).map Call.onStore)

variable {pool : CachePool} {backendOf : Nat → Nat} {history : List Call} {c : Call} {handle : Nat}
  {table : String} {witness : Witness}

/-- A call serves the handles of its backend, whatever handle it is made on, and no others. -/
theorem view_serve : (pool.serve c).2.view handle =
    if c.Reaches pool.backendOf handle then ((pool.view handle).serve c.request).2
    else pool.view handle := by
  show (if c.Reaches pool.backendOf handle then ((pool.view c.handle).serve c.request).2
    else pool.view handle) = _
  split_ifs with h
  · have hview : pool.view c.handle = pool.view handle := congrArg pool.backends h.symm
    rw [hview]
  · rfl

/-- Leaving what a handle sees as it is changes nothing. -/
theorem modify_view (pool : CachePool) (handle : Nat) :
    pool.modify handle (fun _ => pool.view handle) = pool := by
  have hbackends : (pool.modify handle fun _ => pool.view handle).backends = pool.backends := by
    funext backend
    show (if backend = pool.backendOf handle then pool.view handle else pool.backends backend) = _
    split_ifs with h
    · rw [h]
      rfl
    · rfl
  exact congrArg (CachePool.mk pool.backendOf) hbackends

/-- The caches after one more call. -/
theorem after_concat :
    after backendOf (history ++ [c]) = ((after backendOf history).serve c).2 := by
  rw [after, List.foldl_append]
  rfl

/-- Calls leave the handles on their backends. -/
theorem backendOf_after : (after backendOf history).backendOf = backendOf := by
  induction history using List.reverseRecOn with
  | nil => rfl
  | append_singleton history c ih =>
      rw [after_concat]
      exact ih

/-- What a handle sees is the store that the calls on its backend make. -/
theorem store_view_after : ((after backendOf history).view handle).store
    = storeAfter backendOf handle history := by
  induction history using List.reverseRecOn with
  | nil => rfl
  | append_singleton history c ih =>
      rw [after_concat, view_serve, backendOf_after, storeAfter, List.filter_append,
        List.filter_singleton]
      by_cases h : c.Reaches backendOf handle
      · rw [if_pos h, decide_eq_true h, cond_true, List.map_append, List.map_singleton,
          MemoryCache.after_concat, ← storeAfter, ← ih]
        exact (congrArg Prod.snd (SchemaCache.serveWith_store _ c.time c.request)).symm
      · rw [if_neg h, decide_eq_false h, cond_false, List.append_nil, ih, storeAfter]

/-- A handle holds for a table the witness that was put last on its backend and not removed
since. -/
theorem fetch_view_after : ((after backendOf history).view handle).fetch table = some witness ↔
    Stands (fun c => c.Reaches backendOf handle ∧ c.request.Puts table witness)
      (fun c => c.Reaches backendOf handle ∧ c.request.Displaces table) history := by
  -- What the cache holds is what its store holds forever, so no fetch has found it expired.
  have hforever : ((after backendOf history).view handle).fetch table = some witness ↔
      (storeAfter backendOf handle history).entries.get? table = some ⟨witness, none⟩ := by
    rw [← store_view_after, SchemaCache.get?_store]
    simp
  rw [hforever, storeAfter, MemoryCache.get?_after, stands_map, stands_filter]
  simp [MemoryCache.Call.FindsExpired, Call.onStore, SchemaCache.Request.puts_onStore,
    SchemaCache.Request.displaces_onStore]

/-- What handles answer and see, in terms of the calls that were made on them. -/
structure Follows (backendOf : Nat → Nat) (history : List Call) : Prop where
  /-- A handle answers as one store does on which the calls of its backend were made, and no
  others. -/
  answer_eq : ∀ handle now request, ((after backendOf history).serve ⟨now, handle, request⟩).1 =
    (SchemaCache.serveWith (storeAfter backendOf handle history) now request).1
  /-- A handle finds the witness that was put last for the table on its backend, at any time, unless
  it was removed. -/
  fetch_iff : ∀ handle now table witness,
    ((after backendOf history).serve ⟨now, handle, .fetch table⟩).1 = .found (some witness) ↔
      Stands (fun c => c.Reaches backendOf handle ∧ c.request.Puts table witness)
        (fun c => c.Reaches backendOf handle ∧ c.request.Displaces table) history
  /-- A check tells whether nothing is found for the table, or a witness of the origin, or one of
  another origin. -/
  check_iff : ∀ handle now table origin, ∃ held known,
    ((after backendOf history).serve ⟨now, handle, .fetch table⟩).1 = .found held ∧
    ((after backendOf history).serve ⟨now, handle, .check table origin⟩).1 = .checked known ∧
    (known = .ok false ↔ held = none) ∧
    (known = .ok true ↔ ∃ witness ∈ held, witness.origin = origin) ∧
    ((∃ e, known = .error e ∧ e.errorClass = .conflictingType) ↔
      ∃ witness ∈ held, witness.origin ≠ origin)
  /-- A check or a fetch changes nothing, in the caches nor in the store. -/
  reads_leave : ∀ handle now request, request.Reads →
    ((after backendOf history).serve ⟨now, handle, request⟩).2 = after backendOf history ∧
    (SchemaCache.serveWith (storeAfter backendOf handle history) now request).2
      = storeAfter backendOf handle history
  /-- A call changes nothing for the handles of other backends. -/
  apart : ∀ c handle, ¬ c.Reaches backendOf handle →
    ((after backendOf history).serve c).2.view handle = (after backendOf history).view handle

/-- Handles follow the history of their backends. -/
theorem follows (backendOf : Nat → Nat) (history : List Call) : Follows backendOf history where
  answer_eq handle now request := by
    rw [← store_view_after, SchemaCache.serveWith_store]
    rfl
  fetch_iff handle now table witness := by
    rw [← fetch_view_after]
    simp [serve, SchemaCache.serve]
  check_iff handle now table origin := by
    refine ⟨_, _, rfl, rfl, ?_⟩
    rw [SchemaCache.check_eq_verdict]
    cases ((after backendOf history).view handle).fetch table with
    | none => simp [SchemaCache.verdict]
    | some held =>
        by_cases h : held.origin = origin
        · simp [SchemaCache.verdict, h]
        · simp [SchemaCache.verdict, h, MapperError.errorClass]
  reads_leave handle now request hreads := by
    constructor
    · show (after backendOf history).modify handle
        (fun _ => (((after backendOf history).view handle).serve request).2) = _
      rw [SchemaCache.serve_of_reads hreads, modify_view]
    · rw [← store_view_after, SchemaCache.serveWith_store]
      exact congrArg SchemaCache.store (SchemaCache.serve_of_reads hreads)
  apart c handle h := by
    rw [view_serve, backendOf_after, if_neg h]

end CachePool

/-- Caches follow the calls that are made on them: a store of entries with a lifetime is a map with
deadlines, and handles that share a backend see one map without. -/
theorem caches_follow_history :
    (∀ (α : Type) (history : List (MemoryCache.Call α)), MemoryCache.Follows history) ∧
      ∀ backendOf history, CachePool.Follows backendOf history :=
  ⟨fun _ => MemoryCache.follows, CachePool.follows⟩

/-- Calls on a store: one entry is found expired, and another one is put twice, the second time to
live for a second. -/
def visits : List (MemoryCache.Call Nat) :=
  [⟨0, .put "stale" 1 (.nanoseconds 0)⟩, ⟨0, .put "fresh" 2 (.seconds 3600)⟩,
    ⟨5, .put "fresh" 3 (.seconds 1)⟩, ⟨6, .put "kept" 4 .forever⟩, ⟨7, .remove "gone"⟩,
    ⟨7, .fetch "stale"⟩]

/-- A table noted with one of two handles that share a backend, and calls on another cache. -/
def notes : List CachePool.Call :=
  [⟨9, 0, .put ⟨"pets", "shop.Pet", "shop::Pet"⟩⟩, ⟨3, 2, .reset⟩, ⟨4, 2, .remove "pets"⟩]

/-- The entry that was put twice is found in the last nanosecond of its life, with the value of the
second put, and two keys are left. The other handle of the backend finds the table, also when the
clock has gone back, and refuses it to another type. -/
theorem visits_notes_follow_history :
    MemoryCache.Chronological (visits ++ [⟨1000000004, .fetch "fresh"⟩]) ∧
      ((MemoryCache.after visits).fetch 1000000004 "fresh").1 = some 3 ∧
      {key | ∃ e, Stands (·.Puts key e)
        (fun c => c.Displaces key ∨ c.FindsExpired key e.deadline) visits}.encard = 2 ∧
      ((CachePool.after (· - 1) notes).serve ⟨0, 1, .fetch "pets"⟩).1
        = .found (some ⟨"pets", "shop.Pet", "shop::Pet"⟩) ∧
      ∃ e, ((CachePool.after (· - 1) notes).serve ⟨0, 1, .check "pets" "zoo::Pet"⟩).1
        = .checked (.error e) ∧ e.errorClass = .conflictingType := by
  have hstore := caches_follow_history.1 Nat visits
  have hpool := caches_follow_history.2 (· - 1) notes
  have hclock : MemoryCache.Chronological (visits ++ [⟨1000000004, .fetch "fresh"⟩]) := by decide
  have hfound : ((CachePool.after (· - 1) notes).serve ⟨0, 1, .fetch "pets"⟩).1
      = .found (some ⟨"pets", "shop.Pet", "shop::Pet"⟩) := by
    refine (hpool.fetch_iff _ _ _ _).2 ⟨[], _, notes.drop 1, rfl, ⟨rfl, rfl, rfl⟩, ?_⟩
    simp [notes, CachePool.Call.Reaches]
  refine ⟨hclock, ?_, ?_, hfound, ?_⟩
  · refine (hstore.fetch_iff _ _ _ hclock).2 ⟨some 1000000005, ?_, by decide⟩
    exact ⟨visits.take 2, ⟨5, .put "fresh" 3 (.seconds 1)⟩, visits.drop 3, rfl,
      ⟨.seconds 1, rfl, rfl⟩, by simp [visits, MemoryCache.Call.Displaces]⟩
  · rw [hstore.size_eq]
    rfl
  · obtain ⟨held, known, hheld, hknown, -, -, hforeign⟩ := hpool.check_iff 1 0 "pets" "zoo::Pet"
    cases hfound.symm.trans hheld
    obtain ⟨e, rfl, he⟩ := hforeign.2 ⟨_, rfl, by decide⟩
    exact ⟨e, hknown, he⟩

end EntityMapper
