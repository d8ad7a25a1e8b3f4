import EntityMapper.Driver.Recorded
import EntityMapper.Proofs.Session.Coverage

/-!
# Sessions that share a cache

Sessions with drivers of their own serve requests one after the other on one cache
(`Sessions.serve`). As long as none of them drops tables, every table is ensured at most once among
all of them. `EnsuredOnce` says for one table what a run keeps; the jobs obey it, hence every
request and every sequence of requests.
-/

namespace EntityMapper

variable {σ : Type} {d : Driver σ}

/-! ## Sessions and their requests -/

/-- Sessions with drivers of their own, and the cache they share. -/
structure Sessions {ι : Type} (σ : ι → Type) where
  driver : (i : ι) → σ i
  cache : SchemaCache

/-- A request that a session meets, and the world it finds. -/
structure Visit {ι : Type} (σ : ι → Type) where
  session : ι
  request : Request
  world : World (σ session)

section Sessions

variable {ι : Type} {σ : ι → Type} (d : (i : ι) → Driver (σ i))

namespace Visit

variable (v : Visit σ)

/-- What the request leads to. -/
def outcome : Outcome (σ v.session) v.request.Answer := (v.request.act (d v.session)).run v.world

/-- The journal of the request. -/
def journal : List Entry := (v.outcome d).journal

/-- The cache that the request leaves. -/
def after : SchemaCache := (v.outcome d).world.cache

end Visit

namespace Sessions

variable [DecidableEq ι] (s : Sessions σ)

/-- A session meets a request. -/
def visit (i : ι) (q : Request) : Visit σ := ⟨i, q, s.driver i, s.cache⟩

/-- The sessions after a request. -/
def leave (v : Visit σ) : Sessions σ where
  driver := Function.update s.driver v.session (v.outcome d).world.driver
  cache := v.after d

/-- Serves requests of sessions, one after the other. The requests are arbitrary, so each may be
what a caller asks for in view of the answers to the earlier ones. -/
def serve (s : Sessions σ) : List (ι × Request) → List (Visit σ)
  | [] => []
  | (i, q) :: requests => s.visit i q :: (s.leave d (s.visit i q)).serve requests

variable {d s}

/-- The request of a visit is one of those that were to be served. -/
theorem request_mem {requests : List (ι × Request)} {v : Visit σ} (h : v ∈ s.serve d requests) :
    (v.session, v.request) ∈ requests := by
  induction requests generalizing s with
  | nil => cases h
  | cons request requests ih =>
      rcases List.mem_cons.1 h with rfl | h
      · exact List.mem_cons_self
      · exact List.mem_cons_of_mem _ (ih h)

/-- What is served after a visit is served on the cache that the visit has left. -/
theorem serve_split {requests : List (ι × Request)} {before after : List (Visit σ)} {v : Visit σ}
    (h : s.serve d requests = before ++ v :: after) :
    ∃ s' : Sessions σ, ∃ rest, (∀ request ∈ rest, request ∈ requests) ∧ after = s'.serve d rest ∧
      s'.cache = v.after d := by
  induction requests generalizing s before with
  | nil =>
      have hempty : ([] : List (Visit σ)) = before ++ v :: after := h
      simp at hempty
  | cons request requests ih =>
      obtain ⟨i, q⟩ := request
      cases before with
      | nil =>
          obtain ⟨rfl, rfl⟩ := List.cons.inj h
          exact ⟨_, requests, fun _ hrest => List.mem_cons_of_mem _ hrest, rfl, rfl⟩
      | cons first before =>
          obtain ⟨s', rest, hrest, hafter, hcache⟩ := ih (List.cons.inj h).2
          exact ⟨s', rest, fun _ hmem => List.mem_cons_of_mem _ (hrest _ hmem), hafter, hcache⟩

end Sessions

end Sessions

/-! ## What is done for one table -/

/-- The table that a statement creates. -/
def Sql.Statement.created? : Statement → Option String
  | createTable table .. | createLinks table => some table
  | _ => none

/-- The table that a call looks for or creates. -/
def Call.ensured? : Call → Option String
  | .tableExists table => some table
  | .execute s => s.created?
  | _ => none

/-- The table that a line notes as created. -/
def Entry.created? : Entry → Option String
  | .call (.execute s) (.ok _) => s.created?
  | _ => none

/-- How often a journal notes a table as created. -/
def creations (table : String) (journal : List Entry) : Nat :=
  (journal.filterMap Entry.created?).count table

theorem Sql.Statement.IsCreation.created? {s : Statement} (h : s.IsCreation) :
    s.created? = some s.table := by
  cases s with
  | createTable | createLinks => rfl
  | dropTable | insertRow | updateRow | deleteRow | selectRow | insertLink | deleteLink | clearLinks
  | selectLinks => exact absurd h id

theorem creations_append (table : String) (journal later : List Entry) :
    creations table (journal ++ later) = creations table journal + creations table later := by
  rw [creations, List.filterMap_append, List.count_append]
  rfl

/-- Running a statement that creates a table creates it once. -/
theorem creations_executed {table : String} {s : Sql.Statement} (h : s.created? = some table) :
    creations table (executed s (.ok ())) = 1 := by
  cases s with
  | createTable | createLinks =>
      cases h
      exact List.count_singleton_self
  | dropTable | insertRow | updateRow | deleteRow | selectRow | insertLink | deleteLink | clearLinks
  | selectLinks => cases h

/-- A table that no call of a journal is about is not created. -/
theorem creations_eq_zero {table : String} {journal : List Entry}
    (h : Calls (fun call => call.ensured? ≠ some table) journal) : creations table journal = 0 := by
  rw [creations, List.count_eq_zero]
  intro hmem
  obtain ⟨entry, hentry, hcreated⟩ := List.mem_filterMap.1 hmem
  unfold Entry.created? at hcreated
  split at hcreated
  · exact h _ _ hentry hcreated
  · cases hcreated

/-- What a run does for one table: nothing where the cache holds it; else it creates the table once
at most and then leaves it in the cache, and it fails without a witness where a look for the table
or its creation fails. -/
structure EnsuredOnce (table : String) (failure : Option MapperError) (w : World σ)
    (journal : List Entry) (w' : World σ) : Prop where
  held : ∀ held, w.cache.fetch table = some held →
    w'.cache.fetch table = some held ∧ Calls (fun call => call.ensured? ≠ some table) journal
  created_le : creations table journal ≤ 1
  created : 0 < creations table journal → w'.cache.fetch table ≠ none
  failed : ∀ call e, .call call (.error e) ∈ journal → call.ensured? = some table →
    failure ≠ none ∧ w'.cache.fetch table = none

namespace EnsuredOnce

variable {table : String} {failure : Option MapperError} {w w' w'' : World σ}
  {journal later : List Entry}

/-- A run without calls about the table that leaves it in the cache as it was. -/
theorem unconcerned (hcache : w'.cache.fetch table = w.cache.fetch table)
    (hcalls : Calls (fun call => call.ensured? ≠ some table) journal) :
    EnsuredOnce table failure w journal w' where
  held held hheld := ⟨hcache.trans hheld, hcalls⟩
  created_le := by
    rw [creations_eq_zero hcalls]
    exact Nat.zero_le 1
  created h := by
    rw [creations_eq_zero hcalls] at h
    exact absurd h (Nat.lt_irrefl 0)
  failed call e hcall hensured := absurd hensured (hcalls call (.error e) hcall)

/-- A run that finds no witness, creates the table once at most, and fails where it has to. -/
theorem of_free (hfree : w.cache.fetch table = none)
    (hcreated : creations table journal = 0 ∨
      creations table journal = 1 ∧ w'.cache.fetch table ≠ none)
    (hfailed : ∀ call e, .call call (.error e) ∈ journal →
      failure ≠ none ∧ w'.cache.fetch table = none) :
    EnsuredOnce table failure w journal w' where
  held held hheld := absurd (hheld.symm.trans hfree) (Option.some_ne_none held)
  created_le := by omega
  created h := hcreated.elim (fun hnone => absurd h (by omega)) (·.2)
  failed call e hcall _ := hfailed call e hcall

theorem append (h : EnsuredOnce table none w journal w')
    (hlater : EnsuredOnce table failure w' later w'') :
    EnsuredOnce table failure w (journal ++ later) w'' where
  held held hheld := by
    obtain ⟨hkept, hcalls⟩ := h.held held hheld
    obtain ⟨hkept, hlater⟩ := hlater.held held hkept
    exact ⟨hkept, hcalls.append hlater⟩
  created_le := by
    rw [creations_append]
    by_cases hcreated : 0 < creations table journal
    · -- What has created the table has left it in the cache, so the rest is not about it.
      obtain ⟨held, hheld⟩ := Option.ne_none_iff_exists'.1 (h.created hcreated)
      rw [creations_eq_zero (hlater.held held hheld).2]
      exact h.created_le
    · have := hlater.created_le
      omega
  created hcreated := by
    rw [creations_append] at hcreated
    by_cases hbefore : 0 < creations table journal
    · obtain ⟨held, hheld⟩ := Option.ne_none_iff_exists'.1 (h.created hbefore)
      rw [(hlater.held held hheld).1]
      exact Option.some_ne_none held
    · exact hlater.created (by omega)
  failed call e hcall hensured := by
    rcases List.mem_append.1 hcall with hcall | hcall
    · exact absurd rfl (h.failed call e hcall hensured).1
    · exact hlater.failed call e hcall hensured

theorem runLaw (table : String) : RunLaw (σ := σ) (EnsuredOnce table) where
  quiet _ _ events := unconcerned rfl (.quiet events)
  append h hlater := h.append hlater
  trail events h := {
    held := fun held hheld =>
      ⟨(h.held held hheld).1, (h.held held hheld).2.append (.quiet events)⟩
    created_le := by
      rw [creations_append, creations_eq_zero (.quiet events)]
      exact h.created_le
    created := fun hcreated => by
      rw [creations_append, creations_eq_zero (.quiet events)] at hcreated
      exact h.created hcreated
    failed := fun call e hcall hensured => by
      rcases List.mem_append.1 hcall with hcall | hcall
      · exact h.failed call e hcall hensured
      · have hquiet : Calls (fun call => call.ensured? ≠ some table) (reports events) :=
          .quiet events
        exact absurd hensured (hquiet call _ hcall) }

end EnsuredOnce

/-- Ensuring any table does for a table what it should. -/
theorem Session.ensure_once {witness : Witness} {creating : Event}
    {definition : Except MapperError Sql.Statement}
    (hdefinition : ∀ s, definition = .ok s → s.IsCreation ∧ s.table = witness.table)
    (table : String) :
    (ensure witness creating definition : Task d Unit).Obeys (EnsuredOnce table) := by
  intro w
  have hcreated : ∀ s, definition = .ok s → s.created? = some witness.table := by
    intro s hs
    obtain ⟨hcreation, htable⟩ := hdefinition s hs
    rw [hcreation.created?, htable]
  have hcalls : Calls (fun call => call.ensured? = some witness.table)
      ((ensure witness creating definition : Task d Unit).exec w).journal := by
    intro call answer hcall
    rcases ensure_makes hcall with rfl | ⟨s, hs, rfl⟩
    · rfl
    · exact hcreated s hs
  have hrun := ensure_run (d := d) witness creating definition w
  generalize (ensure witness creating definition : Task d Unit).exec w = outcome at hrun hcalls
  by_cases htable : table = witness.table
  · -- The table that is ensured: no call is made where the cache holds it.
    subst htable
    cases hrun with
    | known | foreign => exact .unconcerned rfl .nil
    | unchecked hfree => exact .of_free hfree (.inl rfl) fun _ _ _ => ⟨Option.some_ne_none _, hfree⟩
    | uncreated hfree => exact .of_free hfree (.inl rfl) fun _ _ _ => ⟨Option.some_ne_none _, hfree⟩
    | found hfree | undefined hfree =>
        refine .of_free hfree (.inl rfl) fun call e hcall => ?_
        simp only [List.mem_cons, List.not_mem_nil, or_false, reduceCtorEq] at hcall
        cases hcall
    | created hfree _ hs =>
        refine .of_free hfree (.inr ⟨?_, ?_⟩) fun call e hcall => ?_
        · show creations _ ([_, _] ++ (executed _ (.ok ()) ++ [_])) = 1
          rw [creations_append, creations_append, creations_executed (hcreated _ hs)]
          rfl
        · rw [SchemaCache.fetch_put, if_pos rfl]
          exact Option.some_ne_none _
        · simp only [executed, List.mem_cons, List.not_mem_nil, or_false, reduceCtorEq, false_or,
            List.cons_append, List.nil_append] at hcall
          rcases hcall with hcall | hcall <;> cases hcall
  · -- Any other table: the cache changes nowhere but at the table that is ensured.
    have hcache : outcome.world.cache.fetch table = w.cache.fetch table := by
      cases hrun with
      | known | foreign | unchecked | undefined | uncreated => rfl
      | found | created =>
          rw [SchemaCache.fetch_put, if_neg htable]
    refine .unconcerned hcache fun call answer hcall hensured => htable ?_
    exact Option.some.inj (hensured.symm.trans (hcalls call answer hcall))

/-- A job that drops nothing does for a table what it should. -/
theorem Job.ensured_once {n : Nat} {ms : Models n} {root : Fin n} {kind : Job.Kind} {job : Job}
    (hjob : job.Within ms root kind) (hkind : kind ≠ .dropping) (table : String) :
    (job.task d).Obeys (EnsuredOnce table) := by
  obtain ⟨rfl, j, hj, hserves⟩ := hjob
  have hrows : ∀ s, job.rows? = some s → (job.task d).Obeys (EnsuredOnce table) := by
    intro s hs w
    refine .unconcerned (by rw [job.rows_cache hs]) fun call answer hcall => ?_
    have hworks : call.WorksOn s := job.rows_lines hs w _ hcall
    cases call with
    | execute | tableExists => exact absurd hworks id
    | _ => exact (Option.some_ne_none table).symm
  cases job with
  | ensure witness creating definition => exact Session.ensure_once hserves.2.2 table
  | drop => exact absurd rfl hkind
  | insert s | update s | delete s | fetchRow s | fetchColumn s => exact hrows s rfl

/-- A request that drops nothing does for a table what it should. -/
theorem Request.ensured_once {q : Request} (hdrop : ¬ q.IsDrop) (table : String) (w : World σ) :
    EnsuredOnce table (q.failure? ((q.act d).run w).value) w ((q.act d).run w).journal
      ((q.act d).run w).world := by
  refine q.composed.law (EnsuredOnce.runLaw table) (fun job hjob w => ?_) w
  obtain ⟨kind, hkind, hwithin⟩ := hjob
  refine Job.ensured_once hwithin ?_ table w
  rintro rfl
  exact hdrop hkind

/-! ## Every sequence of requests -/

namespace Sessions

variable {ι : Type} {σ : ι → Type} {d : (i : ι) → Driver (σ i)} [DecidableEq ι] {s : Sessions σ}
  {requests : List (ι × Request)} {table : String}

/-- Nobody looks for or creates a table that the shared cache holds. -/
theorem serve_held (hdrops : ∀ request ∈ requests, ¬ request.2.IsDrop)
    (h : s.cache.fetch table ≠ none) : ∀ v ∈ s.serve d requests,
      Calls (fun call => call.ensured? ≠ some table) (v.journal d) := by
  obtain ⟨held, hheld⟩ := Option.ne_none_iff_exists'.1 h
  induction requests generalizing s with
  | nil => exact fun v hv => absurd hv List.not_mem_nil
  | cons request requests ih =>
      obtain ⟨i, q⟩ := request
      have honce := Request.ensured_once (d := d i) (hdrops _ List.mem_cons_self) table
        ⟨s.driver i, s.cache⟩
      obtain ⟨hkept, hcalls⟩ := honce.held held hheld
      have hrest : ∀ request ∈ requests, ¬ request.2.IsDrop :=
        fun request hrequest => hdrops request (List.mem_cons_of_mem _ hrequest)
      intro v hv
      rcases List.mem_cons.1 hv with rfl | hv
      · exact hcalls
      · exact ih (s := s.leave d (s.visit i q)) hrest
          (Option.ne_none_iff_exists'.2 ⟨held, hkept⟩) hkept v hv

/-- Sessions that drop nothing create a table once at most. -/
theorem serve_creations (hdrops : ∀ request ∈ requests, ¬ request.2.IsDrop) :
    creations table ((s.serve d requests).flatMap (·.journal d)) ≤ 1 := by
  induction requests generalizing s with
  | nil => exact Nat.zero_le 1
  | cons request requests ih =>
      obtain ⟨i, q⟩ := request
      have honce : EnsuredOnce table _ _ ((s.visit i q).journal d) _ :=
        Request.ensured_once (hdrops _ List.mem_cons_self) table ⟨s.driver i, s.cache⟩
      have hrest : ∀ request ∈ requests, ¬ request.2.IsDrop :=
        fun request hrequest => hdrops request (List.mem_cons_of_mem _ hrequest)
      have hlater := ih (s := s.leave d (s.visit i q)) hrest
      rw [serve, List.flatMap_cons, creations_append]
      by_cases hcreated : 0 < creations table ((s.visit i q).journal d)
      · -- The first request leaves the table in the cache, so no later one is about it.
        have hnone : Calls (fun call => call.ensured? ≠ some table)
            (((s.leave d (s.visit i q)).serve d requests).flatMap (·.journal d)) := by
          intro call answer hcall
          obtain ⟨v, hv, hcall⟩ := List.mem_flatMap.1 hcall
          exact serve_held hrest (honce.created hcreated) v hv call answer hcall
        rw [creations_eq_zero hnone]
        exact honce.created_le
      · omega

/-- Among sessions that share a cache and drop nothing, every table is ensured once. After a request
that has left a witness of the table in the cache, no session looks for the table or creates it;
over all requests it is created once at most; and a request whose look for the table or creation
fails leaves no witness of it. -/
theorem tables_ensured_once (d : (i : ι) → Driver (σ i)) (s : Sessions σ)
    (requests : List (ι × Request)) (hdrops : ∀ request ∈ requests, ¬ request.2.IsDrop)
    (table : String) :
    (∀ before v after, s.serve d requests = before ++ v :: after → (v.after d).fetch table ≠ none →
      ∀ later ∈ after, ∀ call answer, .call call answer ∈ later.journal d →
        call.ensured? ≠ some table) ∧
    creations table ((s.serve d requests).flatMap (·.journal d)) ≤ 1 ∧
    ∀ v ∈ s.serve d requests, ∀ call e, .call call (.error e) ∈ v.journal d →
      call.ensured? = some table → (v.after d).fetch table = none := by
  refine ⟨fun before v after hserve hheld later hlater => ?_, serve_creations hdrops, ?_⟩
  · obtain ⟨s', rest, hrest, rfl, hcache⟩ := serve_split hserve
    refine serve_held (fun request hrequest => hdrops request (hrest request hrequest)) ?_ later
      hlater
    rwa [hcache]
  · intro v hv call e hcall hensured
    have honce := Request.ensured_once (d := d v.session) (hdrops _ (request_mem hv)) table v.world
    exact (honce.failed call e hcall hensured).2

/-- Two sessions on databases of their own, which share a cache that knows nothing. -/
def twoSessions : Sessions fun _ : Fin 2 => Recorded := ⟨fun _ => .fresh, .empty⟩

/-- Both sessions are asked for the tables of trees. -/
def bothCreate : List (Fin 2 × Request) := [(0, .create .tree 0), (1, .create .tree 0)]

/-- Two sessions that are asked for the tables of trees ensure the table of nodes once. -/
theorem nodes_ensured_once :
    (∀ before v after,
      twoSessions.serve (fun _ => Recorded.driver) bothCreate = before ++ v :: after →
      (v.after fun _ => Recorded.driver).fetch (Models.tree.model 0).table ≠ none →
      ∀ later ∈ after, ∀ call answer, .call call answer ∈ later.journal (fun _ => Recorded.driver) →
        call.ensured? ≠ some (Models.tree.model 0).table) ∧
    creations (Models.tree.model 0).table ((twoSessions.serve (fun _ => Recorded.driver)
      bothCreate).flatMap (·.journal fun _ => Recorded.driver)) ≤ 1 ∧
    ∀ v ∈ twoSessions.serve (fun _ => Recorded.driver) bothCreate, ∀ call e,
      .call call (.error e) ∈ v.journal (fun _ => Recorded.driver) →
      call.ensured? = some (Models.tree.model 0).table →
      (v.after fun _ => Recorded.driver).fetch (Models.tree.model 0).table = none := by
  refine tables_ensured_once _ twoSessions bothCreate (fun request hrequest => ?_) _
  simp only [bothCreate, List.mem_cons, List.not_mem_nil, or_false] at hrequest
  rcases hrequest with rfl | rfl <;> simp [Request.IsDrop, Request.kinds]

end Sessions

end EntityMapper
