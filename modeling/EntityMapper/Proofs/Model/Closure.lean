import EntityMapper.Model.Closure
import EntityMapper.Proofs.Model.Description
import Mathlib.Data.List.Nodup
import Mathlib.Data.Set.Function
import Mathlib.Logic.Relation

/-!
# What a closure holds

A model refers to the models of its relation fields, and the closure of a model is everything it
reaches that way. `Explored` says what a finished traversal has found: models whose tables were
free, all of them reachable, and closed under references up to what was claimed before. A closure
in which every model can be described and no two share a table is always found.
-/

namespace EntityMapper

variable {n : Nat}

/-- The model that a task lists. -/
def ClosureTask.listed? : ClosureTask n → Option (Fin n)
  | .visit _ => none
  | .list k => some k

namespace Models

variable (ms : Models n)

/-- Whether some relation field of one model refers to another. -/
def Refers (i j : Fin n) : Prop :=
  ∃ f ∈ (ms.model i).fields, ∃ relation ∈ f.type.classify.relation, relation.model = j

/-- Whether a model is reached from another through one or more relation fields. -/
def Reaches : Fin n → Fin n → Prop := Relation.TransGen ms.Refers

/-- A model and every model it reaches. -/
def closure (k : Fin n) : Set (Fin n) := {j | j = k ∨ ms.Reaches k j}

/-- The table of a model with the origin of its type: what tells models apart. -/
def identity (j : Fin n) : String × String := ((ms.model j).table, (ms.model j).origin)

variable {ms} {k : Fin n}

theorem closure_refers {i j : Fin n} (hi : i ∈ ms.closure k) (hij : ms.Refers i j) :
    j ∈ ms.closure k := by
  rcases hi with rfl | hi
  · exact .inr (.single hij)
  · exact .inr (hi.tail hij)

/-! ## The models that a model refers to -/

/-- Only a described model has targets, and every described model has. -/
theorem targets_ok_iff :
    (∃ ts, ms.targets k = .ok ts) ↔ ∃ ds, (ms.model k).describe = .ok ds := by
  constructor
  · rintro ⟨ts, h⟩
    obtain ⟨ds, hds, -⟩ := bind_eq_ok.1 h
    exact ⟨ds, hds⟩
  · rintro ⟨ds, hds⟩
    exact ⟨_, bind_eq_ok.2 ⟨ds, hds, rfl⟩⟩

/-- The targets of a model are the models it refers to. -/
theorem mem_targets_iff {ts : List (Fin n)} (h : ms.targets k = .ok ts) {j : Fin n} :
    j ∈ ts ↔ ms.Refers k j := by
  obtain ⟨ds, hds, h⟩ := bind_eq_ok.1 h
  cases h
  have htypes := EntityModel.describe_types hds
  rw [show ds.filterMap (fun d => d.type.relation.map (·.model))
      = (ds.map (·.type)).filterMap (fun type => type.relation.map (·.model)) by
    rw [List.filterMap_map]; rfl, htypes]
  simp only [List.filterMap_map, List.mem_filterMap, Function.comp_apply, Option.map_eq_some_iff,
    Refers, Option.mem_def]

/-! ## One step of the traversal -/

variable {claims : KeyMap String} {tasks : List (ClosureTask n)} {out : List (Fin n)}

/-- A model whose table its own type has claimed is passed over. -/
theorem resolve_claimed (h : claims.get? (ms.model k).table = some (ms.model k).origin) :
    ms.resolve claims (.visit k :: tasks) = ms.resolve claims tasks := by
  rw [resolve]
  split
  · rename_i owner howner
    rw [h, Option.some.injEq] at howner
    rw [if_pos howner.symm]
  · rename_i hfree
    rw [h] at hfree
    cases hfree

/-- A model whose table another type has claimed ends the traversal. -/
theorem resolve_foreign {owner : String} (h : claims.get? (ms.model k).table = some owner)
    (hne : ¬ owner = (ms.model k).origin) :
    ms.resolve claims (.visit k :: tasks)
      = .error (.conflictingTypes (ms.model k).table owner (ms.model k).origin) := by
  rw [resolve]
  split
  · rename_i owner' howner
    rw [h, Option.some.injEq] at howner
    rw [← howner, if_neg hne]
  · rename_i hfree
    rw [h] at hfree
    cases hfree

/-- A model whose table is free claims it, and is listed after everything it refers to. -/
theorem resolve_free (h : claims.get? (ms.model k).table = none) :
    ms.resolve claims (.visit k :: tasks) = (do
      let targets ← ms.targets k
      ms.resolve (claims.insert (ms.model k).table (ms.model k).origin)
        (targets.map .visit ++ .list k :: tasks)) := by
  rw [resolve]
  split
  · rename_i owner howner
    rw [h] at howner
    cases howner
  · rfl

/-! ## What a finished traversal has found -/

/-- Whether a table belongs to the type of a model, by an earlier claim or because a model of that
type was found. -/
def Settled (ms : Models n) (claims : KeyMap String) (found : List (Fin n)) (j : Fin n) : Prop :=
  claims.get? (ms.model j).table = some (ms.model j).origin ∨
    ∃ i ∈ found, ms.identity i = ms.identity j

/-- What a traversal has found once it has carried out its tasks. -/
structure Explored (ms : Models n) (claims : KeyMap String) (tasks : List (ClosureTask n))
    (found : List (Fin n)) : Prop where
  tables_nodup : (found.map fun j => (ms.model j).table).Nodup
  free : ∀ j ∈ found, claims.get? (ms.model j).table = none
  described : ∀ j ∈ found, ∃ ts, ms.targets j = .ok ts
  visited : ∀ j, .visit j ∈ tasks → ms.Settled claims found j
  closed : ∀ i ∈ found, ∀ j, ms.Refers i j → ms.Settled claims found j
  reached : ∀ j ∈ found, ∃ i, .visit i ∈ tasks ∧ Relation.ReflTransGen ms.Refers i j

/-- A model that is settled after another has claimed its table was that one, or was settled
before. -/
theorem Settled.of_insert {found : List (Fin n)} {j : Fin n}
    (h : ms.Settled (claims.insert (ms.model k).table (ms.model k).origin) found j) :
    ms.Settled claims (k :: found) j := by
  rcases h with h | ⟨i, hi, heq⟩
  · rw [KeyMap.get?_insert] at h
    split at h
    · rename_i htable
      exact .inr ⟨k, List.mem_cons_self, Prod.ext htable.symm (Option.some.inj h)⟩
    · exact .inl h
  · exact .inr ⟨i, List.mem_cons_of_mem _ hi, heq⟩

/-- The step of a traversal that claims a free table, seen from what the rest of it has found. -/
theorem Explored.of_insert {ts found : List (Fin n)} (hfree : claims.get? (ms.model k).table = none)
    (hts : ms.targets k = .ok ts)
    (h : ms.Explored (claims.insert (ms.model k).table (ms.model k).origin)
      (ts.map .visit ++ .list k :: tasks) found) :
    ms.Explored claims (.visit k :: tasks) (k :: found) where
  tables_nodup := by
    rw [List.map_cons, List.nodup_cons]
    refine ⟨fun hmem => ?_, h.tables_nodup⟩
    obtain ⟨j, hj, htable⟩ := List.mem_map.1 hmem
    have hclaimed := h.free j hj
    rw [KeyMap.get?_insert, if_pos htable] at hclaimed
    cases hclaimed
  free j hj := by
    rcases List.mem_cons.1 hj with rfl | hj
    · exact hfree
    · have hclaimed := h.free j hj
      rw [KeyMap.get?_insert] at hclaimed
      split at hclaimed
      · cases hclaimed
      · exact hclaimed
  described j hj := by
    rcases List.mem_cons.1 hj with rfl | hj
    · exact ⟨ts, hts⟩
    · exact h.described j hj
  visited j hj := by
    rcases List.mem_cons.1 hj with heq | hj
    · cases heq
      exact .inr ⟨k, List.mem_cons_self, rfl⟩
    · exact (h.visited j (by simp [hj])).of_insert
  closed i hi j hij := by
    rcases List.mem_cons.1 hi with rfl | hi
    · have hvisit : ClosureTask.visit j ∈ ts.map .visit ++ .list i :: tasks := by
        simp [(mem_targets_iff hts).2 hij]
      exact (h.visited j hvisit).of_insert
    · exact (h.closed i hi j hij).of_insert
  reached j hj := by
    rcases List.mem_cons.1 hj with rfl | hj
    · exact ⟨j, List.mem_cons_self, .refl⟩
    · obtain ⟨i, hi, hij⟩ := h.reached j hj
      rcases List.mem_append.1 hi with hi | hi
      · -- found below `k`: the path starts with a reference of `k`
        obtain ⟨i', hi', heq⟩ := List.mem_map.1 hi
        cases heq
        exact ⟨k, List.mem_cons_self, .head ((mem_targets_iff hts).1 hi') hij⟩
      · rcases List.mem_cons.1 hi with heq | hi
        · cases heq
        · exact ⟨i, List.mem_cons_of_mem _ hi, hij⟩

/-- A traversal lists what it finds and what it was asked to list, each once. -/
theorem resolve_ok (h : ms.resolve claims tasks = .ok out) :
    ∃ found, ms.Explored claims tasks found ∧
      out.Perm (found ++ tasks.filterMap (·.listed?)) := by
  -- By induction on the traversal: what is found is what the rest of the tasks find, and the model
  -- that claims a table.
  induction claims, tasks using resolve.induct ms generalizing out with
  | case1 claims =>
      rw [resolve] at h
      cases h
      refine ⟨[], ⟨List.nodup_nil, ?_, ?_, ?_, ?_, ?_⟩, .refl _⟩ <;> simp
  | case2 claims k tasks ih =>
      rw [resolve] at h
      obtain ⟨rest, hrest, h⟩ := bind_eq_ok.1 h
      cases h
      obtain ⟨found, hfound, hperm⟩ := ih hrest
      refine ⟨found, ⟨hfound.tables_nodup, hfound.free, hfound.described, ?_, hfound.closed, ?_⟩,
        ?_⟩
      · intro j hj
        exact hfound.visited j (by simpa using hj)
      · intro j hj
        obtain ⟨i, hi, hij⟩ := hfound.reached j hj
        exact ⟨i, List.mem_cons_of_mem _ hi, hij⟩
      · have hlisted : (ClosureTask.list k :: tasks).filterMap (·.listed?)
            = k :: tasks.filterMap (·.listed?) := rfl
        rw [hlisted]
        exact (hperm.cons k).trans List.perm_middle.symm
  | case3 claims k tasks hclaimed ih =>
      rw [resolve_claimed hclaimed] at h
      obtain ⟨found, hfound, hperm⟩ := ih h
      refine ⟨found, ⟨hfound.tables_nodup, hfound.free, hfound.described, ?_, hfound.closed, ?_⟩,
        hperm⟩
      · intro j hj
        rcases List.mem_cons.1 hj with heq | hj
        · cases heq
          exact .inl hclaimed
        · exact hfound.visited j hj
      · intro j hj
        obtain ⟨i, hi, hij⟩ := hfound.reached j hj
        exact ⟨i, List.mem_cons_of_mem _ hi, hij⟩
  | case4 claims k tasks owner howner hne =>
      rw [resolve_foreign howner hne] at h
      cases h
  | case5 claims k tasks hfree ih =>
      rw [resolve_free hfree] at h
      obtain ⟨ts, hts, h⟩ := bind_eq_ok.1 h
      obtain ⟨found, hfound, hperm⟩ := ih ts h
      refine ⟨k :: found, hfound.of_insert hfree hts, ?_⟩
      have hlisted : (ts.map ClosureTask.visit ++ .list k :: tasks).filterMap (·.listed?)
          = k :: tasks.filterMap (·.listed?) := by
        rw [List.filterMap_append, List.filterMap_map]
        simp [Function.comp_def, ClosureTask.listed?]
      rw [hlisted] at hperm
      exact hperm.trans List.perm_middle

/-- A traversal succeeds among models that can be described, that refer only to each other, and
whose tables nobody else has claimed. -/
theorem resolve_succeeds {S : Set (Fin n)} (hdescribed : ∀ j ∈ S, ∃ ts, ms.targets j = .ok ts)
    (hclosed : ∀ i ∈ S, ∀ j, ms.Refers i j → j ∈ S)
    (htables : Set.InjOn (fun j => (ms.model j).table) S)
    (hvisit : ∀ j, .visit j ∈ tasks → j ∈ S)
    (hclaims : ∀ j ∈ S, ∀ owner, claims.get? (ms.model j).table = some owner →
      owner = (ms.model j).origin) :
    ∃ out, ms.resolve claims tasks = .ok out := by
  induction claims, tasks using resolve.induct ms with
  | case1 claims => exact ⟨[], by rw [resolve]⟩
  | case2 claims k tasks ih =>
      obtain ⟨rest, hrest⟩ := ih (fun j hj => hvisit j (List.mem_cons_of_mem _ hj)) hclaims
      exact ⟨k :: rest, by rw [resolve, hrest]; rfl⟩
  | case3 claims k tasks hclaimed ih =>
      rw [resolve_claimed hclaimed]
      exact ih (fun j hj => hvisit j (List.mem_cons_of_mem _ hj)) hclaims
  | case4 claims k tasks owner howner hne =>
      exact absurd (hclaims k (hvisit k List.mem_cons_self) owner howner) hne
  | case5 claims k tasks hfree ih =>
      have hk : k ∈ S := hvisit k List.mem_cons_self
      obtain ⟨ts, hts⟩ := hdescribed k hk
      rw [resolve_free hfree, hts]
      refine ih ts (fun j hj => ?_) (fun j hj owner howner => ?_)
      · rcases List.mem_append.1 hj with hj | hj
        · obtain ⟨i, hi, heq⟩ := List.mem_map.1 hj
          cases heq
          exact hclosed k hk j ((mem_targets_iff hts).1 hi)
        · refine hvisit j (List.mem_cons_of_mem _ ?_)
          simpa using hj
      · rw [KeyMap.get?_insert] at howner
        split at howner
        · rename_i htable
          rw [htables hj hk htable]
          exact (Option.some.inj howner).symm
        · exact hclaims j hj owner howner

/-! ## The closure of a model -/

/-- The claims with which the traversal from a model starts. -/
def ownClaim (ms : Models n) (k : Fin n) : KeyMap String :=
  KeyMap.empty.insert (ms.model k).table (ms.model k).origin

/-- Whatever is settled below a model is found there, or is the model itself. -/
theorem Settled.mem_of_ownClaim {found : List (Fin n)} {j : Fin n}
    (hident : Set.InjOn ms.identity (ms.closure k)) (hfound : ∀ i ∈ found, i ∈ ms.closure k)
    (hj : j ∈ ms.closure k) (h : ms.Settled (ms.ownClaim k) found j) : j = k ∨ j ∈ found := by
  rcases h with h | ⟨i, hi, heq⟩
  · rw [ownClaim, KeyMap.get?_insert, KeyMap.get?_empty] at h
    split at h
    · rename_i htable
      exact .inl (hident hj (.inl rfl) (Prod.ext htable (Option.some.inj h).symm))
    · cases h
  · exact .inr (hident (hfound i hi) hj heq ▸ hi)

/-- The dependencies of a model are what the traversal from its targets finds. -/
theorem dependencies_ok {deps : List (Fin n)} (h : ms.dependencies k = .ok deps) :
    ∃ ts found, ms.targets k = .ok ts ∧ ms.Explored (ms.ownClaim k) (ts.map .visit) found ∧
      deps.Perm found := by
  obtain ⟨ts, hts, h⟩ := bind_eq_ok.1 h
  obtain ⟨found, hfound, hperm⟩ := resolve_ok h
  refine ⟨ts, found, hts, hfound, ?_⟩
  rwa [List.filterMap_map, show ts.filterMap ((·.listed?) ∘ ClosureTask.visit) = [] by
    simp [ClosureTask.listed?], List.append_nil] at hperm

/-- What the traversal from a model finds is its closure without the model itself. -/
theorem Explored.mem_iff {ts found : List (Fin n)}
    (hident : Set.InjOn ms.identity (ms.closure k)) (hts : ms.targets k = .ok ts)
    (h : ms.Explored (ms.ownClaim k) (ts.map .visit) found) (j : Fin n) :
    j ∈ found ↔ ms.Reaches k j ∧ j ≠ k := by
  have hreached : ∀ j ∈ found, ms.Reaches k j := by
    intro j hj
    obtain ⟨i, hi, hij⟩ := h.reached j hj
    obtain ⟨i', hi', heq⟩ := List.mem_map.1 hi
    cases heq
    exact .head' ((mem_targets_iff hts).1 hi') hij
  have hclosure : ∀ j ∈ found, j ∈ ms.closure k := fun j hj => .inr (hreached j hj)
  constructor
  · intro hj
    refine ⟨hreached j hj, ?_⟩
    rintro rfl
    have hfree := h.free j hj
    rw [ownClaim, KeyMap.get?_insert, if_pos rfl] at hfree
    cases hfree
  · rintro ⟨hj, hne⟩
    refine (?_ : j = k ∨ j ∈ found).resolve_left hne
    -- one reference leads from `k` to a target, or from a found model to a settled one
    have hstep : ∀ i j, i = k ∨ i ∈ found → i ∈ ms.closure k → ms.Refers i j →
        j = k ∨ j ∈ found := by
      intro i j hi hclosed hij
      refine Settled.mem_of_ownClaim hident hclosure (closure_refers hclosed hij) ?_
      rcases hi with rfl | hi
      · exact h.visited j (List.mem_map_of_mem ((mem_targets_iff hts).2 hij))
      · exact h.closed i hi j hij
    induction hj with
    | single hkj => exact hstep k _ (.inl rfl) (.inl rfl) hkj
    | @tail b c hkb hbc ih =>
        refine hstep b c ?_ (.inr hkb) hbc
        by_cases hb : b = k
        · exact .inl hb
        · exact ih hb

/-- A model and what the traversal from it finds have different tables. -/
theorem Explored.own_tables_nodup {tasks : List (ClosureTask n)} {found : List (Fin n)}
    (h : ms.Explored (ms.ownClaim k) tasks found) :
    ((k :: found).map fun j => (ms.model j).table).Nodup := by
  rw [List.map_cons, List.nodup_cons]
  refine ⟨fun hmem => ?_, h.tables_nodup⟩
  obtain ⟨j, hj, htable⟩ := List.mem_map.1 hmem
  have hfree := h.free j hj
  rw [ownClaim, KeyMap.get?_insert, if_pos htable] at hfree
  cases hfree

/-- The models of a closure that was found have tables of their own. -/
theorem Explored.tables_injOn {ts found : List (Fin n)}
    (hident : Set.InjOn ms.identity (ms.closure k)) (hts : ms.targets k = .ok ts)
    (h : ms.Explored (ms.ownClaim k) (ts.map .visit) found) :
    Set.InjOn (fun j => (ms.model j).table) (ms.closure k) := by
  have hmem : ∀ j ∈ ms.closure k, j ∈ k :: found := by
    intro j hj
    by_cases hne : j = k
    · exact hne ▸ List.mem_cons_self
    · exact List.mem_cons_of_mem _ ((h.mem_iff hident hts j).2 ⟨hj.resolve_left hne, hne⟩)
  exact fun i hi j hj => List.inj_on_of_nodup_map h.own_tables_nodup (hmem i hi) (hmem j hj)

/-- Among models that can be described, each with a table of its own, the dependencies exist. -/
theorem dependencies_succeeds
    (hdescribed : ∀ j ∈ ms.closure k, ∃ ds, (ms.model j).describe = .ok ds)
    (htables : Set.InjOn (fun j => (ms.model j).table) (ms.closure k)) :
    ∃ deps, ms.dependencies k = .ok deps := by
  have htargets : ∀ j ∈ ms.closure k, ∃ ts, ms.targets j = .ok ts :=
    fun j hj => targets_ok_iff.2 (hdescribed j hj)
  obtain ⟨ts, hts⟩ := htargets k (.inl rfl)
  have hvisit : ∀ j, .visit j ∈ ts.map ClosureTask.visit → j ∈ ms.closure k := by
    intro j hj
    obtain ⟨i, hi, heq⟩ := List.mem_map.1 hj
    cases heq
    exact .inr (.single ((mem_targets_iff hts).1 hi))
  have hclaims : ∀ j ∈ ms.closure k, ∀ owner, (ms.ownClaim k).get? (ms.model j).table = some owner →
      owner = (ms.model j).origin := by
    intro j hj owner howner
    rw [ownClaim, KeyMap.get?_insert, KeyMap.get?_empty] at howner
    split at howner
    · rename_i htable
      rw [htables hj (.inl rfl) htable]
      exact (Option.some.inj howner).symm
    · cases howner
  have hclosed : ∀ i ∈ ms.closure k, ∀ j, ms.Refers i j → j ∈ ms.closure k :=
    fun i hi j hij => closure_refers hi hij
  obtain ⟨deps, hdeps⟩ := resolve_succeeds htargets hclosed htables hvisit hclaims
  exact ⟨deps, bind_eq_ok.2 ⟨ts, hts, hdeps⟩⟩

/-- The dependencies of a model exist exactly when every model of its closure can be described and
has a table of its own. They are then the models it reaches other than itself, each once. -/
theorem dependencies_list_closure (ms : Models n) (k : Fin n)
    (hident : Set.InjOn ms.identity (ms.closure k)) :
    ((∃ deps, ms.dependencies k = .ok deps) ↔
      (∀ j ∈ ms.closure k, ∃ ds, (ms.model j).describe = .ok ds) ∧
        Set.InjOn (fun j => (ms.model j).table) (ms.closure k)) ∧
      ∀ deps, ms.dependencies k = .ok deps →
        deps.Nodup ∧ ∀ j, j ∈ deps ↔ ms.Reaches k j ∧ j ≠ k := by
  refine ⟨⟨?_, fun h => dependencies_succeeds h.1 h.2⟩, fun deps hdeps => ?_⟩
  · rintro ⟨deps, hdeps⟩
    obtain ⟨ts, found, hts, hfound, -⟩ := dependencies_ok hdeps
    refine ⟨fun j hj => targets_ok_iff.1 ?_, hfound.tables_injOn hident hts⟩
    by_cases hne : j = k
    · exact ⟨ts, hne ▸ hts⟩
    · exact hfound.described j ((hfound.mem_iff hident hts j).2 ⟨hj.resolve_left hne, hne⟩)
  · obtain ⟨ts, found, hts, hfound, hperm⟩ := dependencies_ok hdeps
    refine ⟨hperm.nodup_iff.2 (List.Nodup.of_map _ hfound.tables_nodup), fun j => ?_⟩
    rw [hperm.mem_iff]
    exact hfound.mem_iff hident hts j

/-- Three models in a ring: each refers to the next one and all refer to the first. -/
def threeInRing : Models 3 := ⟨fun k =>
  { ident := "Node", path := "ring", explicitName := some ("ring." ++ k.val.repr)
    fields := [⟨"id", "id key auto", .integer .int64⟩, ⟨"next", "next", .list (.entity (k + 1))⟩,
      ⟨"first", "first", .boxed (.entity 0)⟩]
    offered := none }⟩

/-- The first model of the ring reaches itself and depends on the other two only. -/
theorem threeInRing_dependencies :
    Set.InjOn threeInRing.identity (threeInRing.closure 0) ∧
      ∃ deps, threeInRing.dependencies 0 = .ok deps ∧ deps.Nodup ∧
        ∀ j, j ∈ deps ↔ threeInRing.Reaches 0 j ∧ j ≠ 0 := by
  have htables : ∀ i j, (threeInRing.model i).table = (threeInRing.model j).table → i = j := by
    decide +kernel
  have hdescribed : ∀ j, ∃ ds, (threeInRing.model j).describe = .ok ds := by
    intro j
    have hok : ∀ j, (threeInRing.model j).describe.isOk = true := by decide +kernel
    cases h : (threeInRing.model j).describe with
    | ok ds => exact ⟨ds, rfl⟩
    | error e => exact absurd (hok j) (by simp [h, Except.isOk, Except.toBool])
  have hident : Set.InjOn threeInRing.identity (threeInRing.closure 0) :=
    fun i _ j _ h => htables i j (congrArg Prod.fst h)
  obtain ⟨hok, hlist⟩ := dependencies_list_closure threeInRing 0 hident
  obtain ⟨deps, hdeps⟩ := hok.2 ⟨fun j _ => hdescribed j, fun i _ j _ h => htables i j h⟩
  exact ⟨hident, deps, hdeps, hlist deps hdeps⟩

end Models

end EntityMapper
