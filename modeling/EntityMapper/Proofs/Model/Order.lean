import EntityMapper.Proofs.Model.Closure

/-!
# In which order a closure is listed

A traversal lists a model once everything below it is listed. Two models that refer to each other
cannot both come first, so the law is about one direction: a model stands after another that it
refers to, unless that one leads back to it. The proof goes along the traversal. When a model is
listed, each target of it was claimed before, so a target that is not listed yet is one whose visit
is still under way, and everything found during that visit is reached from it.
-/

namespace EntityMapper

variable {n : Nat}

namespace Models

variable {ms : Models n} {k : Fin n} {claims : KeyMap String} {out : List (Fin n)}

/-- A traversal carries out the first of its tasks and then the others, among the claims that the
first ones leave: nothing that was claimed is free again, and all that was to be visited is
claimed. -/
theorem resolve_append {tasks later : List (ClosureTask n)}
    (h : ms.resolve claims (tasks ++ later) = .ok out) :
    ∃ first rest left, ms.resolve claims tasks = .ok first ∧ ms.resolve left later = .ok rest ∧
      out = first ++ rest ∧
      (∀ table, left.get? table = none → claims.get? table = none) ∧
      ∀ j, .visit j ∈ tasks → left.get? (ms.model j).table ≠ none := by
  induction claims, tasks using resolve.induct ms generalizing out with
  | case1 claims =>
      refine ⟨[], out, claims, by rw [resolve], h, rfl, fun _ hfree => hfree, ?_⟩
      simp
  | case2 claims k tasks ih =>
      rw [List.cons_append, resolve] at h
      obtain ⟨listed, hlisted, h⟩ := bind_eq_ok.1 h
      cases h
      obtain ⟨first, rest, left, hfirst, hrest, rfl, hfree, hvisited⟩ := ih hlisted
      refine ⟨k :: first, rest, left, ?_, hrest, rfl, hfree, ?_⟩
      · rw [resolve, hfirst]
        rfl
      · intro j hj
        exact hvisited j (by simpa using hj)
  | case3 claims k tasks hclaimed ih =>
      rw [List.cons_append, resolve_claimed hclaimed] at h
      obtain ⟨first, rest, left, hfirst, hrest, hout, hfree, hvisited⟩ := ih h
      refine ⟨first, rest, left, by rw [resolve_claimed hclaimed, hfirst], hrest, hout, hfree, ?_⟩
      intro j hj
      rcases List.mem_cons.1 hj with heq | hj
      · cases heq
        intro hnone
        rw [hfree _ hnone] at hclaimed
        cases hclaimed
      · exact hvisited j hj
  | case4 claims k tasks owner howner hne =>
      rw [List.cons_append, resolve_foreign howner hne] at h
      cases h
  | case5 claims k tasks hk ih =>
      rw [List.cons_append, resolve_free hk] at h
      obtain ⟨ts, hts, h⟩ := bind_eq_ok.1 h
      obtain ⟨first, rest, left, hfirst, hrest, hout, hfree, hvisited⟩ := ih ts (by simpa using h)
      refine ⟨first, rest, left, ?_, hrest, hout, fun table hnone => ?_, fun j hj hnone => ?_⟩
      · rw [resolve_free hk, hts]
        exact hfirst
      · have hnone := hfree table hnone
        rw [KeyMap.get?_insert] at hnone
        split at hnone
        · cases hnone
        · exact hnone
      · rcases List.mem_cons.1 hj with heq | hj
        · cases heq
          have hclaimed := hfree _ hnone
          rw [KeyMap.get?_insert, if_pos rfl] at hclaimed
          cases hclaimed
        · exact hvisited j (by simp [hj]) hnone

/-- What a traversal lists was free, or is listed by one of its tasks. -/
theorem free_or_pending {tasks : List (ClosureTask n)} (h : ms.resolve claims tasks = .ok out)
    {j : Fin n} (hj : j ∈ out) :
    claims.get? (ms.model j).table = none ∨ .list j ∈ tasks := by
  obtain ⟨found, hfound, hperm⟩ := resolve_ok h
  rcases List.mem_append.1 (hperm.mem_iff.1 hj) with hj | hj
  · exact .inl (hfound.free j hj)
  · obtain ⟨task, htask, hlisted⟩ := List.mem_filterMap.1 hj
    cases task with
    | visit i => cases hlisted
    | list i =>
        cases hlisted
        exact .inr htask

/-- What the visits of the targets of a model list is reached from the model. -/
theorem reaches_of_targets {ts : List (Fin n)} (hts : ms.targets k = .ok ts)
    (h : ms.resolve claims (ts.map .visit) = .ok out) {j : Fin n} (hj : j ∈ out) :
    ms.Reaches k j := by
  obtain ⟨found, hfound, hperm⟩ := resolve_ok h
  have hfoundj : j ∈ found := by
    rcases List.mem_append.1 (hperm.mem_iff.1 hj) with hj | hj
    · exact hj
    · simp [ClosureTask.listed?] at hj
  obtain ⟨i, hi, hij⟩ := hfound.reached j hfoundj
  obtain ⟨i', hi', heq⟩ := List.mem_map.1 hi
  cases heq
  exact .head' ((mem_targets_iff hts).1 hi') hij

/-- Whether two models that are free among some claims may stand in this order: the second one may
be a target of the first only if it leads back to it. -/
def MayPrecede (ms : Models n) (claims : KeyMap String) (a b : Fin n) : Prop :=
  claims.get? (ms.model a).table = none → claims.get? (ms.model b).table = none →
    ms.Refers a b → ms.Reaches b a

/-- A traversal lists the models it finds leaves first as far as cycles allow. What its tasks list
is already under way, so its table is claimed. -/
theorem resolve_order {tasks : List (ClosureTask n)} (h : ms.resolve claims tasks = .ok out)
    (hpending : ∀ j, .list j ∈ tasks → claims.get? (ms.model j).table ≠ none) :
    out.Pairwise (ms.MayPrecede claims) := by
  -- By induction on the traversal. Where a model `k` claims its table the rest of the traversal
  -- orders all but the pairs with `k`: what stands before it was found below it, and what stands
  -- after it was still free when its targets were claimed.
  induction claims, tasks using resolve.induct ms generalizing out with
  | case1 claims =>
      rw [resolve] at h
      cases h
      exact .nil
  | case2 claims k tasks ih =>
      rw [resolve] at h
      obtain ⟨rest, hrest, h⟩ := bind_eq_ok.1 h
      cases h
      refine .cons (fun b _ hk => ?_)
        (ih hrest fun j hj => hpending j (List.mem_cons_of_mem _ hj))
      exact absurd hk (hpending k List.mem_cons_self)
  | case3 claims k tasks hclaimed ih =>
      rw [resolve_claimed hclaimed] at h
      exact ih h fun j hj => hpending j (List.mem_cons_of_mem _ hj)
  | case4 claims k tasks owner howner hne =>
      rw [resolve_foreign howner hne] at h
      cases h
  | case5 claims k tasks hk ih =>
      rw [resolve_free hk] at h
      obtain ⟨ts, hts, h⟩ := bind_eq_ok.1 h
      have hordered := ih ts h fun j hj hnone => by
        rw [KeyMap.get?_insert] at hnone
        split at hnone
        · cases hnone
        · rename_i hother
          rcases List.mem_append.1 hj with hj | hj
          · simp at hj
          · rcases List.mem_cons.1 hj with heq | hj
            · cases heq
              exact hother rfl
            · exact hpending j (List.mem_cons_of_mem _ hj) hnone
      obtain ⟨first, rest, left, hfirst, hrest, rfl, hfree, hvisited⟩ := resolve_append h
      rw [resolve] at hrest
      obtain ⟨rest, hlater, hrest⟩ := bind_eq_ok.1 hrest
      cases hrest
      -- a model other than `k` that was free is free after `k` has claimed its table
      have hstill : ∀ j ∈ first ++ rest, claims.get? (ms.model j).table = none →
          (claims.insert (ms.model k).table (ms.model k).origin).get? (ms.model j).table = none := by
        intro j hj hnone
        rcases List.mem_append.1 hj with hj | hj
        · rcases free_or_pending hfirst hj with hj | hj
          · exact hj
          · simp at hj
        · rcases free_or_pending hlater hj with hj | hj
          · exact hfree _ hj
          · exact absurd hnone (hpending j (List.mem_cons_of_mem _ hj))
      have hbelow : ∀ a ∈ first, ms.MayPrecede claims a k :=
        fun a ha _ _ _ => reaches_of_targets hts hfirst ha
      have habove : ∀ b ∈ rest, ms.MayPrecede claims k b := by
        intro b hb _ hnone hkb
        have hclaimed := hvisited b (List.mem_map_of_mem ((mem_targets_iff hts).2 hkb))
        rcases free_or_pending hlater hb with hb | hb
        · exact absurd hb hclaimed
        · exact absurd hnone (hpending b (List.mem_cons_of_mem _ hb))
      have hothers : (first ++ rest).Pairwise (ms.MayPrecede claims) := by
        have hsub : (first ++ rest).Sublist (first ++ k :: rest) :=
          (List.sublist_cons_self k rest).append_left first
        exact (hordered.sublist hsub).imp_of_mem
          fun ha hb hab hfa hfb => hab (hstill _ ha hfa) (hstill _ hb hfb)
      rw [List.pairwise_append] at hothers ⊢
      refine ⟨hothers.1, .cons habove hothers.2.1, fun a ha b hb => ?_⟩
      rcases List.mem_cons.1 hb with rfl | hb
      · exact hbelow a ha
      · exact hothers.2.2 a ha b hb

/-- The dependencies of a model are ordered by their references: of two of them, the later one is a
target of the earlier one only if it leads back to it. -/
theorem dependencies_order {deps : List (Fin n)} (h : ms.dependencies k = .ok deps) :
    deps.Pairwise fun a b => ms.Refers a b → ms.Reaches b a := by
  obtain ⟨ts, hts, h⟩ := bind_eq_ok.1 h
  have hordered := resolve_order h (by simp)
  have hfree : ∀ j ∈ deps, (ms.ownClaim k).get? (ms.model j).table = none := by
    intro j hj
    exact (free_or_pending h hj).resolve_right (by simp)
  exact hordered.imp_of_mem fun ha hb hab => hab (hfree _ ha) (hfree _ hb)

/-- Each of the dependencies of a model stands after those that it refers to, except for the ones
that lead back to it. Where no model of the closure reaches itself, it stands after all that it
reaches. -/
theorem dependencies_leaves_first (ms : Models n) (k : Fin n) {deps : List (Fin n)}
    (h : ms.dependencies k = .ok deps) :
    deps.Nodup ∧ ∀ before a after, deps = before ++ a :: after →
      (∀ b ∈ deps, b ≠ a → ms.Refers a b → b ∈ before ∨ ms.Reaches b a) ∧
      ((∀ j ∈ ms.closure k, ¬ ms.Reaches j j) → Set.InjOn ms.identity (ms.closure k) →
        ∀ b, ms.Reaches a b → b ∈ before) := by
  obtain ⟨ts, found, hts, hfound, hperm⟩ := dependencies_ok h
  refine ⟨hperm.nodup_iff.2 (List.Nodup.of_map _ hfound.tables_nodup), ?_⟩
  rintro before a after rfl
  have hordered := dependencies_order h
  rw [List.pairwise_append, List.pairwise_cons] at hordered
  obtain ⟨-, ⟨hafter, -⟩, hbefore⟩ := hordered
  refine ⟨fun b hb hne hab => ?_, fun hacyclic hident b hab => ?_⟩
  · rcases List.mem_append.1 hb with hb | hb
    · exact .inl hb
    · exact .inr (hafter b ((List.mem_cons.1 hb).resolve_left hne) hab)
  · have hlisted : ∀ j, j ∈ before ++ a :: after ↔ ms.Reaches k j ∧ j ≠ k := by
      intro j
      rw [hperm.mem_iff]
      exact hfound.mem_iff hident hts j
    have hka : ms.Reaches k a := ((hlisted a).1 (by simp)).1
    -- whatever `a` reaches is listed, since it cannot be `k` itself
    have hmem : ∀ b, ms.Reaches a b → b ∈ before ++ a :: after := by
      intro b hab
      refine (hlisted b).2 ⟨hka.trans hab, ?_⟩
      rintro rfl
      exact hacyclic _ (.inl rfl) (hka.trans hab)
    have hback : ∀ i j, ms.Reaches k i → ms.Refers i j → ¬ ms.Reaches j i :=
      fun i j hki hij hji => hacyclic i (.inr hki) (.head hij hji)
    induction hab with
    | @single b hab =>
        rcases List.mem_append.1 (hmem b (.single hab)) with hb | hb
        · exact hb
        · rcases List.mem_cons.1 hb with rfl | hb
          · exact absurd (.single hab) (hacyclic _ (.inr hka))
          · exact absurd (hafter b hb hab) (hback a b hka hab)
    | @tail c b hac hcb ih =>
        rcases List.mem_append.1 (hmem b (hac.tail hcb)) with hb | hb
        · exact hb
        · exact absurd (hbefore c ih b hb hcb) (hback c b (hka.trans hac) hcb)

/-- Two models that share what they refer to: the first refers to the second and the third, and
both of them to the fourth. -/
def diamond : Models 4 := .ofVector #v[
  { ident := "Order", path := "shop", explicitName := none, offered := none
    fields := [⟨"id", "id key auto", .integer .int64⟩, ⟨"buyer", "buyer", .entity 1⟩,
      ⟨"items", "items", .list (.entity 2)⟩] },
  { ident := "Buyer", path := "shop", explicitName := none, offered := none
    fields := [⟨"id", "id key auto", .integer .int64⟩, ⟨"town", "town", .entity 3⟩] },
  { ident := "Item", path := "shop", explicitName := none, offered := none
    fields := [⟨"id", "id key auto", .integer .int64⟩, ⟨"origin", "origin", .nullable (.entity 3)⟩] },
  { ident := "Town", path := "shop", explicitName := none, offered := none
    fields := [⟨"id", "id key auto", .integer .int64⟩] }]

/-- In the diamond the last model stands before one that refers to it. -/
theorem diamond_leaves_first :
    ∃ deps, diamond.dependencies 0 = .ok deps ∧ 2 ∈ deps ∧
      ∀ before after, deps = before ++ 2 :: after → 3 ∈ before := by
  have htables : ∀ i j, (diamond.model i).table = (diamond.model j).table → i = j := by
    decide +kernel
  have hdescribed : ∀ j, ∃ ds, (diamond.model j).describe = .ok ds := by
    intro j
    have hok : ∀ j, (diamond.model j).describe.isOk = true := by decide +kernel
    cases h : (diamond.model j).describe with
    | ok ds => exact ⟨ds, rfl⟩
    | error e => exact absurd (hok j) (by simp [h, Except.isOk, Except.toBool])
  have hident : Set.InjOn diamond.identity (diamond.closure 0) :=
    fun i _ j _ h => htables i j (congrArg Prod.fst h)
  have hdown : ∀ i j, diamond.Reaches i j → i.val < j.val := by
    have hrefers : ∀ i, ∀ f ∈ (diamond.model i).fields, ∀ r ∈ f.type.classify.relation,
        i.val < r.model.val := by decide +kernel
    have hstep : ∀ i j, diamond.Refers i j → i.val < j.val := by
      rintro i j ⟨f, hf, r, hr, rfl⟩
      exact hrefers i f hf r hr
    intro i j hij
    induction hij with
    | single hij => exact hstep _ _ hij
    | tail _ hij ih => exact ih.trans (hstep _ _ hij)
  have hitems : diamond.Refers 0 2 :=
    ⟨⟨"items", "items", .list (.entity 2)⟩, by decide +kernel, ⟨2, false⟩, rfl, rfl⟩
  have horigin : diamond.Refers 2 3 :=
    ⟨⟨"origin", "origin", .nullable (.entity 3)⟩, by decide +kernel, ⟨3, true⟩, rfl, rfl⟩
  obtain ⟨deps, hdeps⟩ := dependencies_succeeds (fun j _ => hdescribed j)
    (fun i _ j _ h => htables i j h)
  obtain ⟨ts, found, hts, hfound, hperm⟩ := dependencies_ok hdeps
  refine ⟨deps, hdeps, hperm.mem_iff.2 ?_, fun before after hsplit => ?_⟩
  · exact (hfound.mem_iff hident hts 2).2 ⟨.single hitems, by decide⟩
  · obtain ⟨-, hleaves⟩ := dependencies_leaves_first diamond 0 hdeps
    exact (hleaves before 2 after hsplit).2 (fun j _ hj => absurd (hdown j j hj) (Nat.lt_irrefl _))
      hident 3 (.single horigin)

end Models

end EntityMapper
