import EntityMapper.Proofs.Model.Closure

/-!
# The names of link tables

A link table is named by the owner's table, the field, the digit 2 and the dependency's table, run
together. Two fields share a name exactly when one spelling can be read as the other: the end of a
table as the start of a field, or a 2 inside a table as the one between the parts.
-/

namespace EntityMapper

variable {n : Nat}

/-- Two ways of writing one text as a pair differ by what one of them moves across. -/
theorem append_eq_append_iff {s t u v : String} :
    s ++ t = u ++ v ↔ (∃ w, u = s ++ w ∧ t = w ++ v) ∨ ∃ w, s = u ++ w ∧ v = w ++ t := by
  constructor
  · intro h
    have h' := congrArg String.toList h
    rw [String.toList_append, String.toList_append, List.append_eq_append_iff] at h'
    rcases h' with ⟨w, hu, ht⟩ | ⟨w, hs, hv⟩
    · refine .inl ⟨String.ofList w, ?_, ?_⟩ <;> rw [← String.toList_inj] <;> simp [hu, ht]
    · refine .inr ⟨String.ofList w, ?_, ?_⟩ <;> rw [← String.toList_inj] <;> simp [hs, hv]
  · rintro (⟨w, rfl, rfl⟩ | ⟨w, rfl, rfl⟩) <;> rw [String.append_assoc]

/-- Two ways of writing one text around a 2: around the same one, or around one of two. -/
theorem around_two_eq_iff {s t u v : String} :
    s ++ "2" ++ t = u ++ "2" ++ v ↔ (s = u ∧ t = v) ∨
      (∃ w, u = s ++ "2" ++ w ∧ t = w ++ "2" ++ v) ∨
        ∃ w, s = u ++ "2" ++ w ∧ v = w ++ "2" ++ t := by
  -- The last character of what follows the first 2 tells whether it is the same 2.
  have hlast : ∀ x y z : String, x ++ "2" ++ z = y ++ "2" →
      (x = y ∧ z = "") ∨ ∃ w, y = x ++ "2" ++ w ∧ z = w ++ "2" := by
    intro x y z h
    rcases z.toList.eq_nil_or_concat with hz | ⟨w, c, hz⟩
    · have hz : z = "" := String.toList_inj.1 hz
      rw [hz, String.append_empty, String.append_left_inj] at h
      exact .inl ⟨h, hz⟩
    · have h' := congrArg String.toList h
      rw [String.toList_append, hz, String.toList_append (s := y), List.concat_eq_append,
        ← List.append_assoc] at h'
      obtain ⟨hy, hc⟩ := List.append_inj' h' rfl
      refine .inr ⟨String.ofList w, ?_, ?_⟩ <;> rw [← String.toList_inj]
      · simpa using hy.symm
      · simp [hz, List.concat_eq_append, hc]
  constructor
  · intro h
    rcases append_eq_append_iff.1 h with ⟨w, hu, ht⟩ | ⟨w, hs, hv⟩
    · rcases hlast s u w hu.symm with ⟨rfl, rfl⟩ | ⟨w, rfl, rfl⟩
      · exact .inl ⟨rfl, by simpa using ht⟩
      · exact .inr (.inl ⟨w, rfl, ht⟩)
    · rcases hlast u s w hs.symm with ⟨rfl, rfl⟩ | ⟨w, rfl, rfl⟩
      · exact .inl ⟨rfl, by simpa using hv.symm⟩
      · exact .inr (.inr ⟨w, rfl, hv⟩)
  · rintro (⟨rfl, rfl⟩ | ⟨w, rfl, rfl⟩ | ⟨w, rfl, rfl⟩) <;> simp [String.append_assoc]

namespace Models

variable (ms : Models n)

/-- The relations that the models of a list declare, model by model. -/
def relationsOf (entities : List (Fin n)) : Except MapperError (List (Relation n)) := do
  return (← entities.mapM ms.relations).flatten

/-- Whether every field has a link table of its own: different fields have different link tables,
and none of these is the table of a model. -/
def OwnLinkTables (entities : List (Fin n)) (rs : List (Relation n)) : Prop :=
  (∀ r ∈ rs, ∀ s ∈ rs, (r.owner, r.field) ≠ (s.owner, s.field) → ms.linkTable r ≠ ms.linkTable s) ∧
    ∀ r ∈ rs, ∀ j ∈ entities, ms.linkTable r ≠ (ms.model j).table

instance (entities : List (Fin n)) (rs : List (Relation n)) :
    Decidable (ms.OwnLinkTables entities rs) :=
  inferInstanceAs (Decidable (_ ∧ _))

/-- Whether the name of one link table can be read as that of another. -/
inductive Misread (r s : Relation n) : Prop
  /-- The end of one owner's table is the start of the other's field. -/
  | field (w : String) (hne : w ≠ "")
      (howner : (ms.model r.owner).table = (ms.model s.owner).table ++ w)
      (hfield : s.field = w ++ r.field)
      (hdependency : (ms.model r.dependency).table = (ms.model s.dependency).table)
  /-- A 2 inside one dependency's table is the one between the other's parts. -/
  | separator (w : String)
      (hleft : (ms.model r.owner).table ++ r.field
        = (ms.model s.owner).table ++ s.field ++ "2" ++ w)
      (hdependency : (ms.model s.dependency).table = w ++ "2" ++ (ms.model r.dependency).table)

variable {ms} {r s : Relation n}

theorem Misread.linkTable_eq (h : ms.Misread r s) : ms.linkTable r = ms.linkTable s := by
  unfold linkTable
  cases h with
  | field w hne howner hfield hdependency =>
      rw [howner, hfield, hdependency]
      simp [String.append_assoc]
  | separator w hleft hdependency =>
      rw [hleft, hdependency]
      simp [String.append_assoc]

/-- Only the names of different fields can be read as each other. -/
theorem Misread.fields_ne (h : ms.Misread r s) : (r.owner, r.field) ≠ (s.owner, s.field) := by
  intro heq
  obtain ⟨howner, hfield⟩ := Prod.ext_iff.1 heq
  cases h with
  | field w hne howner' hfield' hdependency =>
      have hfield : r.field = s.field := hfield
      rw [← hfield] at hfield'
      have hlength := congrArg String.length hfield'
      rw [String.length_append] at hlength
      exact hne (String.length_eq_zero_iff.1 (by omega))
  | separator w hleft hdependency =>
      have howner : r.owner = s.owner := howner
      have hfield : r.field = s.field := hfield
      have hlength := congrArg String.length hleft
      simp only [String.length_append, howner, hfield] at hlength
      have htwo : "2".length = 1 := by decide
      omega

/-- Two relations of different fields share a link table exactly when one name can be read as the
other. Owners are told apart by their tables. -/
theorem linkTable_eq_iff
    (howners : (ms.model r.owner).table = (ms.model s.owner).table → r.owner = s.owner)
    (hne : (r.owner, r.field) ≠ (s.owner, s.field)) :
    ms.linkTable r = ms.linkTable s ↔ ms.Misread r s ∨ ms.Misread s r := by
  constructor
  · intro h
    rcases around_two_eq_iff.1 h with ⟨hleft, hdependency⟩ | ⟨w, hleft, hdependency⟩ |
      ⟨w, hleft, hdependency⟩
    · -- the same 2: only the border between table and field can differ
      have hdiffer : (ms.model r.owner).table = (ms.model s.owner).table → r.field ≠ s.field := by
        intro howner hfield
        exact hne (by rw [howners howner, hfield])
      rcases append_eq_append_iff.1 hleft with ⟨w, howner, hfield⟩ | ⟨w, howner, hfield⟩
      · refine .inr (.field w (fun hw => ?_) howner hfield hdependency.symm)
        exact hdiffer (by simp [howner, hw]) (by simp [hfield, hw])
      · refine .inl (.field w (fun hw => ?_) howner hfield hdependency)
        exact hdiffer (by simp [howner, hw]) (by simp [hfield, hw])
    · exact .inr (.separator w hleft hdependency)
    · exact .inl (.separator w hleft hdependency)
  · rintro (h | h)
    · exact h.linkTable_eq
    · exact h.linkTable_eq.symm

/-- The relations that a model declares are its own. -/
theorem relations_owner {k : Fin n} {rs : List (Relation n)} (h : ms.relations k = .ok rs)
    (hr : r ∈ rs) : r.owner = k := by
  obtain ⟨ds, -, h⟩ := bind_eq_ok.1 h
  cases h
  obtain ⟨d, -, hd⟩ := List.mem_filterMap.1 hr
  obtain ⟨relation, -, rfl⟩ := Option.map_eq_some_iff.1 hd
  rfl

/-- The relations of described models can be listed, and each belongs to one of them. -/
theorem relationsOf_succeeds {entities : List (Fin n)}
    (h : ∀ j ∈ entities, ∃ ds, (ms.model j).describe = .ok ds) :
    ∃ rs, ms.relationsOf entities = .ok rs ∧ ∀ r ∈ rs, r.owner ∈ entities := by
  have hall : ∀ j ∈ entities, ∃ rs, ms.relations j = .ok rs := by
    intro j hj
    obtain ⟨ds, hds⟩ := h j hj
    exact ⟨_, bind_eq_ok.2 ⟨ds, hds, rfl⟩⟩
  obtain ⟨lists, hlists⟩ := mapM_succeeds hall
  refine ⟨lists.flatten, bind_eq_ok.2 ⟨lists, hlists, rfl⟩, fun r hr => ?_⟩
  obtain ⟨rs, hrs, hr⟩ := List.mem_flatten.1 hr
  obtain ⟨j, hj, hrelations⟩ := mem_of_mapM_eq_ok hlists hrs
  exact relations_owner hrelations hr ▸ hj

/-- In a closure every field has a link table of its own exactly when no name of a link table can
be read as that of another and no model has a table of such a name. -/
theorem ownLinkTables_iff {k : Fin n} {deps : List (Fin n)} (h : ms.dependencies k = .ok deps) :
    ∃ rs, ms.relationsOf (k :: deps) = .ok rs ∧
      (ms.OwnLinkTables (k :: deps) rs ↔
        (∀ r ∈ rs, ∀ s ∈ rs, ¬ ms.Misread r s) ∧
          ∀ r ∈ rs, ∀ j ∈ k :: deps, (ms.model j).table
            ≠ (ms.model r.owner).table ++ r.field ++ "2" ++ (ms.model r.dependency).table) := by
  obtain ⟨ts, found, hts, hfound, hperm⟩ := dependencies_ok h
  have hmem : ∀ j, j ∈ k :: deps → j ∈ k :: found := fun j hj => (hperm.cons k).mem_iff.1 hj
  have hdescribed : ∀ j ∈ k :: deps, ∃ ds, (ms.model j).describe = .ok ds := by
    intro j hj
    rcases List.mem_cons.1 (hmem j hj) with rfl | hj
    · exact targets_ok_iff.1 ⟨ts, hts⟩
    · exact targets_ok_iff.1 (hfound.described j hj)
  obtain ⟨rs, hrs, howner⟩ := relationsOf_succeeds hdescribed
  have howners : ∀ r ∈ rs, ∀ s ∈ rs, (ms.model r.owner).table = (ms.model s.owner).table →
      r.owner = s.owner := fun r hr s hs =>
    List.inj_on_of_nodup_map hfound.own_tables_nodup (hmem _ (howner r hr)) (hmem _ (howner s hs))
  refine ⟨rs, hrs, ?_, ?_⟩
  · rintro ⟨hfields, htables⟩
    refine ⟨fun r hr s hs hmisread => ?_, fun r hr j hj heq => htables r hr j hj heq.symm⟩
    exact hfields r hr s hs hmisread.fields_ne hmisread.linkTable_eq
  · rintro ⟨hmisread, htables⟩
    refine ⟨fun r hr s hs hne heq => ?_, fun r hr j hj heq => htables r hr j hj heq.symm⟩
    rcases (linkTable_eq_iff (howners r hr s hs) hne).1 heq with h | h
    · exact hmisread r hr s hs h
    · exact hmisread s hs r hr h

/-- A model whose records form a tree: each knows its parent and its children. -/
def tree : Models 1 := .ofVector #v[
  { ident := "Node", path := "tree", explicitName := none
    fields := [⟨"id", "id key auto", .integer .int64⟩,
      ⟨"parent", "parent", .nullable (.boxed (.entity 0))⟩,
      ⟨"children", "children", .list (.entity 0)⟩]
    offered := none }]

/-- The nodes of a tree need no other model. -/
theorem tree_dependencies : tree.dependencies 0 = .ok [] := by
  have htargets : tree.targets 0 = .ok [0, 0] := by decide +kernel
  rw [dependencies, htargets]
  change tree.resolve _ [.visit 0, .visit 0] = _
  rw [resolve_claimed (by decide +kernel), resolve_claimed (by decide +kernel), resolve]

/-- The two links of a tree have tables of their own, so neither name can be read as the other. -/
theorem tree_linkTables :
    tree.dependencies 0 = .ok [] ∧
      ∃ rs, tree.relationsOf [0] = .ok rs ∧ tree.OwnLinkTables [0] rs ∧
        ∀ r ∈ rs, ∀ s ∈ rs, ¬ tree.Misread r s := by
  obtain ⟨rs, hrs, hiff⟩ := ownLinkTables_iff tree_dependencies
  have hrelations : tree.relationsOf [0]
      = .ok [⟨0, "parent", 0, true⟩, ⟨0, "children", 0, false⟩] := by decide +kernel
  have hown : tree.OwnLinkTables [0] rs := by
    rw [hrelations] at hrs
    cases hrs
    decide +kernel
  exact ⟨tree_dependencies, rs, hrs, hown, (hiff.1 hown).1⟩

/-- A model with two relations whose link tables are spelled alike: the 2 between the parts of
one stands inside the field of the other. -/
def twoReadings : Models 3 := .ofVector #v[
  { ident := "A", path := "p", explicitName := some "a"
    fields := [⟨"id", "id key auto", .integer .int64⟩, ⟨"x2b", "x2b", .entity 1⟩,
      ⟨"x", "x", .entity 2⟩]
    offered := none },
  { ident := "C", path := "p", explicitName := some "c"
    fields := [⟨"id", "id key auto", .integer .int64⟩], offered := none },
  { ident := "B", path := "p", explicitName := some "b2c"
    fields := [⟨"id", "id key auto", .integer .int64⟩], offered := none }]

/-- Two fields of one model can share a link table although its dependencies are accepted. -/
theorem twoReadings_share_linkTable :
    twoReadings.dependencies 0 = .ok [1, 2] ∧
      twoReadings.relationsOf [0, 1, 2] = .ok [⟨0, "x2b", 1, false⟩, ⟨0, "x", 2, false⟩] ∧
      ¬ twoReadings.OwnLinkTables [0, 1, 2] [⟨0, "x2b", 1, false⟩, ⟨0, "x", 2, false⟩] := by
  refine ⟨?_, by decide +kernel, by decide +kernel⟩
  have hroot : twoReadings.targets 0 = .ok [1, 2] := by decide +kernel
  have hleaf : twoReadings.targets 1 = .ok [] ∧ twoReadings.targets 2 = .ok [] := by decide +kernel
  rw [dependencies, hroot]
  change twoReadings.resolve _ [.visit 1, .visit 2] = _
  rw [resolve_free (by decide +kernel), hleaf.1]
  change twoReadings.resolve _ [.list 1, .visit 2] = _
  rw [resolve, resolve_free (by decide +kernel), hleaf.2]
  change (do return 1 :: (← twoReadings.resolve _ [.list 2])) = _
  rw [resolve, resolve]
  rfl

end Models

end EntityMapper
