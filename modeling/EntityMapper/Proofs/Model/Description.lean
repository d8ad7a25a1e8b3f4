import EntityMapper.Model.Description
import EntityMapper.Proofs.Checked

/-!
# What a description says

A described model has one descriptor for each field, in declaration order, and the descriptor
carries the field's name, its parsed tag and its classification. No two columns share a name.
-/

namespace EntityMapper

variable {n : Nat}

/-- A column may be called `id`. -/
theorem FieldTag.id_ne : "id" ≠ "" := by decide

theorem FieldTag.id_chars : "id".toList.all isNameChar = true := by decide

/-- What the descriptor of a field has to say about it. -/
structure Describes (f : FieldModel n) (d : Descriptor n) : Prop where
  name_eq : d.name = f.name
  parsed : FieldTag.parse f.tag = .ok d.tag
  type_eq : d.type = f.type.classify

/-- A field flags itself as the key exactly when its descriptor does. -/
theorem Describes.isKey_eq {f : FieldModel n} {d : Descriptor n} (h : Describes f d) :
    f.isKey = d.tag.isKey := by
  simp [FieldModel.isKey, h.parsed]

namespace EntityModel

/-- A field that passes its checks is described, at its position, by a column that no earlier
field has taken. -/
theorem describeField_ok {entity : String} {taken : Taken} {index : Nat} {f : FieldModel n}
    {d : Descriptor n} (h : describeField entity taken index f = .ok d) :
    Describes f d ∧ d.index = index ∧ d.column ∉ taken.columns := by
  unfold describeField at h
  split at h
  · cases h
  · rename_i tag hparse
    split at h
    · cases h
    · rename_i hfault
      cases h
      refine ⟨⟨rfl, hparse, rfl⟩, rfl, fun hmem => ?_⟩
      unfold fieldFault? at hfault
      have htaken : tag.name ∈ taken.columns := hmem
      simp only [htaken, if_true] at hfault
      split at hfault
      · cases hfault
      · split at hfault
        · cases hfault
        · split at hfault <;> cases hfault

/-- Fields that pass their checks are described one by one. -/
theorem describeFrom_ok {entity : String} {taken : Taken} {index : Nat}
    {fs : List (FieldModel n)} {ds : List (Descriptor n)}
    (h : describeFrom entity taken index fs = .ok ds) :
    List.Forall₂ Describes fs ds ∧ ds.map (·.index) = List.range' index fs.length ∧
      (ds.map (·.column)).Nodup ∧ ∀ d ∈ ds, d.column ∉ taken.columns := by
  induction fs generalizing taken index ds with
  | nil =>
      cases h
      exact ⟨.nil, rfl, List.nodup_nil, fun d hd => absurd hd List.not_mem_nil⟩
  | cons f fs ih =>
      obtain ⟨d, hd, h⟩ := bind_eq_ok.1 h
      obtain ⟨rest, hrest, h⟩ := bind_eq_ok.1 h
      cases h
      obtain ⟨hdescribes, hindex, hfree⟩ := describeField_ok hd
      obtain ⟨hall, hindices, hnodup, hfresh⟩ := ih hrest
      have hlater : ∀ e ∈ rest, e.column ≠ d.column ∧ e.column ∉ taken.columns := by
        intro e he
        have := hfresh e he
        simpa [Taken.add] using this
      refine ⟨.cons hdescribes hall, ?_, ?_, ?_⟩
      · simp [hindex, hindices, List.range'_succ]
      · rw [List.map_cons, List.nodup_cons]
        refine ⟨fun hmem => ?_, hnodup⟩
        obtain ⟨e, he, heq⟩ := List.mem_map.1 hmem
        exact (hlater e he).1 heq
      · intro e he
        rcases List.mem_cons.1 he with rfl | he
        · exact hfree
        · exact (hlater e he).2

variable {m : EntityModel n} {ds : List (Descriptor n)}

/-- A model with a description has fields, and they pass their checks. -/
theorem describeFrom_of_describe (h : m.describe = .ok ds) :
    describeFrom m.name ⟨[], none⟩ 0 m.fields = .ok ds := by
  unfold describe at h
  split at h
  · cases h
  · exact h

/-- The descriptors of a model describe its fields in declaration order. -/
theorem describe_forall₂ (h : m.describe = .ok ds) : List.Forall₂ Describes m.fields ds :=
  (describeFrom_ok (describeFrom_of_describe h)).1

/-- Every descriptor of a model describes one of its fields. -/
theorem describes_of_mem (h : m.describe = .ok ds) {d : Descriptor n} (hd : d ∈ ds) :
    ∃ f ∈ m.fields, Describes f d :=
  exists_of_forall₂ (describe_forall₂ h) hd

/-- The position that a descriptor names is its own. -/
theorem describe_indices (h : m.describe = .ok ds) :
    ds.map (·.index) = List.range ds.length := by
  obtain ⟨hall, hindices, -⟩ := describeFrom_ok (describeFrom_of_describe h)
  rw [hindices, hall.length_eq, List.range_eq_range']

/-- No two columns of a described model share a name. -/
theorem describe_columns_nodup (h : m.describe = .ok ds) : (ds.map (·.column)).Nodup :=
  (describeFrom_ok (describeFrom_of_describe h)).2.2.1

/-- A field that passes its checks is no second key. -/
theorem describeField_key {entity : String} {taken : Taken} {index : Nat} {f : FieldModel n}
    {d : Descriptor n} (h : describeField entity taken index f = .ok d) :
    d.tag.isKey = true → taken.key = none := by
  intro hkey
  unfold describeField at h
  split at h
  · cases h
  · rename_i tag hparse
    split at h
    · cases h
    · rename_i hfault
      cases h
      have hkey : tag.isKey = true := hkey
      unfold fieldFault? at hfault
      split at hfault
      · cases hfault
      · split at hfault
        · cases hfault
        · cases htaken : taken.key with
          | none => rfl
          | some existing =>
              rw [htaken] at hfault
              cases hfault

/-- Among fields that pass their checks at most one is a key, and none is after an earlier key. -/
theorem describeFrom_keys {entity : String} {taken : Taken} {index : Nat}
    {fs : List (FieldModel n)} {ds : List (Descriptor n)}
    (h : describeFrom entity taken index fs = .ok ds) :
    (taken.key ≠ none → ∀ d ∈ ds, d.tag.isKey = false) ∧
      ∀ d ∈ ds, ∀ e ∈ ds, d.tag.isKey = true → e.tag.isKey = true → d = e := by
  induction fs generalizing taken index ds with
  | nil =>
      cases h
      exact ⟨by simp, by simp⟩
  | cons f fs ih =>
      obtain ⟨d, hd, h⟩ := bind_eq_ok.1 h
      obtain ⟨rest, hrest, h⟩ := bind_eq_ok.1 h
      cases h
      obtain ⟨hlater, hunique⟩ := ih hrest
      have hafter : d.tag.isKey = true → ∀ e ∈ rest, e.tag.isKey ≠ true := by
        intro hkey e he
        have htaken : (Taken.add taken d).key ≠ none := by simp [Taken.add, hkey]
        simp [hlater htaken e he]
      constructor
      · intro htaken e he
        have hfirst : d.tag.isKey = false := by
          by_contra hkey
          exact htaken (describeField_key hd (by simpa using hkey))
        rcases List.mem_cons.1 he with rfl | he
        · exact hfirst
        · have hstill : (Taken.add taken d).key ≠ none := by simpa [Taken.add, hfirst] using htaken
          exact hlater hstill e he
      · intro e he e' he' hkey hkey'
        rcases List.mem_cons.1 he with rfl | hin <;> rcases List.mem_cons.1 he' with rfl | hin'
        · rfl
        · exact absurd hkey' (hafter hkey e' hin')
        · exact absurd hkey (hafter hkey' e hin)
        · exact hunique e hin e' hin' hkey hkey'

/-- At most one column of a described model is its key. -/
theorem describe_key_unique (h : m.describe = .ok ds) {d e : Descriptor n} (hd : d ∈ ds)
    (he : e ∈ ds) (hdKey : d.tag.isKey = true) (heKey : e.tag.isKey = true) : d = e :=
  (describeFrom_keys (describeFrom_of_describe h)).2 d hd e he hdKey heKey

/-- The classifications of a described model are those of its fields. -/
theorem describe_types (h : m.describe = .ok ds) :
    ds.map (·.type) = m.fields.map (·.type.classify) := by
  have hall := describe_forall₂ h
  generalize m.fields = fs at hall
  clear h
  induction hall with
  | nil => rfl
  | cons hd _ ih => rw [List.map_cons, List.map_cons, hd.type_eq, ih]

/-- A field that passes its checks is generated only as an integer, and is the key only as a
scalar. -/
theorem describeField_flags {entity : String} {taken : Taken} {index : Nat} {f : FieldModel n}
    {d : Descriptor n} (h : describeField entity taken index f = .ok d) :
    (d.tag.isAuto = true → d.type.kind.isInteger = true) ∧
      (d.tag.isKey = true → d.type.kind.isComposite = false) := by
  unfold describeField at h
  split at h
  · cases h
  · rename_i tag hparse
    split at h
    · cases h
    · rename_i hfault
      cases h
      unfold fieldFault? at hfault
      split at hfault
      · cases hfault
      · rename_i hauto
        split at hfault
        · cases hfault
        · rename_i hkey
          simp only [not_and, Bool.not_eq_true, Bool.not_eq_false, Bool.not_eq_true'] at hauto hkey
          exact ⟨hauto, hkey⟩

/-- The fields of a described model are generated only as integers, and are keys only as scalars. -/
theorem describe_flags {m : EntityModel n} {ds : List (Descriptor n)} (h : m.describe = .ok ds)
    {d : Descriptor n} (hd : d ∈ ds) :
    (d.tag.isAuto = true → d.type.kind.isInteger = true) ∧
      (d.tag.isKey = true → d.type.kind.isComposite = false) := by
  have hfrom := describeFrom_of_describe h
  generalize Taken.mk [] none = taken, 0 = index at hfrom
  generalize m.fields = fs at hfrom
  clear h
  induction fs generalizing taken index ds with
  | nil =>
      cases hfrom
      exact absurd hd List.not_mem_nil
  | cons f fs ih =>
      obtain ⟨d', hd', hfrom⟩ := bind_eq_ok.1 hfrom
      obtain ⟨rest, hrest, hfrom⟩ := bind_eq_ok.1 hfrom
      cases hfrom
      rcases List.mem_cons.1 hd with rfl | hd
      · exact describeField_flags hd'
      · exact ih hd _ _ hrest

end EntityModel

end EntityMapper
