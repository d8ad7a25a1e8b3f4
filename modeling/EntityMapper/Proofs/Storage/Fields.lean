import EntityMapper.Proofs.Model.Description
import EntityMapper.Proofs.Sql.Reading
import EntityMapper.Sql.Builder
import Mathlib.Data.List.Nodup

/-!
# The fields of bound records

A record of a described model has one field for each column, in declaration order, and the
descriptors of the fields are those of the model, whatever the record holds. The field of the
primary key is at the position that the model names. A statement assigns the columns of the fields
that are not nil (`Bound.assignments_columns`).
-/

namespace EntityMapper

variable {n : Nat} {c : Catalog n} {k : Fin n}

/-- The fields of a record are described in order, for as long as there are columns. -/
theorem Columns.fields_descriptors {ts : List (ColumnType n)} (columns : Columns c ts)
    (ds : List (Descriptor n)) :
    (columns.fields ds).map (·.descriptor) = ds.take ts.length := by
  induction ts generalizing ds with
  | nil => cases columns; simp [Columns.fields]
  | cons t ts ih =>
      cases columns with
      | cons cell cells =>
          cases ds with
          | nil => simp [Columns.fields]
          | cons d ds => simp [Columns.fields, ih]

/-- The descriptor of a field is one of those it was paired with. -/
theorem Columns.descriptor_mem {ts : List (ColumnType n)} (columns : Columns c ts)
    {ds : List (Descriptor n)} {f : Field c} (hf : f ∈ columns.fields ds) : f.descriptor ∈ ds := by
  have hmem : f.descriptor ∈ ds.take ts.length :=
    columns.fields_descriptors ds ▸ List.mem_map_of_mem hf
  exact List.mem_of_mem_take hmem

/-- The type of a field is that of a column. -/
theorem Columns.type_mem {ts : List (ColumnType n)} (columns : Columns c ts)
    {ds : List (Descriptor n)} {f : Field c} (hf : f ∈ columns.fields ds) : f.type ∈ ts := by
  induction ts generalizing ds with
  | nil =>
      cases columns
      cases hf
  | cons t ts ih =>
      cases columns with
      | cons cell cells =>
          cases ds with
          | nil => cases hf
          | cons d ds =>
              rcases List.mem_cons.1 hf with rfl | hf
              · exact List.mem_cons_self
              · exact List.mem_cons_of_mem _ (ih cells hf)

/-- A record binds to a description of its model when it offers every column, and to no other. -/
theorem Columns.bind_eq_ok_iff {columns : Columns c (c.model k).columnTypes} {b : Bound c k} :
    columns.bind = .ok b ↔
      b.columns = columns ∧ (c.model k).offeredCount = b.descriptors.length := by
  constructor
  · intro h
    unfold Columns.bind at h
    split at h
    · cases h
    · dsimp only at h
      split at h
      · rename_i hoffered
        cases h
        exact ⟨rfl, hoffered⟩
      · cases h
  · rintro ⟨rfl, hoffered⟩
    unfold Columns.bind
    split
    · rename_i hdescribe
      cases hdescribe.symm.trans b.described
    · rename_i ds hdescribe
      obtain rfl : ds = b.descriptors := Except.ok.inj (hdescribe.symm.trans b.described)
      rw [if_pos hoffered]

/-- Introspecting a record tells the dependencies of its model and binds it. -/
theorem Record.introspect_eq_ok_iff {r : Record c} {b : Bound c r.model}
    {dependencies : List (Fin n)} : r.introspect = .ok (b, dependencies) ↔
      c.dependencies r.model = .ok dependencies ∧ r.columns.bind = .ok b := by
  constructor
  · intro h
    obtain ⟨found, hfound, h⟩ := bind_eq_ok.1 h
    obtain ⟨b', hb, h⟩ := bind_eq_ok.1 h
    cases h
    exact ⟨hfound, hb⟩
  · rintro ⟨hfound, hb⟩
    exact bind_eq_ok.2 ⟨dependencies, hfound, bind_eq_ok.2 ⟨b, hb, rfl⟩⟩

namespace Bound

variable {b b₁ b₂ : Bound c k}

/-- A described model has one descriptor for each column. -/
theorem descriptors_length (b : Bound c k) :
    b.descriptors.length = (c.model k).columnTypes.length := by
  have hfields := (EntityModel.describe_forall₂ b.described).length_eq
  rw [EntityModel.columnTypes, List.length_map, hfields]

/-- Every column of a record has a field. -/
theorem fields_descriptors (b : Bound c k) : b.fields.map (·.descriptor) = b.descriptors := by
  rw [fields, Columns.fields_descriptors]
  exact List.take_of_length_le (Nat.le_of_eq b.descriptors_length)

/-- The descriptor of a field is one of the model's. -/
theorem descriptor_mem (b : Bound c k) {f : Field c} (hf : f ∈ b.fields) :
    f.descriptor ∈ b.descriptors :=
  b.columns.descriptor_mem hf

/-- The key field of a record is a field that flags itself as the key. -/
theorem key?_eq_some {f : Field c} (h : b.key? = some f) :
    f ∈ b.fields ∧ f.descriptor.tag.isKey = true := by
  rw [key?] at h
  exact ⟨List.mem_of_find?_eq_some h, by simpa using List.find?_some h⟩

/-- Records of one model have the same descriptors. -/
theorem descriptors_eq (b₁ b₂ : Bound c k) : b₁.descriptors = b₂.descriptors :=
  Except.ok.inj (b₁.described.symm.trans b₂.described)

/-- The stored fields have the descriptors of columns. -/
theorem stored_descriptors (b : Bound c k) :
    b.stored.map (·.descriptor) = b.descriptors.filter (·.isColumn) := by
  rw [stored, ← b.fields_descriptors, List.filter_map]
  rfl

/-- The columns of a record's fields have different names. -/
theorem columns_nodup (b : Bound c k) : (b.fields.map (·.column)).Nodup := by
  have hnodup := EntityModel.describe_columns_nodup b.described
  rwa [← b.fields_descriptors, List.map_map] at hnodup

end Bound

/-- The first field that is flagged as the key stands at the position that the model names. -/
theorem Columns.find?_key {fs : List (FieldModel n)} {ds : List (Descriptor n)}
    (h : List.Forall₂ Describes fs ds) (columns : Columns c (fs.map (·.type))) {index : Nat}
    (hindex : fs.findIdx? (·.isKey) = some index) :
    ∃ f, (columns.fields ds).find? (·.descriptor.tag.isKey) = some f ∧
      f.value = columns.valueAt index := by
  induction h generalizing index with
  | nil => cases hindex
  | @cons m d fs ds hd _ ih =>
      cases columns with
      | cons cell cells =>
          rw [List.findIdx?_cons, hd.isKey_eq] at hindex
          rw [Columns.fields, List.find?_cons]
          cases hkey : d.tag.isKey with
          | true =>
              rw [hkey] at hindex
              cases hindex
              exact ⟨_, rfl, rfl⟩
          | false =>
              simp only [hkey] at hindex
              obtain ⟨i, hi, rfl⟩ := Option.map_eq_some_iff.1 hindex
              exact ih cells hi

/-- The key of a record is the value of its key field, if the model offers one. -/
theorem Bound.key?_value (b : Bound c k) {index : Nat}
    (hindex : (c.model k).offeredKey? = some index) :
    ∃ f, b.key? = some f ∧ f.value = b.columns.valueAt index :=
  Columns.find?_key (EntityModel.describe_forall₂ b.described) b.columns
    (Option.filter_eq_some_iff.1 hindex).1

/-! ## Assigned fields -/

/-- A field has a literal exactly when it is not nil. -/
theorem Field.isNil_of_literal? {f : Field c} {l : Option Sql.Literal} (h : f.literal? = .ok l) :
    f.value.isNil = l.isNone :=
  Value.isNil_of_literal? (mapError_eq_ok.1 h)

/-- The assigned columns are those of the fields that are not nil. -/
theorem Bound.assignments_columns {fs : List (Field c)} {as : List Sql.Assignment}
    (h : Bound.assignments fs = .ok as) :
    as.map (·.column) = (fs.filter (!·.value.isNil)).map (·.column) := by
  induction fs generalizing as with
  | nil =>
      cases h
      rfl
  | cons f fs ih =>
      obtain ⟨l, hl, h⟩ := bind_eq_ok.1 h
      have hnil := Field.isNil_of_literal? hl
      cases l with
      | none =>
          rw [List.filter_cons_of_neg (by simp [hnil])]
          exact ih h
      | some literal =>
          obtain ⟨rest, hrest, h⟩ := bind_eq_ok.1 h
          cases h
          rw [List.filter_cons_of_pos (by simp [hnil]), List.map_cons, List.map_cons, ih hrest]

/-- A record that has a literal for its key has a key field with that literal. -/
theorem Bound.keyLiteral_eq_ok {b : Bound c k} {literal : Sql.Literal}
    (h : b.keyLiteral = .ok literal) :
    ∃ key, b.key? = some key ∧ key.literal? = .ok (some literal) := by
  rw [keyLiteral] at h
  cases hkey : b.key? with
  | none =>
      rw [hkey] at h
      cases h
  | some key =>
      rw [hkey] at h
      obtain ⟨found, hfound, h⟩ := bind_eq_ok.1 h
      cases found with
      | none => cases h
      | some literal' =>
          cases h
          exact ⟨key, rfl, hfound⟩

/-- The clause that addresses a row gives the key column the literal of the key. -/
theorem Bound.keyClause_eq_ok {b : Bound c k} {clause : Sql.Assignment}
    (h : b.keyClause = .ok clause) : ∃ key literal, b.key? = some key ∧
      key.literal? = .ok (some literal) ∧ b.keyLiteral = .ok literal ∧
      clause = ⟨key.column, literal⟩ := by
  rw [keyClause] at h
  split at h
  · cases h
  · rename_i key hkey
    obtain ⟨literal, hliteral, h⟩ := bind_eq_ok.1 h
    cases h
    obtain ⟨key', hkey', hfound⟩ := keyLiteral_eq_ok hliteral
    obtain rfl := Option.some.inj (hkey.symm.trans hkey')
    exact ⟨key, literal, hkey, hfound, hliteral, rfl⟩

end EntityMapper
