import EntityMapper.Proofs.Storage.Fields
import EntityMapper.Proofs.Storage.Stored
import EntityMapper.Sql.Builder

/-!
# Models that are stored exactly

A model whose columns all are of exact types has no relation and needs no other model, and its
table can be defined, as that of any storable model can (`Models.createTable_of_storable`).
-/

namespace EntityMapper

variable {n : Nat}

namespace ColumnType

/-- A column of an exact type is no relation. -/
theorem IsExact.relation_eq {t : ColumnType n} (h : t.IsExact) : t.classify.relation = none := by
  induction t with
  | nullable t ih =>
      rw [classify, FieldType.nullable, FieldType.pointer, ih h]
      rfl
  | boxed t ih =>
      rw [classify, FieldType.pointer, ih h]
      rfl
  | list t ih =>
      have hitem : t.classify.relation = none := ih (IsItem.isExact h)
      rw [classify, FieldType.list, hitem]
      rfl
  | bool | integer | text | dateTime => rfl
  | float | double | raw | entity => exact h.elim

/-- A column of an exact type is stored under some type of the database. -/
theorem IsExact.sqlType {t : ColumnType n} (h : t.IsExact) :
    ∃ s, Sql.SqlType.ofKind? t.classify.kind = some s := by
  induction t with
  | nullable t ih | boxed t ih => exact ih h
  | list t =>
      have hitem : t.classify.relation = none := IsExact.relation_eq (IsItem.isExact h)
      rw [classify, FieldType.list, hitem]
      exact ⟨.text, rfl⟩
  | integer kind => cases kind <;> exact ⟨_, rfl⟩
  | bool | text | dateTime => exact ⟨_, rfl⟩
  | float | double | raw | entity => exact h.elim

end ColumnType

/-- Whether a tag can be read and leaves its column to the database. -/
def FieldModel.isAuto (f : FieldModel n) : Bool :=
  match FieldTag.parse f.tag with
  | .ok tag => tag.isAuto
  | .error _ => false

/-- A field is left to the database exactly when its descriptor says so. -/
theorem Describes.isAuto_eq {f : FieldModel n} {d : Descriptor n} (h : Describes f d) :
    f.isAuto = d.tag.isAuto := by
  simp [FieldModel.isAuto, h.parsed]

/-- Whether a model that is described can be given a table: some field is stored as a column, and
every such field under some type of the database. -/
structure EntityModel.IsStorable (m : EntityModel n) : Prop where
  stored : ∃ f ∈ m.fields, f.type.classify.isRelation = false
  typed : ∀ f ∈ m.fields, f.type.classify.isRelation = false →
    (Sql.SqlType.ofKind? f.type.classify.kind).isSome

instance (m : EntityModel n) : Decidable m.IsStorable :=
  decidable_of_iff ((∃ f ∈ m.fields, f.type.classify.isRelation = false) ∧
      ∀ f ∈ m.fields, f.type.classify.isRelation = false →
        (Sql.SqlType.ofKind? f.type.classify.kind).isSome)
    ⟨fun h => ⟨h.1, h.2⟩, fun h => ⟨h.stored, h.typed⟩⟩

/-- Whether the records of a model are stored exactly, and ids are generated for the key only. -/
structure EntityModel.IsExact (m : EntityModel n) : Prop where
  types : ∀ f ∈ m.fields, f.type.IsExact
  auto_key : ∀ f ∈ m.fields, f.isAuto = true → f.isKey = true

instance (m : EntityModel n) : Decidable m.IsExact :=
  decidable_of_iff ((∀ f ∈ m.fields, f.type.IsExact) ∧
      ∀ f ∈ m.fields, f.isAuto = true → f.isKey = true)
    ⟨fun h => ⟨h.1, h.2⟩, fun h => ⟨h.types, h.auto_key⟩⟩

namespace EntityModel.IsExact

variable {m : EntityModel n} {ds : List (Descriptor n)} {d : Descriptor n}

/-- The columns of a record are of exact types. -/
theorem columnTypes (h : m.IsExact) {t : ColumnType n} (ht : t ∈ m.columnTypes) : t.IsExact := by
  obtain ⟨f, hf, rfl⟩ := List.mem_map.1 ht
  exact h.types f hf

/-- No column is a relation. -/
theorem relation_eq (h : m.IsExact) (hds : m.describe = .ok ds) (hd : d ∈ ds) :
    d.type.relation = none := by
  obtain ⟨f, hf, hdescribes⟩ := describes_of_mem hds hd
  rw [hdescribes.type_eq]
  exact (h.types f hf).relation_eq

/-- Every field is stored as a column. -/
theorem isColumn (h : m.IsExact) (hds : m.describe = .ok ds) (hd : d ∈ ds) :
    d.isColumn = true := by
  rw [Descriptor.isColumn, FieldType.isRelation, h.relation_eq hds hd]
  rfl

/-- No field is stored through links. -/
theorem isRelation (h : m.IsExact) (hds : m.describe = .ok ds) (hd : d ∈ ds) :
    d.type.isRelation = false := by
  rw [FieldType.isRelation, h.relation_eq hds hd]
  rfl

/-- A generated column is the key. -/
theorem key_of_auto (h : m.IsExact) (hds : m.describe = .ok ds) (hd : d ∈ ds)
    (hauto : d.tag.isAuto = true) : d.tag.isKey = true := by
  obtain ⟨f, hf, hdescribes⟩ := describes_of_mem hds hd
  rw [← hdescribes.isAuto_eq] at hauto
  rw [← hdescribes.isKey_eq]
  exact h.auto_key f hf hauto

/-- A described model that is stored exactly is storable. -/
theorem isStorable (h : m.IsExact) (hds : m.describe = .ok ds) : m.IsStorable where
  stored := by
    -- A model without fields has no description.
    cases hfields : m.fields with
    | nil => simp [describe, hfields] at hds
    | cons f fs =>
        refine ⟨f, List.mem_cons_self, ?_⟩
        rw [FieldType.isRelation, (h.types f (hfields ▸ List.mem_cons_self)).relation_eq]
        rfl
  typed f hf _ := Option.isSome_iff_exists.2 (h.types f hf).sqlType

end EntityModel.IsExact

namespace Models

variable {ms : Models n} {k : Fin n} {ds : List (Descriptor n)}

/-- A model that is stored exactly declares no relations. -/
theorem relations_of_exact (h : (ms.model k).IsExact) (hds : (ms.model k).describe = .ok ds) :
    ms.relations k = .ok [] := by
  refine bind_eq_ok.2 ⟨ds, hds, ?_⟩
  refine congrArg Except.ok (List.filterMap_eq_nil_iff.2 fun d hd => ?_)
  rw [Descriptor.relation?, h.relation_eq hds hd]
  rfl

/-- A model that is stored exactly needs no other model. -/
theorem dependencies_of_exact (h : (ms.model k).IsExact) (hds : (ms.model k).describe = .ok ds) :
    ms.dependencies k = .ok [] := by
  have htargets : ms.targets k = .ok [] := by
    refine bind_eq_ok.2 ⟨ds, hds, ?_⟩
    refine congrArg Except.ok (List.filterMap_eq_nil_iff.2 fun d hd => ?_)
    rw [h.relation_eq hds hd]
    rfl
  refine bind_eq_ok.2 ⟨[], htargets, ?_⟩
  rw [List.map_nil, resolve]

/-- The table of a described model that is storable can be defined. -/
theorem createTable_of_storable (h : (ms.model k).IsStorable)
    (hds : (ms.model k).describe = .ok ds) : ∃ s, ms.createTable k = .ok s := by
  have hdeclare : ∀ d ∈ ds.filter (·.isColumn), ∃ column, ms.declareField k d = .ok column := by
    intro d hd
    obtain ⟨hd, hcolumn⟩ := List.mem_filter.1 hd
    obtain ⟨f, hf, hdescribes⟩ := EntityModel.describes_of_mem hds hd
    obtain ⟨type, htype⟩ := Option.isSome_iff_exists.1
      (h.typed f hf (by simpa [Descriptor.isColumn, hdescribes.type_eq] using hcolumn))
    rw [← hdescribes.type_eq] at htype
    exact ⟨⟨d.column, type, d.tag.isAuto⟩, by rw [declareField, htype]⟩
  obtain ⟨columns, hmapM⟩ := mapM_succeeds hdeclare
  have hsome : columns ≠ [] := by
    rintro rfl
    have hlength := (mapM_eq_ok_iff.1 hmapM).length_eq
    obtain ⟨f, hf, hrelation⟩ := h.stored
    obtain ⟨d, hd, hdescribes⟩ := exists_of_forall₂ (EntityModel.describe_forall₂ hds).flip hf
    have hmem : d ∈ ds.filter (·.isColumn) :=
      List.mem_filter.2 ⟨hd, by simp [Descriptor.isColumn, hdescribes.type_eq, hrelation]⟩
    exact absurd (List.length_pos_of_mem hmem) (by simp [hlength])
  have hstatement : ms.createTable k = .ok (.createTable (ms.model k).table columns
      ((ds.find? (·.tag.isKey)).map (·.column))) := by
    refine bind_eq_ok.2 ⟨ds, hds, bind_eq_ok.2 ⟨columns, hmapM, ?_⟩⟩
    rw [if_neg (by simpa using hsome)]
    rfl
  exact ⟨_, hstatement⟩

/-- The table of a model that is stored exactly can be defined. -/
theorem createTable_of_exact (h : (ms.model k).IsExact) (hds : (ms.model k).describe = .ok ds) :
    ∃ s, ms.createTable k = .ok s :=
  createTable_of_storable (h.isStorable hds) hds

end Models

namespace Bound

variable {c : Catalog n} {k : Fin n}

/-- All fields of a record that is stored exactly are stored as columns. -/
theorem stored_of_exact (h : (c.model k).IsExact) (b : Bound c k) : b.stored = b.fields :=
  List.filter_eq_self.2 fun _ hf => h.isColumn b.described (b.descriptor_mem hf)

/-- A record that is stored exactly has no relations. -/
theorem relations_of_exact (h : (c.model k).IsExact) (b : Bound c k) : b.relations = [] := by
  refine List.filter_eq_nil_iff.2 fun f hf => ?_
  rw [h.isRelation b.described (b.descriptor_mem hf)]
  exact Bool.false_ne_true

end Bound

/-- A field of an exact type has a literal, and what the database reads from it builds the settled
content of the field. -/
theorem Field.build_readBack {c : Catalog n} {f : Field c} (ht : f.type.IsExact) :
    ∃ l, f.literal? = .ok l ∧ c.build f.type (Sql.readBack l) = .ok f.cell.settled := by
  obtain ⟨l, hl, hread⟩ := f.cell.build_readBack ht
  refine ⟨l, ?_, hread⟩
  rw [literal?, value, hl]
  rfl

/-- A record that is stored exactly is introspected by binding it. -/
theorem Record.introspect_of_exact {c : Catalog n} {k : Fin n} (h : (c.model k).IsExact)
    {columns : Columns c (c.model k).columnTypes} {b : Bound c k} (hb : columns.bind = .ok b) :
    Record.introspect ⟨k, columns⟩ = .ok (b, []) :=
  Record.introspect_eq_ok_iff.2 ⟨Models.dependencies_of_exact h b.described, hb⟩

end EntityMapper
