import EntityMapper.Proofs.Model.Verdict
import EntityMapper.Proofs.Storage.Projection
import EntityMapper.Sql.Builder

/-!
# What a classification says of a type

A regular type is built from scalars, records, options and boxes, and from lists whose items are
scalars or records under boxes. Under its layers of options and boxes there is a core, which decides
the kind and the relation (`ColumnType.kind_eq_record_iff`, `ColumnType.kind_eq_recordList_iff`,
`ColumnType.relation_iff`); the layers decide what a pointer is and what may be nil. The contents
keep to it: only a nullable one reads as nil (`Cell.isNullable_of_isNil`), only a relation holds
records, and only a list more than one. A field without a type in the database is not regular
(`Models.irregular_of_createTable`).
-/

namespace EntityMapper

variable {n : Nat} {c : Catalog n} {t : ColumnType n} {k : Fin n}

namespace ColumnType

/-! ## Layers and cores -/

/-- Whether the type is that of the items of a list: a scalar or a record, under boxes only. -/
def IsElement : ColumnType n → Prop
  | bool | integer _ | float | double | text | dateTime | entity _ => True
  | boxed t => t.IsElement
  | raw | nullable _ | list _ => False

/-- Whether the type is built from scalars, records, options, boxes and lists of elements. -/
def IsRegular : ColumnType n → Prop
  | bool | integer _ | float | double | text | dateTime | entity _ => True
  | nullable t | boxed t => t.IsRegular
  | list t => t.IsElement
  | raw => False

/-- Decides whether a type is that of the items of a list. -/
instance decidableIsElement : (t : ColumnType n) → Decidable t.IsElement
  | bool | integer _ | float | double | text | dateTime | entity _ =>
      inferInstanceAs (Decidable True)
  | boxed t => decidableIsElement t
  | raw | nullable _ | list _ => inferInstanceAs (Decidable False)

/-- Decides whether a type is regular. -/
instance decidableIsRegular : (t : ColumnType n) → Decidable t.IsRegular
  | bool | integer _ | float | double | text | dateTime | entity _ =>
      inferInstanceAs (Decidable True)
  | nullable t | boxed t => decidableIsRegular t
  | list t => decidableIsElement t
  | raw => inferInstanceAs (Decidable False)

/-- A layer around a type. -/
inductive Layer
  | option | box
  deriving DecidableEq

/-- The options and boxes around the core of a type, from the outside. -/
def layers : ColumnType n → List Layer
  | nullable t => .option :: t.layers
  | boxed t => .box :: t.layers
  | _ => []

/-- What a type is under its options and boxes. -/
def core : ColumnType n → ColumnType n
  | nullable t | boxed t => t.core
  | t => t

/-- The model at the core of a type. -/
def coreModel? (t : ColumnType n) : Option (Fin n) :=
  match t.core with
  | entity k => some k
  | _ => none

/-- The model at the core of a type, or at the core of the items of the list that stands there. -/
def related? (t : ColumnType n) : Option (Fin n) :=
  match t.core with
  | entity k => some k
  | list item => item.coreModel?
  | _ => none

/-- The options and boxes between a field and the scalars or records that it is built on, outside of
a list and inside. -/
def path (t : ColumnType n) : List Layer :=
  t.layers ++ match t.core with
    | list item => item.layers
    | _ => []

theorem core_ne_nullable (t u : ColumnType n) : t.core ≠ nullable u := by
  induction t with
  | nullable t ih | boxed t ih => exact ih
  | bool | integer | float | double | text | dateTime | raw | entity | list => simp [core]

theorem core_ne_boxed (t u : ColumnType n) : t.core ≠ boxed u := by
  induction t with
  | nullable t ih | boxed t ih => exact ih
  | bool | integer | float | double | text | dateTime | raw | entity | list => simp [core]

theorem IsRegular.core (h : t.IsRegular) : t.core.IsRegular := by
  induction t with
  | nullable t ih | boxed t ih => exact ih h
  | bool | integer | float | double | text | dateTime | raw | entity | list => exact h

/-- The core of an item is no list. -/
theorem IsElement.core_ne_list (h : t.IsElement) (u : ColumnType n) : t.core ≠ list u := by
  induction t with
  | boxed t ih => exact ih h
  | bool | integer | float | double | text | dateTime | entity => simp [ColumnType.core]
  | raw | nullable | list => exact h.elim

/-! ## The classification by layers and core -/

/-- Options and boxes leave the kind. -/
theorem kind_core (t : ColumnType n) : t.core.classify.kind = t.classify.kind := by
  induction t with
  | nullable t ih | boxed t ih => exact ih
  | bool | integer | float | double | text | dateTime | raw | entity | list => rfl

/-- Options and boxes make a relation one behind a pointer. -/
theorem relation_core (t : ColumnType n) : t.classify.relation =
    t.core.classify.relation.map fun relation =>
      { relation with isPointer := !t.layers.isEmpty || relation.isPointer } := by
  induction t with
  | nullable t ih | boxed t ih =>
      show t.classify.relation.map _ = _
      rw [ih, Option.map_map]
      rfl
  | bool | integer | float | double | text | dateTime | raw | entity | list =>
      exact Option.map_id'.symm

/-- A type is nullable where it has an option around its core. -/
theorem isNullable_iff (t : ColumnType n) :
    t.classify.isNullable = true ↔ Layer.option ∈ t.layers := by
  induction t with
  | nullable t ih => exact ⟨fun _ => List.mem_cons_self, fun _ => rfl⟩
  | boxed t ih =>
      rw [layers, List.mem_cons, or_iff_right (by decide)]
      exact ih
  | list t ih =>
      rw [classify, FieldType.list]
      split <;> exact iff_of_false Bool.false_ne_true List.not_mem_nil
  | bool | integer | float | double | text | dateTime | raw | entity =>
      exact iff_of_false Bool.false_ne_true List.not_mem_nil

/-- A list is classified by the relation of its items. -/
theorem classify_list (t : ColumnType n) : (list t).classify.relation = t.classify.relation ∧
    (list t).classify.kind = if t.classify.isRelation then .recordList else .list := by
  rw [classify, FieldType.list, FieldType.isRelation]
  cases t.classify.relation <;> exact ⟨rfl, rfl⟩

/-- The relation of an item is to the model at its core. -/
theorem IsElement.relation_eq (h : t.IsElement) :
    t.classify.relation = t.coreModel?.map fun k => ⟨k, !t.layers.isEmpty⟩ := by
  rw [relation_core, coreModel?]
  cases hcore : t.core with
  | entity k => rw [classify, Option.map_some, Bool.or_false, Option.map_some]
  | nullable u => exact absurd hcore (t.core_ne_nullable u)
  | boxed u => exact absurd hcore (t.core_ne_boxed u)
  | list u => exact absurd hcore (h.core_ne_list u)
  | bool | integer | float | double | text | dateTime | raw => rfl

/-- The relation of a regular type is to the model at its core, or at the core of the items of the
list there, and it is one behind a pointer where some option or box is on the way. -/
theorem IsRegular.relation_eq (h : t.IsRegular) :
    t.classify.relation = t.related?.map fun k => ⟨k, !t.path.isEmpty⟩ := by
  rw [relation_core, related?, path]
  have hregular := h.core
  cases hcore : t.core with
  | entity k => rw [classify, Option.map_some, Bool.or_false, List.append_nil, Option.map_some]
  | list item =>
      rw [hcore] at hregular
      have hitem : item.IsElement := hregular
      rw [(classify_list item).1, hitem.relation_eq, Option.map_map]
      refine congrArg (Option.map · _) (funext fun k => ?_)
      cases t.layers <;> rfl
  | nullable u => exact absurd hcore (t.core_ne_nullable u)
  | boxed u => exact absurd hcore (t.core_ne_boxed u)
  | bool | integer | float | double | text | dateTime | raw => rfl

/-! ## Kinds and relations -/

theorem coreModel?_eq_some : t.coreModel? = some k ↔ t.core = .entity k := by
  rw [coreModel?]
  cases t.core <;> simp

/-- A type is related to a model exactly when that one is at its core, or at the core of the items
of the list there. -/
theorem related?_eq_some : t.related? = some k ↔
    t.core = .entity k ∨ ∃ item, t.core = .list item ∧ item.core = .entity k := by
  rw [related?]
  cases t.core <;> simp [coreModel?_eq_some]

namespace IsRegular

variable (h : t.IsRegular)
include h

/-- A type is one of a single link exactly when a record is at its core. -/
theorem kind_eq_record_iff : t.classify.kind = .record ↔ ∃ k, t.core = .entity k := by
  rw [← kind_core]
  have hregular := h.core
  cases hcore : t.core with
  | entity k => exact ⟨fun _ => ⟨k, rfl⟩, fun _ => rfl⟩
  | list item =>
      rw [(classify_list item).2]
      split <;> exact ⟨nofun, nofun⟩
  | nullable u => exact absurd hcore (t.core_ne_nullable u)
  | boxed u => exact absurd hcore (t.core_ne_boxed u)
  | raw => exact (hcore ▸ hregular : IsRegular .raw).elim
  | bool | integer | float | double | text | dateTime => exact ⟨nofun, nofun⟩

/-- A type is one of many links exactly when a list is at its core whose items have a record at
theirs. -/
theorem kind_eq_recordList_iff : t.classify.kind = .recordList ↔
    ∃ item k, t.core = .list item ∧ item.core = .entity k := by
  rw [← kind_core]
  have hregular := h.core
  cases hcore : t.core with
  | list item =>
      rw [hcore] at hregular
      have hitem : item.IsElement := hregular
      rw [(classify_list item).2, FieldType.isRelation, hitem.relation_eq, Option.isSome_map]
      simp only [list.injEq, exists_and_left, exists_eq_left', ← coreModel?_eq_some]
      rw [← Option.isSome_iff_exists]
      split
      · rename_i hsome
        exact iff_of_true rfl hsome
      · rename_i hnone
        exact iff_of_false (by simp) hnone
  | nullable u => exact absurd hcore (t.core_ne_nullable u)
  | boxed u => exact absurd hcore (t.core_ne_boxed u)
  | entity | bool | integer | float | double | text | dateTime | raw =>
      simp [classify, FieldType.scalar]

/-- A type is a relation to a model exactly when it is related to it. -/
theorem relation_iff :
    (∃ isPointer, t.classify.relation = some ⟨k, isPointer⟩) ↔
      t.core = .entity k ∨ ∃ item, t.core = .list item ∧ item.core = .entity k := by
  rw [h.relation_eq, ← related?_eq_some]
  cases t.related? with
  | none => exact ⟨nofun, nofun⟩
  | some j =>
      constructor
      · rintro ⟨isPointer, ⟨⟩⟩
        rfl
      · rintro ⟨⟩
        exact ⟨_, rfl⟩

/-- A relation is one behind a pointer exactly when some option or box is on the way to its
records. -/
theorem isPointerRelation_iff : t.classify.isPointerRelation = true ↔
    t.classify.isRelation = true ∧ t.path ≠ [] := by
  rw [FieldType.isPointerRelation, FieldType.isRelation, h.relation_eq]
  cases t.related? <;> simp

/-- A type is a relation exactly when its kind is one of links. -/
theorem isRelation_iff : t.classify.isRelation = true ↔
    t.classify.kind = .record ∨ t.classify.kind = .recordList := by
  rw [h.kind_eq_record_iff, h.kind_eq_recordList_iff, FieldType.isRelation, h.relation_eq,
    Option.isSome_map, Option.isSome_iff_exists]
  simp only [related?_eq_some]
  constructor
  · rintro ⟨k, hk | ⟨item, hitem⟩⟩
    exacts [.inl ⟨k, hk⟩, .inr ⟨item, k, hitem⟩]
  · rintro (⟨k, hk⟩ | ⟨item, k, hitem⟩)
    exacts [⟨k, .inl hk⟩, ⟨k, .inr ⟨item, hitem⟩⟩]

/-- A column of a regular type is stored under some type of the database. -/
theorem sqlType (hrelation : t.classify.isRelation = false) :
    (Sql.SqlType.ofKind? t.classify.kind).isSome = true := by
  have hkind := h.isRelation_iff.not.1 (by simp [hrelation])
  rw [not_or] at hkind
  cases hshape : t.classify.kind with
  | record => exact absurd hshape hkind.1
  | recordList => exact absurd hshape hkind.2
  | integer kind => cases kind <;> rfl
  | bool | text | dateTime | float | double | list => rfl

end IsRegular

end ColumnType

/-! ## Contents -/

/-- A content of a regular type is nil only where its type is nullable. -/
theorem Cell.isNullable_of_isNil (ht : t.IsRegular) (cell : Cell c t)
    (hnil : cell.value.isNil = true) : t.classify.isNullable = true := by
  rw [cell.isNil_value_eq] at hnil
  induction t with
  | nullable t => rfl
  | boxed t ih =>
      cases cell with
      | boxed inner => exact ih ht inner hnil
  | raw => exact ht.elim
  | bool | integer | float | double | text | dateTime | entity | list =>
      cases cell
      cases hnil

mutual

/-- A content holds records only where its type is a relation. -/
theorem Cell.records_eq_nil : {t : ColumnType n} → (cell : Cell c t) →
    t.classify.relation = none → cell.records = []
  | _, .bool _, _ | _, .integer _ _, _ | _, .float _, _ | _, .double _, _ | _, .text _, _
  | _, .dateTime _, _ | _, .raw _, _ | _, .absent, _ => rfl
  | _, .entity _, h => nomatch h
  | _, .present inner, h => inner.records_eq_nil (Option.map_eq_none_iff.1 h)
  | _, .boxed inner, h => inner.records_eq_nil (Option.map_eq_none_iff.1 h)
  | .list t, .list items, h =>
      items.records_eq_nil ((ColumnType.classify_list t).1.symm.trans h)

/-- The items of a list hold records only where their type is a relation. -/
theorem Items.records_eq_nil : {t : ColumnType n} → (items : Items c t) →
    t.classify.relation = none → items.records = []
  | _, .nil, _ => rfl
  | _, .cons item items, h => by
      rw [Items.records, item.records_eq_nil h, items.records_eq_nil h, List.append_nil]

end

/-- A content holds more than one record only where its type has a list at its core. -/
theorem Cell.records_length_le (hcore : ∀ item, t.core ≠ .list item) (cell : Cell c t) :
    cell.records.length ≤ 1 := by
  induction t with
  | nullable t ih =>
      cases cell with
      | absent => exact Nat.zero_le 1
      | present inner => exact ih hcore inner
  | boxed t ih =>
      cases cell with
      | boxed inner => exact ih hcore inner
  | list t => exact absurd rfl (hcore t)
  | entity => cases cell; exact Nat.le_refl 1
  | bool | integer | float | double | text | dateTime | raw => cases cell; exact Nat.zero_le 1

/-! ## Tables -/

namespace Models

variable {ms : Models n} {entity field : String}

/-- Where a table cannot be created because a column has no type, some field of that name is not of
a regular type. -/
theorem irregular_of_createTable
    (h : ms.createTable k = .error (.noColumnType entity field)) :
    ∃ f ∈ (ms.model k).fields, f.name = field ∧ ¬ f.type.IsRegular := by
  rw [createTable] at h
  cases hdescribe : (ms.model k).describe with
  | error e =>
      rw [hdescribe] at h
      cases h
      rcases EntityModel.describe_eq_error hdescribe with ⟨_, he⟩ | ⟨_, _, _, he⟩ <;> cases he
  | ok ds =>
      rw [hdescribe] at h
      cases hcolumns : (ds.filter (·.isColumn)).mapM (ms.declareField k) with
      | ok columns =>
          simp only [bind, Except.bind, hcolumns] at h
          split at h <;> cases h
      | error e =>
          simp only [bind, Except.bind, hcolumns] at h
          cases h
          obtain ⟨d, hd, hfault⟩ := exists_of_mapM_eq_error hcolumns
          obtain ⟨hd, hcolumn⟩ := List.mem_filter.1 hd
          obtain ⟨f, hf, hdescribes⟩ := EntityModel.describes_of_mem hdescribe hd
          rw [declareField] at hfault
          split at hfault
          · cases hfault
          · rename_i hkind
            cases hfault
            refine ⟨f, hf, hdescribes.name_eq.symm, fun hregular => ?_⟩
            rw [Descriptor.isColumn, hdescribes.type_eq, Bool.not_eq_true'] at hcolumn
            have htyped := hregular.sqlType hcolumn
            rw [← hdescribes.type_eq, hkind] at htyped
            cases htyped

end Models

end EntityMapper
