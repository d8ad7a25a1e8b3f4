import EntityMapper.Proofs.Model.Closure
import EntityMapper.Proofs.Storage.Fields

/-!
# Records and the records they own

A record owns the records of its relation fields that are no pointers. Its family is everything it
owns, directly or through others, and the record itself, which comes last (`Record.family_eq`). The
members of a family are of models that the record's model reaches (`Record.family_closure`).
-/

namespace EntityMapper

variable {n : Nat} {c : Catalog n} {k : Fin n}

/-- The descriptors of a model, or none where it cannot be described. -/
def EntityModel.descriptors (m : EntityModel n) : List (Descriptor n) :=
  match m.describe with
  | .ok ds => ds
  | .error _ => []

theorem EntityModel.descriptors_of_describe {m : EntityModel n} {ds : List (Descriptor n)}
    (h : m.describe = .ok ds) : m.descriptors = ds := by
  rw [descriptors, h]

/-! ## The fields of a record -/

namespace Record

/-- The described fields of a record, in declaration order. -/
def fields (r : Record c) : List (Field c) := r.columns.fields (c.model r.model).descriptors

/-- The fields of a record that are stored through links, in declaration order. -/
def relations (r : Record c) : List (Field c) :=
  r.fields.filter (·.descriptor.type.isRelation)

end Record

/-- A bound record has the fields of the record. -/
theorem Bound.fields_record (b : Bound c k) : b.record.fields = b.fields := by
  show b.columns.fields (c.model k).descriptors = b.columns.fields b.descriptors
  rw [EntityModel.descriptors_of_describe b.described]

/-- A bound record has the relations of the record. -/
theorem Bound.relations_record (b : Bound c k) : b.record.relations = b.relations :=
  congrArg (List.filter _) b.fields_record

/-- The fields of a bound record are classified by the types of its columns. -/
theorem Bound.types_eq (b : Bound c k) :
    b.descriptors.map (·.type) = (c.model k).columnTypes.map (·.classify) := by
  rw [EntityModel.describe_types b.described, EntityModel.columnTypes, List.map_map]
  rfl

/-- The descriptors of a described model are classified by the types of its columns. -/
theorem Bound.descriptors_types (b : Bound c k) :
    (c.model k).descriptors.map (·.type) = (c.model k).columnTypes.map (·.classify) := by
  rw [EntityModel.descriptors_of_describe b.described]
  exact b.types_eq

/-- A field is classified by its type, where the descriptors are. -/
theorem Columns.field_type {ts : List (ColumnType n)} (columns : Columns c ts)
    {ds : List (Descriptor n)} (htypes : ds.map (·.type) = ts.map (·.classify)) {f : Field c}
    (hf : f ∈ columns.fields ds) : f.descriptor.type = f.type.classify := by
  induction ts generalizing ds with
  | nil =>
      cases columns
      cases hf
  | cons t ts ih =>
      cases columns with
      | cons cell cells =>
          cases ds with
          | nil => cases hf
          | cons d ds =>
              obtain ⟨htype, htypes⟩ := List.cons.inj htypes
              rcases List.mem_cons.1 hf with rfl | hf
              · exact htype
              · exact ih cells htypes hf

/-- A content is nil only where its column may be nil, if the column has a type. -/
theorem Cell.isNil_value_of_sqlType {t : ColumnType n}
    (ht : (Sql.SqlType.ofKind? t.classify.kind).isSome) (hnil : t.classify.isNullable = false)
    (cell : Cell c t) : cell.value.isNil = false := by
  induction t with
  | integer kind =>
      cases cell
      rw [value]
      split <;> rfl
  | nullable t => cases hnil
  | boxed t ih =>
      cases cell with
      | boxed inner => exact ih ht hnil inner
  | bool | float | double | text | dateTime | list =>
      cases cell
      rfl
  | raw | entity => cases ht

/-- A field whose column has a type has been assigned to exactly where it has a value. -/
theorem Bound.isNil_of_sqlType {b : Bound c k} {f : Field c} (hf : f ∈ b.fields)
    (ht : (Sql.SqlType.ofKind? f.descriptor.type.kind).isSome) : f.isNil = f.value.isNil := by
  rw [b.columns.field_type b.types_eq hf] at ht
  rw [Field.isNil, b.columns.field_type b.types_eq hf]
  cases hnullable : f.type.classify.isNullable with
  | true => exact Bool.true_and _
  | false => exact (f.cell.isNil_value_of_sqlType ht hnullable).symm

/-! ## Families -/

/-- The records that the columns of a record own, in order. -/
def Columns.owned : {ts : List (ColumnType n)} → Columns c ts → List (Record c)
  | _, .nil => []
  | t :: _, .cons cell cells =>
      (if t.classify.isOwnedRelation then cell.records else []) ++ cells.owned

mutual

/-- The records that a content holds, each after everything it owns. -/
def Cell.family : {t : ColumnType n} → Cell c t → List (Record c)
  | .entity k, .entity columns => columns.family ++ [⟨k, columns⟩]
  | _, .present inner => inner.family
  | _, .boxed inner => inner.family
  | _, .list items => items.family
  | _, _ => []

/-- The records that the items of a list hold, each after everything it owns. -/
def Items.family : {t : ColumnType n} → Items c t → List (Record c)
  | _, .nil => []
  | _, .cons item items => item.family ++ items.family

/-- The records that the columns of a record own, each after everything it owns. -/
def Columns.family : {ts : List (ColumnType n)} → Columns c ts → List (Record c)
  | _, .nil => []
  | t :: _, .cons cell cells =>
      (if t.classify.isOwnedRelation then cell.family else []) ++ cells.family

end

/-- A record after everything it owns, directly or through others. -/
def Record.family (r : Record c) : List (Record c) := r.columns.family ++ [r]

/-- A record belongs to its family. -/
theorem Record.mem_family_self (r : Record c) : r ∈ r.family :=
  List.mem_append_right _ List.mem_cons_self

mutual

/-- What a content brings along are the families of the records it holds. -/
theorem Cell.family_eq {t : ColumnType n} : (cell : Cell c t) →
    cell.family = cell.records.flatMap Record.family
  | .bool _ | .integer _ _ | .float _ | .double _ | .text _ | .dateTime _ | .raw _ | .absent => by
      simp [Cell.family, Cell.records]
  | .entity columns => by simp [Cell.family, Cell.records, Record.family]
  | .present inner => by rw [Cell.family, Cell.records, inner.family_eq]
  | .boxed inner => by rw [Cell.family, Cell.records, inner.family_eq]
  | .list items => by rw [Cell.family, Cell.records, items.family_eq]

theorem Items.family_eq {t : ColumnType n} : (items : Items c t) →
    items.family = items.records.flatMap Record.family
  | .nil => rfl
  | .cons item items => by
      rw [Items.family, Items.records, item.family_eq, items.family_eq, List.flatMap_append]

end

theorem Columns.family_eq {ts : List (ColumnType n)} (columns : Columns c ts) :
    columns.family = columns.owned.flatMap Record.family := by
  induction ts with
  | nil =>
      cases columns
      rfl
  | cons t ts ih =>
      cases columns with
      | cons cell cells =>
          rw [Columns.family, Columns.owned, ih cells, List.flatMap_append]
          split
          · rw [cell.family_eq]
          · rfl

/-- The family of a record: those of the records it owns, one after the other, and the record. -/
theorem Record.family_eq (r : Record c) :
    r.family = r.columns.owned.flatMap Record.family ++ [r] := by
  rw [Record.family, r.columns.family_eq]

/-- What the columns of a record own are the records of its fields that are no pointers. -/
theorem Columns.owned_eq {ts : List (ColumnType n)} (columns : Columns c ts)
    {ds : List (Descriptor n)} (htypes : ds.map (·.type) = ts.map (·.classify)) :
    columns.owned = ((columns.fields ds).filter (·.descriptor.type.isOwnedRelation)).flatMap
      (·.records) := by
  induction ts generalizing ds with
  | nil =>
      cases columns
      rfl
  | cons t ts ih =>
      cases columns with
      | cons cell cells =>
          cases ds with
          | nil => cases htypes
          | cons d ds =>
              obtain ⟨htype, htypes⟩ := List.cons.inj htypes
              have htype : d.type = t.classify := htype
              rw [Columns.owned, Columns.fields, ih cells htypes, List.filter_cons, htype]
              split
              · rfl
              · rfl

/-- Owned records are related records. -/
theorem FieldType.isRelation_of_isOwnedRelation {type : FieldType n}
    (h : type.isOwnedRelation = true) : type.isRelation = true := by
  obtain ⟨relation, hrelation, -⟩ := (Option.any_eq_true _ _).1 h
  rw [isRelation, hrelation]
  rfl

/-- A record owns the records of its relation fields that are no pointers, in order. -/
theorem Bound.owned_eq (b : Bound c k) :
    b.columns.owned = (b.relations.filter (·.descriptor.type.isOwnedRelation)).flatMap
      (·.records) := by
  rw [b.columns.owned_eq b.types_eq, relations, List.filter_filter]
  refine congrArg (List.flatMap _) (List.filter_congr fun f _ => ?_)
  cases h : f.descriptor.type.isOwnedRelation with
  | false => rfl
  | true => rw [FieldType.isRelation_of_isOwnedRelation h]; rfl

/-! ## The models of a family -/

/-- The model that a relation refers to is the one that the type is built on. -/
theorem ColumnType.base?_of_relation {t : ColumnType n} {relation : RelationType n}
    (h : t.classify.relation = some relation) : t.base? = some relation.model := by
  induction t generalizing relation with
  | entity j =>
      cases h
      rfl
  | nullable t ih | boxed t ih =>
      obtain ⟨inner, hinner, rfl⟩ := Option.map_eq_some_iff.1 h
      have hbase : t.base? = some inner.model := ih hinner
      exact hbase
  | list t ih =>
      rw [classify, FieldType.list] at h
      split at h
      · rename_i inner hinner
        cases h
        exact ih hinner
      · cases h
  | bool | integer | float | double | text | dateTime | raw => cases h

namespace Models

/-- What a model of a closure reaches is in the closure. -/
theorem closure_trans {ms : Models n} {i j k : Fin n} (hj : j ∈ ms.closure k)
    (hi : i ∈ ms.closure j) : i ∈ ms.closure k := by
  rcases hi with rfl | hi
  · exact hj
  · rcases hj with rfl | hj
    · exact .inr hi
    · exact .inr (hj.trans hi)

end Models

mutual

/-- The records of a content and those they own are of models in the closure of its base. -/
theorem Cell.family_closure {t : ColumnType n} {k : Fin n} {x : Record c} :
    (cell : Cell c t) → t.base? = some k → x ∈ cell.family → x.model ∈ c.closure k
  | .bool _, _, hx | .integer _ _, _, hx | .float _, _, hx | .double _, _, hx | .text _, _, hx
  | .dateTime _, _, hx | .raw _, _, hx | .absent, _, hx => absurd hx List.not_mem_nil
  | .entity columns, hbase, hx => by
      obtain rfl := Option.some.inj hbase
      rw [Cell.family] at hx
      rcases List.mem_append.1 hx with hx | hx
      · obtain ⟨t, ht, relation, hrelation, hclosure⟩ := columns.family_closure hx
        obtain ⟨f, hf, rfl⟩ := List.mem_map.1 ht
        exact Models.closure_trans (.inr (.single ⟨f, hf, relation, hrelation, rfl⟩)) hclosure
      · rw [List.mem_singleton.1 hx]
        exact .inl rfl
  | .present inner, hbase, hx => inner.family_closure hbase hx
  | .boxed inner, hbase, hx => inner.family_closure hbase hx
  | .list items, hbase, hx => items.family_closure hbase hx

theorem Items.family_closure {t : ColumnType n} {k : Fin n} {x : Record c} :
    (items : Items c t) → t.base? = some k → x ∈ items.family → x.model ∈ c.closure k
  | .nil, _, hx => absurd hx List.not_mem_nil
  | .cons item items, hbase, hx => by
      rcases List.mem_append.1 hx with hx | hx
      · exact item.family_closure hbase hx
      · exact items.family_closure hbase hx

theorem Columns.family_closure {ts : List (ColumnType n)} {x : Record c} :
    (columns : Columns c ts) → x ∈ columns.family → ∃ t ∈ ts,
      ∃ relation ∈ t.classify.relation, x.model ∈ c.closure relation.model
  | .nil, hx => absurd hx List.not_mem_nil
  | .cons (t := t) cell cells, hx => by
      rw [Columns.family] at hx
      rcases List.mem_append.1 hx with hx | hx
      · split at hx
        · rename_i howned
          obtain ⟨relation, hrelation, -⟩ := (Option.any_eq_true _ _).1 howned
          exact ⟨t, List.mem_cons_self, relation, hrelation,
            cell.family_closure (ColumnType.base?_of_relation hrelation) hx⟩
        · exact absurd hx List.not_mem_nil
      · obtain ⟨t', ht', h⟩ := cells.family_closure hx
        exact ⟨t', List.mem_cons_of_mem _ ht', h⟩

end

/-- The family of a record is of models that the record's model reaches. -/
theorem Record.family_closure {r x : Record c} (hx : x ∈ r.family) :
    x.model ∈ c.closure r.model :=
  (Cell.entity r.columns).family_closure rfl hx

end EntityMapper
