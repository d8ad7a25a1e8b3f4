import EntityMapper.Proofs.Storage.Generated

/-!
# Assigned relations

What a relation field holds after linked keys are assigned to it. A single relation given a key
holds the record it held before, or else a blank one, with the key assigned
(`Cell.records_assign_reference`); a list of keys makes a list of blank records with these keys
(`Cell.records_assign_references`); and nil empties a field that may be empty.
-/

namespace EntityMapper

variable {n : Nat} {c : Catalog n} {k : Fin n} {v : Value}

/-! ## Blank contents -/

/-- A record of a model before anything is assigned. -/
def Catalog.blankRecord (c : Catalog n) (k : Fin n) : Record c := ⟨k, c.blankColumns k⟩

/-- Assigning to one of several blank columns puts what is assigned in its place. -/
theorem Columns.assignAt_tabulate {fs : List (FieldModel n)} {index : Nat} {f : FieldModel n}
    (hf : fs[index]? = some f) (typed : (fs.map (·.type))[index]? = some f.type) :
    (Columns.tabulate fs fun g _ => c.blank g.type).assignAt index v = do
      let cell ← (c.blank f.type).assign v
      return (Columns.tabulate fs fun g _ => c.blank g.type).replaceAt index typed cell := by
  induction fs generalizing index with
  | nil => cases hf
  | cons g fs ih =>
      cases index with
      | zero =>
          obtain rfl := Option.some.inj hf
          rfl
      | succ index =>
          have hf : fs[index]? = some f := hf
          have typed' : (fs.map (·.type))[index]? = some f.type := typed
          rw [tabulate, assignAt, ih hf typed']
          cases (c.blank f.type).assign v <;> rfl

/-- Assigning to a record assigns to its key. -/
theorem Cell.assign_entity {columns : Columns c (c.model k).columnTypes} :
    (Cell.entity columns : Cell c (.entity k)).assign v = match (c.model k).offeredKey? with
      | some index => do return .entity (← columns.assignAt index v.key)
      | none => .error .missingPrimaryKey :=
  rfl

/-- The key that a model offers is one of its fields. -/
theorem EntityModel.offeredKey?_eq {m : EntityModel n} :
    m.offeredKey? = m.offeredKeyField?.map (·.val.1) := by
  rw [offeredKeyField?]
  split
  · assumption
  · rename_i index hindex
    split
    · rename_i hnone
      obtain ⟨f, hf, -⟩ := offeredKey?_declared hindex
      rw [hnone] at hf
      cases hf
    · exact hindex

theorem EntityModel.offeredKey?_of_field {m : EntityModel n}
    {found : { key : Nat × FieldModel n // m.fields[key.1]? = some key.2 ∧ key.2.isKey }}
    (h : m.offeredKeyField? = some found) : m.offeredKey? = some found.val.1 := by
  rw [offeredKey?_eq, h]
  rfl

/-- The column of a field has the type of the field. -/
theorem EntityModel.columnTypes_of_field {m : EntityModel n} {index : Nat} {f : FieldModel n}
    (hf : m.fields[index]? = some f) : m.columnTypes[index]? = some f.type := by
  rw [columnTypes, List.getElem?_map, hf]
  rfl

/-- A blank content of records is a blank record. -/
theorem Catalog.blank_entity : c.blank (.entity k) = .entity (c.blankColumns k) := by
  rw [blank]
  rfl

/-- Assigning to a blank content builds a new content. -/
theorem Catalog.assign_blank : (t : ColumnType n) → (v : Value) →
    (c.blank t).assign v = c.build t v
  | .bool, _ | .integer _, _ | .float, _ | .double, _ | .text, _ | .dateTime, _ | .raw, _
  | .nullable _, _ | .list _, _ => by
      rw [blank]
      rfl
  | .boxed t, v => by rw [blank, Cell.assign, build, assign_blank t v]
  | .entity k, v => by
      rw [blank_entity, Cell.assign_entity, build, EntityModel.offeredKey?_eq]
      cases (c.model k).offeredKeyField? with
      | none => rfl
      | some found =>
          obtain ⟨⟨index, f⟩, hf, hkey⟩ := found
          have typed := EntityModel.columnTypes_of_field hf
          have hassign : (c.blankColumns k).assignAt index v.key = do
              let cell ← (c.blank f.type).assign v.key
              return (c.blankColumns k).replaceAt index typed cell :=
            Columns.assignAt_tabulate hf typed
          rw [assign_blank f.type v.key] at hassign
          dsimp only [Option.map]
          rw [hassign]
          cases c.build f.type v.key <;> rfl
termination_by t => (c.baseRank t, t.depth)
decreasing_by
  · exact Prod.Lex.right _ (by simp [ColumnType.depth])
  · exact Prod.Lex.left _ _ (c.baseRank_key_lt (List.mem_of_getElem? hf) hkey)

/-! ## Assigned keys -/

/-- Whether a record is another one with a value assigned at the place of its key. -/
inductive Record.TakesKey (key : Value) : Record c → Record c → Prop
  | mk {k : Fin n} {columns columns' : Columns c (c.model k).columnTypes} {index : Nat}
      (hindex : (c.model k).offeredKey? = some index)
      (h : columns.assignAt index key.key = .ok columns') : TakesKey key ⟨k, columns⟩ ⟨k, columns'⟩

/-- A record assigned a key is the record with that key. -/
theorem Cell.takesKey_of_assign {columns : Columns c (c.model k).columnTypes} {key : Value}
    {cell : Cell c (.entity k)}
    (h : (Cell.entity columns : Cell c (.entity k)).assign (.reference key) = .ok cell) :
    ∃ x, cell.records = [x] ∧ Record.TakesKey key ⟨k, columns⟩ x := by
  rw [assign_entity] at h
  split at h
  · rename_i index hindex
    obtain ⟨columns', hcolumns, h⟩ := bind_eq_ok.1 h
    cases h
    exact ⟨⟨k, columns'⟩, rfl, .mk hindex hcolumns⟩
  · cases h

/-- A single relation holds at most the blank record at first. -/
theorem Catalog.headD_blank {t : ColumnType n} {relation : RelationType n}
    (hrelation : t.classify.relation = some relation) :
    (c.blank t).records.headD (c.blankRecord relation.model) = c.blankRecord relation.model := by
  induction t generalizing relation with
  | entity k =>
      cases hrelation
      rw [blank_entity]
      rfl
  | boxed t ih =>
      obtain ⟨inner, hinner, rfl⟩ := Option.map_eq_some_iff.1 hrelation
      rw [blank]
      have hblank := ih hinner
      exact hblank
  | nullable | list => rw [blank]; rfl
  | bool | integer | float | double | text | dateTime | raw => cases hrelation

/-- A single relation that is assigned a key holds the record it held, or else a blank one, with
that key. -/
theorem Cell.records_assign_reference {t : ColumnType n} {relation : RelationType n}
    (hrelation : t.classify.relation = some relation) (hkind : t.classify.kind = .record)
    {cell cell' : Cell c t} {key : Value} (h : cell.assign (.reference key) = .ok cell') :
    ∃ x, cell'.records = [x] ∧
      Record.TakesKey key (cell.records.headD (c.blankRecord relation.model)) x := by
  induction t generalizing relation with
  | entity k =>
      cases hrelation
      cases cell with
      | entity columns => exact takesKey_of_assign h
  | nullable t ih =>
      obtain ⟨inner, hinner, rfl⟩ := Option.map_eq_some_iff.1 hrelation
      cases cell with
      | absent =>
          have h : c.build (.nullable t) (.reference key) = .ok cell' := h
          rw [Catalog.build] at h
          obtain ⟨filled, hfilled, h⟩ := bind_eq_ok.1 h
          cases h
          rw [← Catalog.assign_blank] at hfilled
          obtain ⟨x, hx, htakes⟩ := ih hinner hkind hfilled
          rw [Catalog.headD_blank hinner] at htakes
          exact ⟨x, hx, htakes⟩
      | present held =>
          obtain ⟨filled, hfilled, h⟩ := bind_eq_ok.1 h
          cases h
          exact ih hinner hkind hfilled
  | boxed t ih =>
      obtain ⟨inner, hinner, rfl⟩ := Option.map_eq_some_iff.1 hrelation
      cases cell with
      | boxed held =>
          obtain ⟨filled, hfilled, h⟩ := bind_eq_ok.1 h
          cases h
          exact ih hinner hkind hfilled
  | list t =>
      rw [ColumnType.classify, FieldType.list] at hkind
      split at hkind <;> cases hkind
  | bool | integer | float | double | text | dateTime | raw => cases hrelation

/-- A content that is built from a key holds a blank record with that key. -/
theorem Catalog.records_build_reference {t : ColumnType n} {relation : RelationType n}
    (hrelation : t.classify.relation = some relation) {cell : Cell c t} {key : Value}
    (h : c.build t (.reference key) = .ok cell) :
    ∃ x, cell.records = [x] ∧ Record.TakesKey key (c.blankRecord relation.model) x := by
  induction t generalizing relation with
  | entity k =>
      cases hrelation
      rw [← assign_blank, blank_entity] at h
      exact Cell.takesKey_of_assign h
  | nullable t ih | boxed t ih =>
      obtain ⟨inner, hinner, rfl⟩ := Option.map_eq_some_iff.1 hrelation
      rw [build] at h
      obtain ⟨filled, hfilled, h⟩ := bind_eq_ok.1 h
      cases h
      exact ih hinner hfilled
  | list t =>
      -- a single key is no list
      rw [build] at h
      cases h
  | bool | integer | float | double | text | dateTime | raw => cases hrelation

/-- The records of a list of contents are those of its items. -/
theorem Items.records_ofList {t : ColumnType n} (cells : List (Cell c t)) :
    (Items.ofList cells).records = cells.flatMap Cell.records := by
  induction cells with
  | nil => rfl
  | cons cell cells ih => rw [ofList, records, ih, List.flatMap_cons]

/-- Contents that are built from keys hold a blank record with each of them, in order. -/
theorem Catalog.records_build_references {t : ColumnType n} {relation : RelationType n}
    (hrelation : t.classify.relation = some relation) {keys : List Value} {cells : List (Cell c t)}
    (h : List.Forall₂ (fun key cell => c.build t (.reference key) = .ok cell) keys cells) :
    List.Forall₂ (Record.TakesKey · (c.blankRecord relation.model) ·) keys
      (cells.flatMap Cell.records) := by
  induction h with
  | nil => exact .nil
  | cons hcell _ ih =>
      obtain ⟨x, hx, htakes⟩ := records_build_reference hrelation hcell
      rw [List.flatMap_cons, hx, List.singleton_append]
      exact .cons htakes ih

/-- A relation to a list that is assigned keys holds a blank record with each of them, in order, and
no other. -/
theorem Cell.records_assign_references {t : ColumnType n} {relation : RelationType n}
    (hrelation : t.classify.relation = some relation) (hkind : t.classify.kind = .recordList)
    {cell cell' : Cell c t} {keys : List Value}
    (h : cell.assign (.list (keys.map .reference)) = .ok cell') :
    List.Forall₂ (Record.TakesKey · (c.blankRecord relation.model) ·) keys cell'.records := by
  induction t generalizing relation with
  | entity k => cases hkind
  | nullable t ih =>
      obtain ⟨inner, hinner, rfl⟩ := Option.map_eq_some_iff.1 hrelation
      cases cell with
      | absent =>
          have h : c.build (.nullable t) (.list (keys.map .reference)) = .ok cell' := h
          rw [Catalog.build] at h
          obtain ⟨filled, hfilled, h⟩ := bind_eq_ok.1 h
          cases h
          rw [← Catalog.assign_blank] at hfilled
          exact ih hinner hkind hfilled
      | present held =>
          obtain ⟨filled, hfilled, h⟩ := bind_eq_ok.1 h
          cases h
          exact ih hinner hkind hfilled
  | boxed t ih =>
      obtain ⟨inner, hinner, rfl⟩ := Option.map_eq_some_iff.1 hrelation
      cases cell with
      | boxed held =>
          obtain ⟨filled, hfilled, h⟩ := bind_eq_ok.1 h
          cases h
          exact ih hinner hkind hfilled
  | list t =>
      have hitem : t.classify.relation = some relation := by
        rw [ColumnType.classify, FieldType.list] at hrelation
        split at hrelation
        · rename_i hitem
          cases hrelation
          exact hitem
        · cases hrelation
      cases cell with
      | list items =>
          have h : c.build (.list t) (.list (keys.map .reference)) = .ok cell' := h
          rw [Catalog.build] at h
          obtain ⟨values, hvalues, h⟩ := bind_eq_ok.1 h
          cases hvalues
          obtain ⟨cells, hcells, h⟩ := bind_eq_ok.1 h
          cases h
          rw [mapM_eq_ok_iff, List.forall₂_map_left_iff] at hcells
          rw [Cell.records, Items.records_ofList]
          exact Catalog.records_build_references hitem hcells
  | bool | integer | float | double | text | dateTime | raw => cases hrelation

/-- A relation that may be empty is so after nil is assigned. -/
theorem Cell.assign_nil {t : ColumnType n} (hnullable : t.classify.isNullable = true)
    {cell cell' : Cell c t} (h : cell.assign .nil = .ok cell') :
    cell'.records = [] ∧ cell'.value = .nil := by
  induction t with
  | nullable t =>
      cases cell with
      | absent =>
          have h : c.build (.nullable t) .nil = .ok cell' := h
          rw [Catalog.build] at h
          cases h
          exact ⟨rfl, rfl⟩
      | present held =>
          cases h
          exact ⟨rfl, rfl⟩
  | boxed t ih =>
      cases cell with
      | boxed held =>
          obtain ⟨filled, hfilled, h⟩ := bind_eq_ok.1 h
          cases h
          exact ih hnullable hfilled
  | list t =>
      rw [ColumnType.classify, FieldType.list] at hnullable
      split at hnullable <;> cases hnullable
  | bool | integer | float | double | text | dateTime | raw | entity => cases hnullable

/-! ## Keyed records -/

/-- Whether a record is another one with a value assigned to its key, and nothing else changed. -/
def Record.Keyed (v : Value) (x y : Record c) : Prop :=
  x.model = y.model ∧
    List.Forall₂ (fun f g => if f.descriptor.tag.isKey then f.Becomes v g else g = f)
      x.fields y.fields

/-- The field at the position of the key is flagged as the key. -/
theorem EntityModel.offeredKey?_descriptor {m : EntityModel n} {ds : List (Descriptor n)}
    (hds : m.describe = .ok ds) {index : Nat} (hindex : m.offeredKey? = some index) :
    ∃ d ∈ ds, d.index = index ∧ d.tag.isKey = true := by
  obtain ⟨f, hf, hkey⟩ := offeredKey?_declared hindex
  obtain ⟨hlength, hdescribes⟩ := List.forall₂_iff_get.1 (describe_forall₂ hds)
  obtain ⟨hlt, hf⟩ := List.getElem?_eq_some_iff.1 hf
  have hlt' : index < ds.length := hlength ▸ hlt
  have hdescribed : Describes f ds[index] := hf ▸ hdescribes index hlt hlt'
  refine ⟨ds[index], List.getElem_mem hlt', ?_, hdescribed.isKey_eq ▸ hkey⟩
  have hat := congrArg (·[index]?) (describe_indices hds)
  simpa [hlt'] using hat

/-- A record that is assigned a key is the record with this key. -/
theorem Record.TakesKey.keyed {key : Value} {x y : Record c} (h : TakesKey key x y)
    (b : Bound c y.model) : Keyed key.key x y := by
  cases h with
  | @mk k columns columns' index hindex hassign =>
      obtain ⟨d, hd, rfl, hkey⟩ := EntityModel.offeredKey?_descriptor b.described hindex
      have hfields := Bound.forall₂_assignKey (b := ⟨columns, b.descriptors, b.described⟩) hd hkey
        hassign
      refine ⟨rfl, ?_⟩
      rw [fields, fields, EntityModel.descriptors_of_describe b.described]
      exact hfields

end EntityMapper
