import EntityMapper.Proofs.Sql.Sealing
import EntityMapper.Proofs.Storage.Generated

/-!
# The columns of the statements about a row

The definition of a table is made from the model alone (`Models.createTable_ok`), the statements
about a row from the fields of a record. They agree: a selection lists the declared columns, an
insertion and an update name a choice of them, with the literal of the field under each
(`Bound.statements_agree`).
-/

namespace EntityMapper

open Sql

variable {n : Nat}

/-! ## Declared columns -/

/-- What the declaration of a stored field has to say about it. -/
structure Declares (d : Descriptor n) (column : ColumnDeclaration) : Prop where
  name_eq : column.name = d.column
  isAuto_eq : column.isAuto = d.tag.isAuto

namespace Models

variable {ms : Models n} {k : Fin n}

/-- A declaration has the name of the field's column, and its flag. -/
theorem declareField_ok {d : Descriptor n} {column : ColumnDeclaration}
    (h : ms.declareField k d = .ok column) : Declares d column := by
  rw [declareField] at h
  split at h
  · cases h
    exact ⟨rfl, rfl⟩
  · cases h

/-- A table that is created has a declaration of each stored field, and the key that is flagged. -/
theorem createTable_fields {s : Statement} (h : ms.createTable k = .ok s) :
    ∃ ds columns, (ms.model k).describe = .ok ds ∧
      List.Forall₂ (fun d column => ms.declareField k d = .ok column) (ds.filter (·.isColumn))
        columns ∧
      s = .createTable (ms.model k).table columns ((ds.find? (·.tag.isKey)).map (·.column)) := by
  obtain ⟨ds, hds, h⟩ := bind_eq_ok.1 h
  obtain ⟨columns, hcolumns, h⟩ := bind_eq_ok.1 h
  dsimp only at h
  split at h
  · cases h
  · exact ⟨ds, columns, hds, mapM_eq_ok_iff.1 hcolumns, (Except.ok.inj h).symm⟩

/-- A table that is created declares the stored fields in order, and the key that is flagged. -/
theorem createTable_ok {s : Statement} (h : ms.createTable k = .ok s) :
    ∃ ds columns, (ms.model k).describe = .ok ds ∧
      List.Forall₂ Declares (ds.filter (·.isColumn)) columns ∧
      s = .createTable (ms.model k).table columns ((ds.find? (·.tag.isKey)).map (·.column)) := by
  obtain ⟨ds, columns, hds, hcolumns, hs⟩ := createTable_fields h
  exact ⟨ds, columns, hds, hcolumns.imp fun _ _ => declareField_ok, hs⟩

end Models

/-- A choice of the declared columns by name and flag is that choice of the fields. -/
theorem declared_names {ds : List (Descriptor n)} {columns : List ColumnDeclaration}
    (h : List.Forall₂ Declares ds columns) (p : String → Bool → Bool) :
    (columns.filter fun column => p column.name column.isAuto).map (·.name)
      = (ds.filter fun d => p d.column d.tag.isAuto).map (·.column) := by
  induction h with
  | nil => rfl
  | @cons d column ds columns hd _ ih =>
      rw [List.filter_cons, List.filter_cons, hd.name_eq, hd.isAuto_eq]
      split
      · rw [List.map_cons, List.map_cons, ih, hd.name_eq]
      · exact ih

/-- Every relational kind is composite. -/
theorem FieldKind.isComposite_of_isRelation {kind : FieldKind} (h : kind.isRelation = true) :
    kind.isComposite = true := by
  cases kind with
  | record | recordList => rfl
  | bool | text | dateTime | integer | float | double | list => cases h

variable {c : Catalog n} {k : Fin n}

namespace Bound

/-! ## Assigned literals -/

/-- Whether the field that a record stores under a column has a certain literal. -/
def Holds (b : Bound c k) (column : String) (literal : Literal) : Prop :=
  ∃ f ∈ b.stored, f.column = column ∧ f.literal? = .ok (some literal)

/-- Whether a clause compares the given key column with the key of a record. -/
def Addresses (b : Bound c k) (key : Option String) (clause : Assignment) : Prop :=
  key = some clause.column ∧ b.keyLiteral = .ok clause.literal

/-- The assignments are those of the fields that are not nil, each with its own literal. -/
theorem assignments_forall₂ {fs : List (Field c)} {as : List Assignment}
    (h : assignments fs = .ok as) :
    List.Forall₂ (fun f (a : Assignment) => f.column = a.column ∧ f.literal? = .ok (some a.literal))
      (fs.filter (!·.value.isNil)) as := by
  induction fs generalizing as with
  | nil =>
      cases h
      exact .nil
  | cons f fs ih =>
      obtain ⟨l, hl, h⟩ := bind_eq_ok.1 h
      have hnil := Field.isNil_of_literal? hl
      cases l with
      | none =>
          rw [List.filter_cons_of_neg (by simp [hnil])]
          exact ih h
      | some literal =>
          obtain ⟨rest, hrest, h⟩ := bind_eq_ok.1 h
          cases h
          rw [List.filter_cons_of_pos (by simp [hnil])]
          exact .cons ⟨rfl, hl⟩ (ih hrest)

variable {b : Bound c k}

/-- What is assigned from a choice of the stored fields is held by the record. -/
theorem forall₂_holds {p : Field c → Bool} {as : List Assignment}
    (h : assignments (b.stored.filter p) = .ok as) :
    List.Forall₂ b.Holds (as.map (·.column)) (as.map (·.literal)) := by
  rw [List.forall₂_map_left_iff, List.forall₂_map_right_iff, List.forall₂_same]
  intro a ha
  obtain ⟨f, hf, hcolumn, hliteral⟩ := exists_of_forall₂ (assignments_forall₂ h) ha
  exact ⟨f, List.mem_of_mem_filter (List.mem_of_mem_filter hf), hcolumn, hliteral⟩

/-! ## Keys and relations -/

/-- The key is stored as a column. -/
theorem isColumn_of_isKey {d : Descriptor n} (hd : d ∈ b.descriptors) (hkey : d.tag.isKey = true) :
    d.isColumn = true := by
  obtain ⟨f, -, hdescribes⟩ := EntityModel.describes_of_mem b.described hd
  have hscalar := (EntityModel.describe_flags b.described hd).2 hkey
  rw [Descriptor.isColumn, FieldType.isRelation]
  cases hrelation : d.type.relation with
  | none => rfl
  | some relation =>
      rw [hdescribes.type_eq] at hrelation hscalar
      rw [FieldKind.isComposite_of_isRelation (ColumnType.isRelation_kind hrelation)] at hscalar
      cases hscalar

/-- The column that the description names as the key is flagged so, and no other is. -/
theorem isKey_iff {d : Descriptor n} (hd : d ∈ b.descriptors) :
    d.tag.isKey = true ↔ (b.descriptors.find? (·.tag.isKey)).map (·.column) = some d.column := by
  constructor
  · intro hkey
    cases hfind : b.descriptors.find? (·.tag.isKey) with
    | none => exact absurd hkey (by simpa using List.find?_eq_none.1 hfind d hd)
    | some e =>
        have he : e.tag.isKey = true := by simpa using List.find?_some hfind
        have hfound : e ∈ b.descriptors := List.mem_of_find?_eq_some hfind
        rw [EntityModel.describe_key_unique b.described hfound hd he hkey]
        rfl
  · intro hcolumn
    obtain ⟨e, hfind, hcolumn⟩ := Option.map_eq_some_iff.1 hcolumn
    have hnodup := EntityModel.describe_columns_nodup b.described
    obtain rfl := List.inj_on_of_nodup_map hnodup (List.mem_of_find?_eq_some hfind) hd hcolumn
    simpa using List.find?_some hfind

/-- The clause that is built for a record addresses its row by the key of the description. -/
theorem addresses_of_keyClause {clause : Assignment} (h : b.keyClause = .ok clause) :
    b.Addresses ((b.descriptors.find? (·.tag.isKey)).map (·.column)) clause := by
  obtain ⟨f, literal, -, -, hliteral, hclause⟩ := keyClause_eq_ok h
  exact ⟨(keyClause_column h).symm, hclause ▸ hliteral⟩

/-! ## All statements about a row -/

/-- The columns that are assigned from a choice of the stored fields are that choice of the declared
ones, without the nil columns. -/
theorem assigned_declared {columns : List ColumnDeclaration}
    (hcolumns : List.Forall₂ Declares (b.descriptors.filter (·.isColumn)) columns)
    {p : Descriptor n → Bool} {q : String → Bool → Bool}
    (hp : ∀ d ∈ b.descriptors, p d = q d.column d.tag.isAuto) {as : List Assignment}
    (has : assignments (b.stored.filter fun f => p f.descriptor) = .ok as) :
    as.map (·.column) = (columns.filter fun column =>
      q column.name column.isAuto && decide (column.name ∉ b.nilColumns)).map (·.name) := by
  rw [declared_names hcolumns fun name auto => q name auto && decide (name ∉ b.nilColumns),
    assigned_columns has, stored_descriptors, List.filter_map, List.filter_filter]
  refine congrArg _ (List.filter_congr fun d hd => ?_)
  rw [hp d (List.mem_of_mem_filter hd), Bool.and_comm]
  rfl

/-- No two declared columns share a name. -/
theorem declared_nodup {columns : List ColumnDeclaration}
    (h : List.Forall₂ Declares (b.descriptors.filter (·.isColumn)) columns) :
    (columns.map (·.name)).Nodup := by
  have hnames : columns.map (·.name) = (b.descriptors.filter (·.isColumn)).map (·.column) := by
    simpa using declared_names h fun _ _ => true
  rw [hnames]
  exact (EntityModel.describe_columns_nodup b.described).sublist (List.filter_sublist.map _)

/-- All statements about the row of a record agree with the definition of its table. The selection
lists the declared columns in order. The insertion lists those that are neither generated nor nil,
and the update sets those that are neither the key nor nil, each with its own literal. Rows are
addressed by the declared key with the record's key literal, and no relation is a column. -/
theorem statements_agree (b : Bound c k) {create : Statement}
    (hcreate : c.createTable k = .ok create) :
    ∃ columns key, create = .createTable b.table columns key ∧
      columns.map (·.name) = (b.descriptors.filter (!·.type.isRelation)).map (·.column) ∧
      (∀ d ∈ b.descriptors, d.type.isRelation = true →
        d.column ∉ columns.map (·.name) ∧ key ≠ some d.column) ∧
      (∀ s, b.selectRow = .ok s → ∃ clause, b.Addresses key clause ∧
        s.text = "SELECT " ++ columnList (columns.map (·.name)) ++ " FROM " ++
          identifier b.table ++ " WHERE " ++ clause.text) ∧
      (∀ s, b.insertRow = .ok s → ∃ names literals, List.Forall₂ b.Holds names literals ∧
        names = (columns.filter fun column =>
          !column.isAuto && decide (column.name ∉ b.nilColumns)).map (·.name) ∧
        s.text = "INSERT INTO " ++ identifier b.table ++ " (" ++ columnList names ++
          ") VALUES (" ++ separated "," (literals.map (·.text)) ++ ")") ∧
      (∀ s, b.updateRow = .ok s → ∃ names literals clause, List.Forall₂ b.Holds names literals ∧
        names = (columns.filter fun column =>
          decide (key ≠ some column.name) && decide (column.name ∉ b.nilColumns)).map (·.name) ∧
        b.Addresses key clause ∧
        s.text = "UPDATE " ++ identifier b.table ++ " SET " ++ separated ","
          (List.zipWith (fun name literal => identifier name ++ "=" ++ literal.text) names
            literals) ++ " WHERE " ++ clause.text) ∧
      ∀ s, b.deleteRow = .ok s → ∃ clause, b.Addresses key clause ∧
        s.text = "DELETE FROM " ++ identifier b.table ++ " WHERE " ++ clause.text := by
  obtain ⟨ds, columns, hds, hcolumns, rfl⟩ := Models.createTable_ok hcreate
  obtain rfl : b.descriptors = ds := Except.ok.inj (b.described.symm.trans hds)
  have hnames : columns.map (·.name) = (b.descriptors.filter (·.isColumn)).map (·.column) := by
    simpa using declared_names hcolumns fun _ _ => true
  refine ⟨columns, _, rfl, hnames, fun d hd hrelation => ⟨fun hlisted => ?_, fun hkey => ?_⟩,
    fun s hs => ?_, fun s hs => ?_, fun s hs => ?_, fun s hs => ?_⟩
  · rw [hnames] at hlisted
    obtain ⟨e, he, hcolumn⟩ := List.mem_map.1 hlisted
    obtain ⟨he, hstored⟩ := List.mem_filter.1 he
    obtain rfl := List.inj_on_of_nodup_map (EntityModel.describe_columns_nodup b.described) he hd
      hcolumn
    rw [Descriptor.isColumn, hrelation] at hstored
    cases hstored
  · have hstored := isColumn_of_isKey hd ((isKey_iff hd).2 hkey)
    rw [Descriptor.isColumn, hrelation] at hstored
    cases hstored
  · obtain ⟨clause, hclause, hs⟩ := bind_eq_ok.1 hs
    cases hs
    refine ⟨clause, addresses_of_keyClause hclause, ?_⟩
    rw [hnames, ← stored_descriptors, List.map_map]
    rfl
  · obtain ⟨as, has, hs⟩ := bind_eq_ok.1 hs
    cases hs
    refine ⟨as.map (·.column), as.map (·.literal), forall₂_holds has, ?_, ?_⟩
    · exact assigned_declared (q := fun _ auto => !auto) hcolumns (fun _ _ => rfl) has
    · rw [List.map_map]
      rfl
  · obtain ⟨as, clause, has, hclause, rfl⟩ := updateRow_ok hs
    refine ⟨as.map (·.column), as.map (·.literal), clause, forall₂_holds has, ?_,
      addresses_of_keyClause hclause, ?_⟩
    · refine assigned_declared (p := (!·.tag.isKey)) (q := fun name _ => decide (_ ≠ some name))
        hcolumns (fun d hd => ?_) has
      rw [decide_not, Bool.not_inj_iff, Bool.eq_iff_iff, decide_eq_true_iff]
      exact isKey_iff hd
    · rw [List.zipWith_map, List.zipWith_self]
      rfl
  · obtain ⟨clause, hclause, hs⟩ := bind_eq_ok.1 hs
    cases hs
    exact ⟨clause, addresses_of_keyClause hclause, rfl⟩

end Bound

/-- Letters with a generated id, a remark that may be missing, a topic and the letter replied to. -/
def letters : Catalog 1 where
  model _ :=
    { ident := "Letter", path := "letters", explicitName := none
      fields := [⟨"id", "id key auto", .integer .int64⟩, ⟨"remark", "remark", .nullable .text⟩,
        ⟨"subject", "topic", .text⟩, ⟨"reply", "reply", .nullable (.boxed (.entity 0))⟩]
      offered := none }
  rank _ := 0
  rank_lt := by decide +kernel

/-- A letter without a remark. -/
def letter : Bound letters 0 where
  columns := .cons (.integer 7 (by decide)) <| .cons .absent <| .cons (.text "it's") <|
    .cons .absent .nil
  descriptors :=
    [⟨0, "id", ⟨"id", true, true, FieldTag.id_ne, FieldTag.id_chars⟩, .scalar (.integer .int64)⟩,
      ⟨1, "remark", ⟨"remark", false, false, by decide, by decide⟩, .nullable (.scalar .text)⟩,
      ⟨2, "subject", ⟨"topic", false, false, by decide, by decide⟩, .scalar .text⟩,
      ⟨3, "reply", ⟨"reply", false, false, by decide, by decide⟩,
        ⟨.record, true, true, some ⟨0, true⟩⟩⟩]
  described := by decide +kernel

/-- The statements about a letter agree: the selection lists three columns, and the insertion and
the update name the topic alone. -/
theorem letter_statements_agree :
    letters.createTable 0 = .ok (.createTable "letters_Letter"
      [⟨"id", .bigint, true⟩, ⟨"remark", .text, false⟩, ⟨"topic", .text, false⟩] (some "id")) ∧
    letter.selectRow.map (·.text)
      = .ok "SELECT `id`,`remark`,`topic` FROM `letters_Letter` WHERE `id`=7" ∧
    letter.deleteRow.map (·.text) = .ok "DELETE FROM `letters_Letter` WHERE `id`=7" ∧
    (∃ s names literals, letter.insertRow = .ok s ∧ List.Forall₂ letter.Holds names literals ∧
      names = ["topic"] ∧ s.text = "INSERT INTO `letters_Letter` (" ++ columnList names ++
        ") VALUES (" ++ separated "," (literals.map (·.text)) ++ ")") ∧
    ∃ s names literals clause, letter.updateRow = .ok s ∧
      List.Forall₂ letter.Holds names literals ∧ names = ["topic"] ∧
      letter.Addresses (some "id") clause ∧
      s.text = "UPDATE `letters_Letter` SET " ++ separated ","
        (List.zipWith (fun name literal => identifier name ++ "=" ++ literal.text) names
          literals) ++ " WHERE " ++ clause.text := by
  have hcreate : letters.createTable 0 = .ok (.createTable "letters_Letter"
      [⟨"id", .bigint, true⟩, ⟨"remark", .text, false⟩, ⟨"topic", .text, false⟩] (some "id")) := by
    decide +kernel
  obtain ⟨columns, key, hshape, -, -, -, hinsert, hupdate, -⟩ := letter.statements_agree hcreate
  obtain ⟨htable, rfl, rfl⟩ := Statement.createTable.inj hshape
  rw [← htable] at hinsert hupdate
  refine ⟨hcreate, by decide +kernel, by decide +kernel, ?_, ?_⟩
  · have hbuilt : letter.insertRow
        = .ok (.insertRow "letters_Letter" [⟨"topic", .string "it's"⟩]) := by decide +kernel
    obtain ⟨names, literals, hholds, hnames, htext⟩ := hinsert _ hbuilt
    exact ⟨_, names, literals, hbuilt, hholds, hnames.trans (by decide +kernel), htext⟩
  · have hbuilt : letter.updateRow = .ok (.updateRow "letters_Letter" [⟨"topic", .string "it's"⟩]
        ⟨"id", .integer 7⟩) := by
      decide +kernel
    obtain ⟨names, literals, clause, hholds, hnames, haddresses, htext⟩ := hupdate _ hbuilt
    exact ⟨_, names, literals, clause, hbuilt, hholds, hnames.trans (by decide +kernel), haddresses,
      htext⟩

end EntityMapper
