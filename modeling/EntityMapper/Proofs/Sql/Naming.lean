import EntityMapper.Proofs.Session.Requests
import EntityMapper.Proofs.Sql.Identifiers
import EntityMapper.Proofs.Sql.RowColumns

/-!
# Names in the statements about a model

The statements that are built for a model name its table, the link tables of its relations, its
columns, and the three columns of a link table (`Catalog.Builds.names_of`). Columns are named by
tags, which admit no backquote, and tables by whatever the models and the fields are called. So all
these statements are read as the names they are built from exactly when no table that the model
owns has a backquote in its name (`Models.identifiers_read_iff`).
-/

namespace EntityMapper

open Sql

variable {n : Nat} {c : Catalog n} {k : Fin n}

/-- The statements that are built for a model: about its table and the link tables of its relations,
about the rows of its records, and about their links to any others. -/
inductive Catalog.Builds (c : Catalog n) (k : Fin n) : Statement → Prop
  | createTable {s : Statement} (h : c.createTable k = .ok s) : Builds c k s
  | dropTable : Builds c k (c.dropTable k)
  | createLinks {rs : List (Relation n)} {r : Relation n} (hrs : c.relations k = .ok rs)
      (hr : r ∈ rs) : Builds c k (c.createLinks r)
  | dropLinks {rs : List (Relation n)} {r : Relation n} (hrs : c.relations k = .ok rs)
      (hr : r ∈ rs) : Builds c k (c.dropLinks r)
  | insertRow {b : Bound c k} {s : Statement} (h : b.insertRow = .ok s) : Builds c k s
  | updateRow {b : Bound c k} {s : Statement} (h : b.updateRow = .ok s) : Builds c k s
  | deleteRow {b : Bound c k} {s : Statement} (h : b.deleteRow = .ok s) : Builds c k s
  | selectRow {b : Bound c k} {s : Statement} (h : b.selectRow = .ok s) : Builds c k s
  | insertLink {b : Bound c k} {f : Field c} {related : Record c} {s : Statement}
      (hf : f ∈ b.fields) (h : b.insertLink f related = .ok s) : Builds c k s
  | deleteLink {b : Bound c k} {f : Field c} {related : Record c} {s : Statement}
      (hf : f ∈ b.fields) (h : b.deleteLink f related = .ok s) : Builds c k s
  | clearLinks {b : Bound c k} {f : Field c} {s : Statement} (hf : f ∈ b.fields)
      (h : b.clearLinks f = .ok s) : Builds c k s
  | selectLinks {b : Bound c k} {f : Field c} {s : Statement} (hf : f ∈ b.fields)
      (h : b.selectLinks f = .ok s) : Builds c k s

namespace Models

/-- The columns of every link table. -/
def linkColumns : List String := ["id", "left", "right"]

/-- The names that come from a model: the tables it owns, its columns, and those of links. -/
inductive Names (ms : Models n) (k : Fin n) : String → Prop
  | table {table : String} (h : ms.Owns k table) : Names ms k table
  | column {ds : List (Descriptor n)} {d : Descriptor n} (hds : (ms.model k).describe = .ok ds)
      (hd : d ∈ ds) : Names ms k d.column
  | link {column : String} (h : column ∈ linkColumns) : Names ms k column

variable {ms : Models n}

/-- Where the tables of a model are plain, all names that come from it are. -/
theorem Names.plain (hplain : ∀ table, ms.Owns k table → PlainName table) {name : String}
    (h : ms.Names k name) : PlainName name := by
  cases h with
  | table h => exact hplain name h
  | column hds hd => exact FieldTag.plainName _
  | link h =>
      revert name
      decide

/-- The relations of a described model are those of its fields. -/
theorem relations_of_describe {ds : List (Descriptor n)} (hds : (ms.model k).describe = .ok ds) :
    ∃ rs, ms.relations k = .ok rs ∧ ∀ r, r ∈ rs ↔
      ∃ f ∈ (ms.model k).fields, ∃ relation ∈ f.type.classify.relation,
        r = ⟨k, f.name, relation.model, relation.isPointer⟩ := by
  refine ⟨_, bind_eq_ok.2 ⟨ds, hds, rfl⟩, fun r => ⟨fun hr => ?_, ?_⟩⟩
  · obtain ⟨d, hd, hr⟩ := List.mem_filterMap.1 hr
    obtain ⟨relation, hrelation, rfl⟩ := Option.map_eq_some_iff.1 hr
    obtain ⟨f, hf, hdescribes⟩ := EntityModel.describes_of_mem hds hd
    rw [hdescribes.type_eq] at hrelation
    exact ⟨f, hf, relation, hrelation, by rw [hdescribes.name_eq]⟩
  · rintro ⟨f, hf, relation, hrelation, rfl⟩
    obtain ⟨d, hd, hdescribes⟩ := exists_of_forall₂ (EntityModel.describe_forall₂ hds).flip hf
    refine List.mem_filterMap.2 ⟨d, hd, Option.map_eq_some_iff.2 ⟨relation, ?_, ?_⟩⟩
    · rwa [hdescribes.type_eq]
    · rw [hdescribes.name_eq]

/-- The names of a described model are plain exactly when the tables are that it owns. -/
theorem plainNames_iff {ds : List (Descriptor n)} (hds : (ms.model k).describe = .ok ds) :
    ms.PlainNames k ↔ ∀ table, ms.Owns k table → PlainName table := by
  obtain ⟨rs, hrs, hmem⟩ := relations_of_describe hds
  constructor
  · rintro ⟨htable, hfields⟩ table howns
    cases howns with
    | table => exact htable
    | links hrs' hr =>
        obtain rfl : rs = _ := Except.ok.inj (hrs.symm.trans hrs')
        obtain ⟨f, hf, relation, hrelation, rfl⟩ := (hmem _).1 hr
        exact plain_linkTable_iff.2 ⟨htable, hfields f hf relation hrelation⟩
  · refine fun howned => ⟨howned _ .table, fun f hf relation hrelation => ?_⟩
    have hlinks := howned _ (.links hrs ((hmem _).2 ⟨f, hf, relation, hrelation, rfl⟩))
    exact (plain_linkTable_iff.1 hlinks).2

end Models

namespace Bound

variable {b : Bound c k}

/-- The columns that a choice of fields is assigned under come from the model. -/
theorem names_assignments {p : Field c → Bool} {as : List Assignment}
    (h : assignments (b.stored.filter p) = .ok as) : ∀ a ∈ as, c.Names k a.column := by
  intro a ha
  obtain ⟨f, hf, hcolumn, -⟩ := exists_of_forall₂ (assignments_forall₂ h) ha
  have hfield := List.mem_of_mem_filter (List.mem_of_mem_filter (List.mem_of_mem_filter hf))
  exact hcolumn ▸ .column b.described (b.descriptor_mem hfield)

/-- The column that addresses a row comes from the model. -/
theorem names_keyClause {key : Assignment} (h : b.keyClause = .ok key) : c.Names k key.column := by
  obtain ⟨d, hd, hcolumn⟩ := Option.map_eq_some_iff.1 (keyClause_column h).symm
  exact hcolumn ▸ .column b.described (List.mem_of_find?_eq_some hd)

end Bound

namespace Catalog.Builds

variable {s : Statement}

/-- A statement that is built for a model is about a table that the model owns. -/
theorem owns (h : c.Builds k s) : c.Owns k s.table := by
  cases h with
  | createTable h =>
      obtain ⟨ds, columns, -, -, rfl⟩ := Models.createTable_ok h
      exact .table
  | dropTable => exact .table
  | createLinks hrs hr | dropLinks hrs hr => exact .links hrs hr
  | insertRow h => exact (Bound.uses_insertRow h).owns
  | updateRow h => exact (Bound.uses_updateRow h).owns
  | deleteRow h => exact (Bound.uses_deleteRow h).owns
  | selectRow h => exact (Bound.uses_selectRow h).owns
  | insertLink hf h => exact (Bound.uses_insertLink (Bound.descriptor_mem _ hf) h).owns
  | deleteLink hf h => exact (Bound.uses_deleteLink (Bound.descriptor_mem _ hf) h).owns
  | clearLinks hf h => exact (Bound.uses_clearLinks (Bound.descriptor_mem _ hf) h).owns
  | selectLinks hf h => exact (Bound.uses_selectLinks (Bound.descriptor_mem _ hf) h).owns

/-- The names in a statement that is built for a model come from the model. -/
theorem names_of (h : c.Builds k s) : ∀ name ∈ s.names, c.Names k name := by
  have htable : c.Names k s.table := .table h.owns
  have hlink : ∀ column ∈ Models.linkColumns, c.Names k column := fun column => .link
  simp only [Models.linkColumns, List.forall_mem_cons] at hlink
  obtain ⟨hid, hleft, hright, -⟩ := hlink
  cases h with
  | createTable h =>
      obtain ⟨ds, columns, hds, hcolumns, rfl⟩ := Models.createTable_ok h
      have hcolumn : ∀ {d}, d ∈ ds → c.Names k d.column := fun hd => .column hds hd
      refine List.forall_mem_cons.2 ⟨htable, List.forall_mem_append.2 ⟨?_, fun key hkey => ?_⟩⟩
      · refine List.forall_mem_map.2 fun column hmem => ?_
        obtain ⟨d, hd, hdeclares⟩ := exists_of_forall₂ hcolumns hmem
        exact hdeclares.name_eq ▸ hcolumn (List.mem_of_mem_filter hd)
      · obtain ⟨d, hd, rfl⟩ := Option.map_eq_some_iff.1 (Option.mem_toList.1 hkey)
        exact hcolumn (List.mem_of_find?_eq_some hd)
  | dropTable | dropLinks => exact List.forall_mem_singleton.2 htable
  | createLinks =>
      simp only [Models.createLinks, Statement.names, List.forall_mem_cons]
      exact ⟨htable, hid, hleft, hright, hid, List.forall_mem_nil _⟩
  | insertRow h =>
      obtain ⟨as, has, h⟩ := bind_eq_ok.1 h
      cases h
      exact List.forall_mem_cons.2 ⟨htable, List.forall_mem_map.2 (Bound.names_assignments has)⟩
  | updateRow h =>
      obtain ⟨as, key, has, hkey, rfl⟩ := Bound.updateRow_ok h
      refine List.forall_mem_cons.2 ⟨htable, List.forall_mem_append.2 ⟨?_, ?_⟩⟩
      · exact List.forall_mem_map.2 (Bound.names_assignments has)
      · exact List.forall_mem_singleton.2 (Bound.names_keyClause hkey)
  | deleteRow h =>
      obtain ⟨key, hkey, h⟩ := bind_eq_ok.1 h
      cases h
      exact List.forall_mem_cons.2
        ⟨htable, List.forall_mem_singleton.2 (Bound.names_keyClause hkey)⟩
  | selectRow h =>
      obtain ⟨key, hkey, h⟩ := bind_eq_ok.1 h
      cases h
      refine List.forall_mem_append.2 ⟨List.forall_mem_map.2 fun f hf => ?_, ?_⟩
      · exact .column (Bound.described _) (Bound.descriptor_mem _ (List.mem_of_mem_filter hf))
      · exact List.forall_mem_cons.2
          ⟨htable, List.forall_mem_singleton.2 (Bound.names_keyClause hkey)⟩
  | insertLink hf h =>
      obtain ⟨table, keys, -, rfl⟩ := Bound.insertLink_ok h
      simp only [Statement.names, List.forall_mem_cons]
      exact ⟨htable, hleft, hright, List.forall_mem_nil _⟩
  | deleteLink hf h =>
      obtain ⟨table, keys, -, rfl⟩ := Bound.deleteLink_ok h
      simp only [Statement.names, List.forall_mem_cons]
      exact ⟨htable, hleft, hright, List.forall_mem_nil _⟩
  | clearLinks hf h =>
      obtain ⟨table, left, -, rfl⟩ := Bound.clearLinks_ok h
      simp only [Statement.names, List.forall_mem_cons]
      exact ⟨htable, hleft, List.forall_mem_nil _⟩
  | selectLinks hf h =>
      obtain ⟨table, left, -, rfl⟩ := Bound.selectLinks_ok h
      simp only [Statement.names, List.forall_mem_cons]
      exact ⟨hright, htable, hleft, List.forall_mem_nil _⟩

end Catalog.Builds

/-- The models that a model depends on, and it itself, have statements that name what comes from the
model. All of them are read as those names exactly when the names of the model are plain. -/
theorem Models.identifiers_read_iff {js : List (Fin n)} (h : c.dependencies k = .ok js) {j : Fin n}
    (hj : j ∈ k :: js) :
    (∀ s, c.Builds j s → ∀ name ∈ s.names, c.Names j name) ∧
      ((∀ s, c.Builds j s → ∀ mode, ReadsAs mode s.text s.names) ↔ c.PlainNames j) := by
  obtain ⟨ds, hds⟩ := dependencies_described h j hj
  refine ⟨fun s hs => hs.names_of, ?_⟩
  rw [plainNames_iff hds]
  constructor
  · intro hread table howns
    have hdropped : c.Builds j (.dropTable table) := by
      cases howns with
      | table => exact .dropTable
      | links hrs hr => exact .dropLinks hrs hr
    exact identifiers_dropTable_iff.1 (hread _ hdropped .escapes).identifiers_eq
  · exact fun hplain s hs mode => Statement.readsAs fun name hname =>
      (hs.names_of name hname).plain hplain

/-- The fields of folders: a generated id, a label, and the folders inside. -/
def folderFields : List (FieldModel 1) :=
  [⟨"id", "id key auto", .integer .int64⟩, ⟨"label", "label", .text⟩,
    ⟨"inside", "inside", .list (.entity 0)⟩]

theorem folderFields_anchor : ∀ f ∈ folderFields, ∀ j ∈ f.anchor?, 0 < 0 := by decide +kernel

/-- Folders, under the given name. -/
def folders (name : Option String) : Catalog 1 where
  model _ :=
    { ident := "Folder", path := "files", explicitName := name, fields := folderFields
      offered := none }
  rank _ := 0
  rank_lt _ := folderFields_anchor

/-- Folders need no other model. -/
theorem folders_dependencies {name : Option String} (h : (folders name).targets 0 = .ok [0]) :
    (folders name).dependencies 0 = .ok [] := by
  rw [Models.dependencies, h]
  change (folders name).resolve _ [.visit 0] = _
  rw [Models.resolve_claimed (by rw [KeyMap.get?_insert, if_pos rfl]), Models.resolve]

/-- A folder whose label is made to break out of its quotes. -/
def folder : Bound (folders none) 0 where
  columns := .cons (.integer 23 (by decide)) <| .cons (.text "`'; DROP TABLE `files_Folder") <|
    .cons (.list .nil) .nil
  descriptors :=
    [⟨0, "id", ⟨"id", true, true, FieldTag.id_ne, FieldTag.id_chars⟩, .scalar (.integer .int64)⟩,
      ⟨1, "label", ⟨"label", false, false, by decide, by decide⟩, .scalar .text⟩,
      ⟨2, "inside", ⟨"inside", false, false, by decide, by decide⟩,
        ⟨.recordList, false, false, some ⟨0, false⟩⟩⟩]
  described := by decide +kernel

/-- The insertion of a folder is read as the names of the table and the column, whatever the label
holds. -/
theorem folder_identifiers_read :
    (folders none).dependencies 0 = .ok [] ∧ (folders none).PlainNames 0 ∧
      folder.insertRow = .ok (.insertRow "files_Folder"
        [⟨"label", .string "`'; DROP TABLE `files_Folder"⟩]) ∧
      ∀ mode, ReadsAs mode (Statement.insertRow "files_Folder"
        [⟨"label", .string "`'; DROP TABLE `files_Folder"⟩]).text ["files_Folder", "label"] := by
  have hdependencies : (folders none).dependencies 0 = .ok [] :=
    folders_dependencies (by decide +kernel)
  have hplain : (folders none).PlainNames 0 := by decide +kernel
  have hinsert : folder.insertRow = .ok (.insertRow "files_Folder"
      [⟨"label", .string "`'; DROP TABLE `files_Folder"⟩]) := by
    decide +kernel
  obtain ⟨-, hread⟩ := Models.identifiers_read_iff hdependencies List.mem_cons_self
  exact ⟨hdependencies, hplain, hinsert, hread.2 hplain _ (.insertRow hinsert)⟩

/-- A model may be given a name with a backquote. Its table is then dropped under another name. -/
theorem oddFolders_identifier_lost :
    (folders (some "a`b")).dependencies 0 = .ok [] ∧
      (folders (some "a`b")).Builds 0 (.dropTable "a`b") ∧
      (Statement.dropTable "a`b").names = ["a`b"] ∧
      ∀ mode, identifiers mode (Statement.dropTable "a`b").text = ["a"] := by
  have htable : (folders (some "a`b")).dropTable 0 = .dropTable "a`b" := by decide +kernel
  refine ⟨folders_dependencies (by decide +kernel), htable ▸ .dropTable, rfl, ?_⟩
  intro mode
  cases mode <;> decide +kernel

end EntityMapper
