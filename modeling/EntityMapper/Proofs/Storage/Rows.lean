import EntityMapper.Proofs.Storage.Exact
import EntityMapper.Proofs.Storage.Generated
import EntityMapper.Session.Read

/-!
# Rows of inserted records

What a database holds after an insertion, as a row of the columns that a selection lists: the
values of the literals, the generated id, and nil under the columns that the insertion left out.
For records that are stored exactly, the row gives back every column (`Bound.rebuilds_storedRow`),
so hydrating any record of the model from it gives the inserted record (`hydrate_of_rebuilds`).
-/

namespace EntityMapper

open Sql

variable {n : Nat} {c : Catalog n} {k : Fin n}

/-! ## Cells -/

/-- What an insertion stores under each column that it names. -/
def Sql.Statement.insertedCells : Statement → List (String × Value)
  | .insertRow _ assignments => assignments.map fun a => (a.column, readLiteral a.literal.text)
  | _ => []

/-- The columns that the selection of a row lists. -/
def Sql.Statement.selectedColumns : Statement → List String
  | .selectRow _ columns _ => columns
  | _ => []

/-- What is stored under the generated columns of a model: the id that the database answered. -/
def generatedCells (ds : List (Descriptor n)) (id : UInt64) : List (String × Value) :=
  (ds.filter (·.tag.isAuto)).map fun d => (d.column, .uint id)

/-- The row that a selection reads after an insertion, with nil where nothing was stored. -/
def storedRow (ds : List (Descriptor n)) (insertion : Statement) (id : UInt64)
    (selection : Statement) : List Value :=
  selection.selectedColumns.map fun column =>
    ((generatedCells ds id ++ insertion.insertedCells).lookup column).getD .nil

/-- A generated column holds the id. -/
theorem lookup_generatedCells {ds : List (Descriptor n)} {d : Descriptor n} {id : UInt64}
    (hd : d ∈ ds) (hauto : d.tag.isAuto = true) :
    (generatedCells ds id).lookup d.column = some (.uint id) := by
  have hcell : (d.column, Value.uint id) ∈ generatedCells ds id :=
    List.mem_map_of_mem (List.mem_filter.2 ⟨hd, hauto⟩)
  cases hlookup : (generatedCells ds id).lookup d.column with
  | none =>
      have hne := List.lookup_eq_none_iff.1 hlookup _ hcell
      simp at hne
  | some v =>
      obtain ⟨before, after, hcells, -⟩ := List.lookup_eq_some_iff.1 hlookup
      have hmem : (d.column, v) ∈ generatedCells ds id := by simp [hcells]
      obtain ⟨e, -, he⟩ := List.mem_map.1 hmem
      rw [← (Prod.mk.inj he).2]

/-- A column that is not generated holds no id. -/
theorem lookup_generatedCells_of_not_auto {ds : List (Descriptor n)} {d : Descriptor n}
    {id : UInt64} (hnodup : (ds.map (·.column)).Nodup) (hd : d ∈ ds)
    (hauto : d.tag.isAuto = false) : (generatedCells ds id).lookup d.column = none := by
  rw [List.lookup_eq_none_iff]
  intro cell hcell
  obtain ⟨e, he, rfl⟩ := List.mem_map.1 hcell
  obtain ⟨he, heAuto⟩ := List.mem_filter.1 he
  rw [bne_iff_ne]
  intro hcolumn
  obtain rfl := List.inj_on_of_nodup_map hnodup hd he hcolumn
  rw [hauto] at heAuto
  cases heAuto

/-- Under the column of an assigned field stands what its literal is read as, and nothing where the
field has none. -/
theorem lookup_assignments {fs : List (Field c)} {as : List Assignment} {f : Field c}
    {l : Option Literal} (h : Bound.assignments fs = .ok as) (hnodup : (fs.map (·.column)).Nodup)
    (hf : f ∈ fs) (hl : f.literal? = .ok l) :
    ((as.map fun a => (a.column, readLiteral a.literal.text)).lookup f.column).getD .nil
      = readBack l := by
  induction fs generalizing as with
  | nil => exact absurd hf List.not_mem_nil
  | cons g fs ih =>
      obtain ⟨l', hl', h⟩ := bind_eq_ok.1 h
      rw [List.map_cons, List.nodup_cons] at hnodup
      obtain ⟨hfresh, hnodup⟩ := hnodup
      rcases List.mem_cons.1 hf with rfl | hf
      · -- the field itself: no later assignment has its column
        obtain rfl : l = l' := Except.ok.inj (hl.symm.trans hl')
        cases l with
        | some literal =>
            obtain ⟨rest, hrest, h⟩ := bind_eq_ok.1 h
            cases h
            rw [List.map_cons, List.lookup_cons_self]
            rfl
        | none =>
            have hnone : (as.map fun a => (a.column, readLiteral a.literal.text)).lookup f.column
                = none := by
              rw [List.lookup_eq_none_iff]
              intro cell hcell
              obtain ⟨a, ha, rfl⟩ := List.mem_map.1 hcell
              rw [bne_iff_ne]
              intro hcolumn
              have hmem : a.column ∈ as.map (·.column) := List.mem_map_of_mem ha
              rw [Bound.assignments_columns h] at hmem
              obtain ⟨e, he, hecolumn⟩ := List.mem_map.1 hmem
              apply hfresh
              rw [hcolumn, ← hecolumn]
              exact List.mem_map_of_mem (List.mem_of_mem_filter he)
            rw [hnone]
            rfl
      · have hother : f.column ≠ g.column := by
          intro hcolumn
          exact hfresh (hcolumn ▸ List.mem_map_of_mem hf)
        cases l' with
        | none => exact ih h hnodup hf
        | some literal =>
            obtain ⟨rest, hrest, h⟩ := bind_eq_ok.1 h
            cases h
            rw [List.map_cons, List.lookup_cons, (beq_eq_false_iff_ne).2 hother]
            exact ih hrest hnodup hf

/-- The key of a record is that of the column that its model offers as the key. -/
theorem Record.key_eq {columns : Columns c (c.model k).columnTypes} {index : Nat}
    (hindex : (c.model k).offeredKey? = some index) :
    Record.key ⟨k, columns⟩ = (columns.valueAt index).key := by
  rw [key, Cell.value, hindex]
  rfl

/-! ## Hydrating -/

/-- Whether the values of a row build the settled contents of columns, one by one. -/
def Columns.Rebuilds : {ts : List (ColumnType n)} → Columns c ts → List Value → Prop
  | _, .nil, row => row = []
  | _, .cons _ _, [] => False
  | t :: _, .cons cell cells, v :: row => c.build t v = .ok cell.settled ∧ cells.Rebuilds row

/-- A record is hydrated to the contents that a row builds, whatever it held before. -/
theorem Session.hydrate_of_rebuilds {ts : List (ColumnType n)} (htypes : ∀ t ∈ ts, t.IsExact)
    {columns : Columns c ts} {row : List Value} (h : columns.Rebuilds row) (start : Columns c ts) :
    hydrate start row = ⟨columns.settled, .ok ()⟩ := by
  induction ts generalizing row with
  | nil =>
      cases columns
      cases start
      rfl
  | cons t ts ih =>
      cases columns with
      | cons cell cells =>
          cases start with
          | cons cell' cells' =>
              cases row with
              | nil => exact h.elim
              | cons v row =>
                  obtain ⟨hcell, hcells⟩ := h
                  have ht : t.IsExact := htypes t List.mem_cons_self
                  have hrelation : t.classify.isRelation = false := by
                    rw [FieldType.isRelation, ht.relation_eq]
                    rfl
                  have hrest := ih (fun t' ht' => htypes t' (List.mem_cons_of_mem _ ht')) hcells
                    cells'
                  rw [hydrate, hrelation, Cell.assign_eq_build ht, hcell, hrest]
                  rfl

/-- A row that builds the settled content of each field rebuilds the columns. -/
theorem Columns.rebuilds_fields {ts : List (ColumnType n)} (columns : Columns c ts)
    {ds : List (Descriptor n)} (hlength : ds.length = ts.length) (g : Descriptor n → Value)
    (h : ∀ f ∈ columns.fields ds, c.build f.type (g f.descriptor) = .ok f.cell.settled) :
    columns.Rebuilds (ds.map g) := by
  induction ts generalizing ds with
  | nil =>
      cases columns
      rw [List.length_eq_zero_iff.1 hlength]
      exact rfl
  | cons t ts ih =>
      cases columns with
      | cons cell cells =>
          cases ds with
          | nil => cases hlength
          | cons d ds =>
              refine ⟨h ⟨d, t, cell⟩ List.mem_cons_self, ?_⟩
              exact ih cells (Nat.succ.inj hlength) fun f hf => h f (List.mem_cons_of_mem _ hf)

/-! ## Generated keys -/

/-- A content that was built from an id is there, and it is settled. -/
theorem Cell.settled_of_build_uint {t : ColumnType n} (ht : t.IsExact) {id : UInt64}
    {cell : Cell c t} (h : c.build t (.uint id) = .ok cell) :
    cell.settled = cell ∧ cell.value.isNil = false := by
  induction t with
  | bool =>
      rw [Catalog.build] at h
      obtain ⟨b, -, h⟩ := bind_eq_ok.1 h
      cases h
      exact ⟨rfl, rfl⟩
  | integer kind =>
      rw [Catalog.build] at h
      obtain ⟨x, -, h⟩ := bind_eq_ok.1 h
      cases h
      refine ⟨rfl, ?_⟩
      rw [Cell.value]
      split <;> rfl
  | nullable t ih =>
      have hnumber : ¬ (Value.uint id).isNil = true := Bool.false_ne_true
      rw [Catalog.build, if_neg hnumber] at h
      obtain ⟨inner, hinner, h⟩ := bind_eq_ok.1 h
      cases h
      obtain ⟨hsettled, hvalue⟩ := ih ht hinner
      refine ⟨?_, hvalue⟩
      rw [Cell.settled, hvalue, hsettled]
      rfl
  | boxed t ih =>
      rw [Catalog.build] at h
      obtain ⟨inner, hinner, h⟩ := bind_eq_ok.1 h
      cases h
      obtain ⟨hsettled, hvalue⟩ := ih ht hinner
      refine ⟨?_, hvalue⟩
      rw [Cell.settled, hsettled]
  | text | dateTime | list =>
      -- none of these takes a number
      rw [Catalog.build] at h
      obtain ⟨x, hx, -⟩ := bind_eq_ok.1 h
      cases hx
  | float | double | raw | entity => exact ht.elim

namespace Bound

/-- After an insertion a generated field is built from the id, and any other field is as before. -/
theorem fields_captureKey (hexact : (c.model k).IsExact) {b captured : Bound c k} {id : UInt64}
    (h : Session.captureKey b id = .ok captured) {f : Field c} (hf : f ∈ captured.fields) :
    (f.descriptor.tag.isAuto = true ∧ c.build f.type (.uint id) = .ok f.cell) ∨
      (f.descriptor.tag.isAuto = false ∧ f ∈ b.fields) := by
  obtain ⟨g, hg, hchange⟩ := exists_of_forall₂ (Session.captureKey_fields h) hf
  split at hchange
  · rename_i hgenerated
    obtain ⟨cell, hassign, rfl⟩ := hchange
    rw [Cell.assign_eq_build (hexact.columnTypes (b.columns.type_mem hg))] at hassign
    exact .inl ⟨(Bool.and_eq_true_iff.1 hgenerated).2, hassign⟩
  · rename_i hplain
    subst hchange
    refine .inr ⟨?_, hg⟩
    -- a field that is generated without being the key is in no exact model
    by_contra hauto
    have hauto : f.descriptor.tag.isAuto = true := by simpa using hauto
    exact hplain (Bool.and_eq_true_iff.2
      ⟨hexact.key_of_auto b.described (b.descriptor_mem hg) hauto, hauto⟩)

/-- Under the column of each field stands what builds the field's settled content after the
insertion: the id, or what the literal is read as. -/
theorem lookup_storedCells (hexact : (c.model k).IsExact) {b captured : Bound c k} {id : UInt64}
    {as : List Assignment}
    (has : assignments (b.fields.filter (!·.descriptor.tag.isAuto)) = .ok as)
    (hcapture : Session.captureKey b id = .ok captured) {f : Field c} (hf : f ∈ captured.fields) :
    c.build f.type (((generatedCells b.descriptors id ++
        as.map fun a => (a.column, readLiteral a.literal.text)).lookup f.column).getD .nil)
      = .ok f.cell.settled := by
  have ht : f.type.IsExact := hexact.columnTypes (captured.columns.type_mem hf)
  have hmem : f.descriptor ∈ b.descriptors := by
    rw [descriptors_eq b captured]
    exact captured.descriptor_mem hf
  rw [List.lookup_append]
  rcases fields_captureKey hexact hcapture hf with ⟨hauto, hbuild⟩ | ⟨hauto, hbefore⟩
  · have hid : (generatedCells b.descriptors id).lookup f.column = some (.uint id) :=
      lookup_generatedCells hmem hauto
    rw [hid, (Cell.settled_of_build_uint ht hbuild).1]
    exact hbuild
  · have hid : (generatedCells b.descriptors id).lookup f.column = none :=
      lookup_generatedCells_of_not_auto (EntityModel.describe_columns_nodup b.described) hmem hauto
    obtain ⟨l, hliteral, hread⟩ := Field.build_readBack ht
    have hassigned : f ∈ b.fields.filter (!·.descriptor.tag.isAuto) :=
      List.mem_filter.2 ⟨hbefore, by rw [hauto]; rfl⟩
    have hnodup : ((b.fields.filter (!·.descriptor.tag.isAuto)).map (·.column)).Nodup :=
      b.columns_nodup.sublist (List.filter_sublist.map _)
    rw [hid, Option.none_or, lookup_assignments has hnodup hassigned hliteral]
    exact hread

/-- The columns that the selection of a record lists are those of its model. -/
theorem selectRow_columns (hexact : (c.model k).IsExact) {b : Bound c k} {s : Statement}
    (h : b.selectRow = .ok s) : s.selectedColumns = b.descriptors.map (·.column) := by
  obtain ⟨key, -, h⟩ := bind_eq_ok.1 h
  cases h
  show b.stored.map (·.column) = _
  rw [stored_of_exact hexact, ← b.fields_descriptors, List.map_map]
  rfl

/-- The row that is read after an insertion gives back all columns of the inserted record. -/
theorem rebuilds_storedRow (hexact : (c.model k).IsExact) {b captured asked : Bound c k}
    {id : UInt64} {insertion selection : Statement} (hinsert : b.insertRow = .ok insertion)
    (hcapture : Session.captureKey b id = .ok captured)
    (hselect : asked.selectRow = .ok selection) :
    captured.columns.Rebuilds (storedRow b.descriptors insertion id selection) := by
  obtain ⟨as, has, hinsert⟩ := bind_eq_ok.1 hinsert
  cases hinsert
  rw [stored_of_exact hexact] at has
  rw [storedRow, selectRow_columns hexact hselect, descriptors_eq asked b, List.map_map]
  refine captured.columns.rebuilds_fields b.descriptors_length _ fun f hf => ?_
  rw [descriptors_eq b captured] at hf
  exact lookup_storedCells hexact has hcapture hf

/-! ## Selecting -/

/-- A record whose key is not nil can be selected. -/
theorem selectRow_succeeds (hexact : (c.model k).IsExact) (b : Bound c k)
    (hkey : Record.key ⟨k, b.columns⟩ ≠ .nil) : ∃ s, b.selectRow = .ok s := by
  have hoffered : ∃ index, (c.model k).offeredKey? = some index ∧
      (b.columns.valueAt index).key ≠ .nil := by
    rw [Record.key, Cell.value, Value.key] at hkey
    split at hkey
    · rename_i index hindex
      exact ⟨index, hindex, hkey⟩
    · exact absurd rfl hkey
  obtain ⟨index, hindex, hkey⟩ := hoffered
  obtain ⟨f, hf, hvalue⟩ := b.key?_value hindex
  have ht : f.type.IsExact := hexact.columnTypes (b.columns.type_mem (key?_eq_some hf).1)
  obtain ⟨l, hliteral, -⟩ := Field.build_readBack ht
  obtain ⟨literal, rfl⟩ : ∃ literal, l = some literal := by
    cases l with
    | some literal => exact ⟨literal, rfl⟩
    | none =>
        have hnil := Field.isNil_of_literal? hliteral
        rw [hvalue] at hnil
        cases hv : b.columns.valueAt index with
        | nil => exact absurd (by rw [hv]; rfl) hkey
        | _ =>
            rw [hv] at hnil
            cases hnil
  have hkeyLiteral : b.keyLiteral = .ok literal := by
    rw [keyLiteral, hf]
    exact bind_eq_ok.2 ⟨some literal, hliteral, rfl⟩
  have hclause : b.keyClause = .ok ⟨f.column, literal⟩ := by
    rw [keyClause, hf]
    exact bind_eq_ok.2 ⟨literal, hkeyLiteral, rfl⟩
  exact ⟨_, bind_eq_ok.2 ⟨_, hclause, rfl⟩⟩

end Bound

end EntityMapper
