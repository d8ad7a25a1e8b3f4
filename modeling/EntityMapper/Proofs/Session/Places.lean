import EntityMapper.Driver.Recorded
import EntityMapper.Proofs.Session.Steps
import EntityMapper.Proofs.Storage.Classification
import EntityMapper.Session.Write

/-!
# The places of records

A record that a content holds stands at a place, which can be given other columns. The places are
those of the records that the content lists, in that order, and putting columns at one of them
changes the record there and no other (`Cell.records_put`). The work that changes contents goes
through the places in order: an update updates one record after the other (`Session.updateHeld_eq`),
and a deletion pairs the records with the links that were rendered for them
(`Session.deleteHeld_eq`).
-/

namespace EntityMapper

variable {n : Nat} {c : Catalog n} {t : ColumnType n} {k : Fin n} {σ α β γ : Type} {d : Driver σ}

/-! ## Places -/

/-- A record that some storage holds, and the storage with other columns in its place. -/
structure Place (c : Catalog n) (α : Type) where
  record : Record c
  put : Columns c (c.model record.model).columnTypes → α

/-- The same place in storage that is part of other storage. -/
def Place.within (wrap : α → β) (place : Place c α) : Place c β :=
  ⟨place.record, fun columns => wrap (place.put columns)⟩

mutual

/-- The places of the records that a content holds. -/
def Cell.places : {t : ColumnType n} → Cell c t → List (Place c (Cell c t))
  | .entity k, .entity columns => [⟨⟨k, columns⟩, .entity⟩]
  | _, .present inner => inner.places.map (.within .present)
  | _, .boxed inner => inner.places.map (.within .boxed)
  | _, .list items => items.places.map (.within .list)
  | _, _ => []

/-- The places of the records that the items of a list hold. -/
def Items.places : {t : ColumnType n} → Items c t → List (Place c (Items c t))
  | _, .nil => []
  | _, .cons item items =>
      item.places.map (.within (.cons · items)) ++ items.places.map (.within (.cons item))

end

/-- A place within other storage is one of the same record. -/
theorem Place.map_record_within (wrap : α → β) (places : List (Place c α)) :
    (places.map (Place.within wrap)).map (·.record) = places.map (·.record) := by
  rw [List.map_map]
  rfl

/-- A place in a list of places within other storage is within it. -/
theorem Place.getElem?_within {wrap : α → β} {places : List (Place c α)} {i : Nat}
    {place : Place c β} (h : (places.map (Place.within wrap))[i]? = some place) :
    ∃ inner, places[i]? = some inner ∧ inner.within wrap = place := by
  rw [List.getElem?_map] at h
  exact Option.map_eq_some_iff.1 h

mutual

/-- The places of a content are those of the records that it lists, in order. -/
theorem Cell.map_record_places : {t : ColumnType n} → (cell : Cell c t) →
    cell.places.map (·.record) = cell.records
  | _, .bool _ | _, .integer _ _ | _, .float _ | _, .double _ | _, .text _ | _, .dateTime _
  | _, .raw _ | _, .absent | _, .entity _ => rfl
  | _, .present inner | _, .boxed inner =>
      (Place.map_record_within _ _).trans inner.map_record_places
  | _, .list items => (Place.map_record_within _ _).trans items.map_record_places

theorem Items.map_record_places : {t : ColumnType n} → (items : Items c t) →
    items.places.map (·.record) = items.records
  | _, .nil => rfl
  | _, .cons item items => by
      rw [Items.places, Items.records, List.map_append, Place.map_record_within,
        Place.map_record_within, item.map_record_places, items.map_record_places]

end

/-- There are as many places as records. -/
theorem Cell.length_places (cell : Cell c t) : cell.places.length = cell.records.length := by
  rw [← cell.map_record_places, List.length_map]

mutual

/-- What is put at a place replaces the record there, and leaves all others. -/
theorem Cell.records_put : {t : ColumnType n} → (cell : Cell c t) → {i : Nat} →
    {place : Place c (Cell c t)} → cell.places[i]? = some place →
      ∀ columns, (place.put columns).records =
        cell.records.set i ⟨place.record.model, columns⟩
  | _, .bool _, _, _, h, _ | _, .integer _ _, _, _, h, _ | _, .float _, _, _, h, _
  | _, .double _, _, _, h, _ | _, .text _, _, _, h, _ | _, .dateTime _, _, _, h, _
  | _, .raw _, _, _, h, _ | _, .absent, _, _, h, _ => nomatch h
  | _, .entity _, 0, _, h, columns => by
      cases h
      rfl
  | _, .entity _, _ + 1, _, h, _ => nomatch h
  | _, .present inner, _, _, h, columns | _, .boxed inner, _, _, h, columns => by
      obtain ⟨place, hplace, rfl⟩ := Place.getElem?_within h
      exact inner.records_put hplace columns
  | _, .list items, _, _, h, columns => by
      obtain ⟨place, hplace, rfl⟩ := Place.getElem?_within h
      exact items.records_put hplace columns

theorem Items.records_put : {t : ColumnType n} → (items : Items c t) → {i : Nat} →
    {place : Place c (Items c t)} → items.places[i]? = some place →
      ∀ columns, (place.put columns).records =
        items.records.set i ⟨place.record.model, columns⟩
  | _, .nil, _, _, h, _ => nomatch h
  | _, .cons item items, i, _, h, columns => by
      rw [Items.places, List.getElem?_append, List.length_map, item.length_places] at h
      split at h
      · rename_i hi
        obtain ⟨place, hplace, rfl⟩ := Place.getElem?_within h
        show (place.put columns).records ++ items.records = _
        rw [item.records_put hplace columns, Items.records, List.set_append_left _ _ hi]
        rfl
      · rename_i hi
        obtain ⟨place, hplace, rfl⟩ := Place.getElem?_within h
        show item.records ++ (place.put columns).records = _
        rw [items.records_put hplace columns, Items.records,
          List.set_append_right _ _ (Nat.le_of_not_lt hi)]
        rfl

end

/-! ## Work that goes through the places -/

/-- Actions that lead to the same from every world are the same. -/
theorem Action.ext {action action' : Action d α} (h : ∀ w, action.run w = action'.run w) :
    action = action' :=
  funext h

/-- Actions in a row can be grouped in any way, and doing nothing can be left out. -/
instance Action.lawful : LawfulMonad (Action d) := LawfulMonad.mk' _
  (fun action => Action.ext fun w => by
    show (action >>= pure).run w = _
    rw [run_bind]
    simp only [run_pure, List.append_nil])
  (fun a next => Action.ext fun w => by
    rw [run_bind]
    simp only [run_pure, List.nil_append])
  (fun action next last => Action.ext fun w => by
    simp only [run_bind, List.append_assoc])

namespace Session

mutual

/-- Updating what a content holds is updating its records one after the other. -/
theorem updateHeld_eq : {t : ColumnType n} → (cell : Cell c t) →
    (updateHeld cell : Task d Unit) =
      cell.records.forM fun r => updateHeld (.entity r.columns : Cell c (.entity r.model))
  | _, .bool _ | _, .integer _ _ | _, .float _ | _, .double _ | _, .text _ | _, .dateTime _
  | _, .raw _ | _, .absent => rfl
  | _, .entity columns => by
      rw [Cell.records]
      simp
  | _, .present inner => by rw [updateHeld, Cell.records, updateHeld_eq inner]
  | _, .boxed inner => by rw [updateHeld, Cell.records, updateHeld_eq inner]
  | _, .list items => by rw [updateHeld, Cell.records, updateItems_eq items]

theorem updateItems_eq : {t : ColumnType n} → (items : Items c t) →
    (updateItems items : Task d Unit) =
      items.records.forM fun r => updateHeld (.entity r.columns : Cell c (.entity r.model))
  | _, .nil => rfl
  | _, .cons item items => by
      rw [updateItems, Items.records, updateHeld_eq item, updateItems_eq items]
      simp

end

/-- Updating what a content holds is updating the record at each of its places. -/
theorem updateHeld_places (cell : Cell c t) : (updateHeld cell : Task d Unit) =
    cell.places.forM fun place =>
      updateHeld (.entity place.record.columns : Cell c (.entity place.record.model)) := by
  rw [updateHeld_eq, ← cell.map_record_places]
  exact List.forM_map

/-- Deletes a record that a field holds, if it is owned, and the link to it. -/
def deleteLinked (owned : Bool) (table : String) (r : Record c) (link : Sql.Statement) :
    Task d Unit := do
  if owned then Task.ofExcept r.columns.bind >>= deleteRecord
  deleteOne table link

/-- Deleting a bound record is deleting its row and what its columns hold. -/
theorem ofExcept_deleteRecord (columns : Columns c (c.model k).columnTypes) :
    (do
      let b ← Task.ofExcept columns.bind
      deleteRow b
      deleteRelated b columns b.descriptors : Task d Unit) =
        Task.ofExcept columns.bind >>= deleteRecord := by
  cases hb : columns.bind with
  | error e => rfl
  | ok b =>
      obtain ⟨rfl, -⟩ := Columns.bind_eq_ok_iff.1 hb
      rfl

mutual

/-- Deleting what a content holds pairs its records with the links, one after the other, and leaves
the links after those. -/
theorem deleteHeld_eq {owned : Bool} {table : String} : {t : ColumnType n} → (cell : Cell c t) →
    (links : List Sql.Statement) → {rest : List Sql.Statement} →
      links.length = cell.records.length →
        (deleteHeld owned table cell (links ++ rest) : Task d (List Sql.Statement)) = do
          (cell.records.zip links).forM fun x => deleteLinked owned table x.1 x.2
          return rest
  | _, .bool _, links, _, h | _, .integer _ _, links, _, h | _, .float _, links, _, h
  | _, .double _, links, _, h | _, .text _, links, _, h | _, .dateTime _, links, _, h
  | _, .raw _, links, _, h | _, .absent, links, _, h => by
      rw [List.length_eq_zero_iff.1 h]
      rfl
  | _, .entity columns, links, _, h => by
      obtain ⟨link, rfl⟩ := List.length_eq_one_iff.1 h
      rw [List.singleton_append, deleteHeld, Cell.records, List.zip_cons_cons, List.zip_nil_right,
        List.forM_eq_forM, List.forM_cons, List.forM_nil, deleteLinked]
      split
      · rw [← ofExcept_deleteRecord]
        simp only [bind_assoc, pure_bind]
      · simp only [bind_assoc, pure_bind]
  | _, .present inner, links, _, h => by rw [deleteHeld, Cell.records, deleteHeld_eq inner links h]
  | _, .boxed inner, links, _, h => by rw [deleteHeld, Cell.records, deleteHeld_eq inner links h]
  | _, .list items, links, _, h => by rw [deleteHeld, Cell.records, deleteItems_eq items links h]

theorem deleteItems_eq {owned : Bool} {table : String} : {t : ColumnType n} →
    (items : Items c t) → (links : List Sql.Statement) → {rest : List Sql.Statement} →
      links.length = items.records.length →
        (deleteItems owned table items (links ++ rest) : Task d (List Sql.Statement)) = do
          (items.records.zip links).forM fun x => deleteLinked owned table x.1 x.2
          return rest
  | _, .nil, links, _, h => by
      rw [List.length_eq_zero_iff.1 h]
      rfl
  | _, .cons item items, links, rest, h => by
      rw [Items.records, List.length_append] at h
      -- The links are parted where the records of the first item end.
      obtain ⟨first, later, rfl, hfirst⟩ : ∃ first later, links = first ++ later ∧
          first.length = item.records.length :=
        ⟨_, _, (List.take_append_drop item.records.length links).symm,
          List.length_take_of_le (by omega)⟩
      have hlater : later.length = items.records.length := by
        rw [List.length_append] at h
        omega
      rw [deleteItems, List.append_assoc, deleteHeld_eq item first hfirst, Items.records,
        List.zip_append hfirst.symm, List.forM_eq_forM, List.forM_append]
      simp only [bind_assoc, pure_bind, deleteItems_eq items later hlater, List.forM_eq_forM]

end

end Session

/-! ## What a classification tells of contents -/

/-- The classification of a regular type agrees with what its contents are. The kind is that of a
single link exactly where a record is at the core, and that of many links exactly where a list of
records is; these are the relations, to the model of the records, and they are behind a pointer
exactly where an option or box is on the way, outside of the list or inside. A type is nullable
exactly where an option is around its core, and only then a content reads as nil. Updates and
deletions go through the records of a content at their places, in the order in which they are
listed; there are none but for a relation, and one at most but for a list. No table fails to be
created for want of a column type but for a field that is not of a regular type. -/
theorem Cell.classified (ht : t.IsRegular) (cell : Cell c t) :
    ((t.classify.kind = .record ↔ ∃ k, t.core = .entity k) ∧
      (t.classify.kind = .recordList ↔ ∃ item k, t.core = .list item ∧ item.core = .entity k) ∧
      (∀ k, (∃ isPointer, t.classify.relation = some ⟨k, isPointer⟩) ↔
        t.core = .entity k ∨ ∃ item, t.core = .list item ∧ item.core = .entity k) ∧
      (t.classify.isPointerRelation = true ↔ t.classify.isRelation = true ∧ t.path ≠ []) ∧
      (t.classify.isNullable = true ↔ ColumnType.Layer.option ∈ t.layers) ∧
      (cell.value = .nil → t.classify.isNullable = true)) ∧
    (cell.places.map (·.record) = cell.records ∧
      (∀ (i : Nat) (place : Place c (Cell c t)), cell.places[i]? = some place → ∀ columns,
        (place.put columns).records = cell.records.set i ⟨place.record.model, columns⟩) ∧
      (Session.updateHeld cell : Task d Unit) = (cell.places.forM fun place =>
        Session.updateHeld (.entity place.record.columns : Cell c (.entity place.record.model))) ∧
      (∀ owned table links, links.length = cell.records.length →
        (Session.deleteHeld owned table cell links : Task d (List Sql.Statement)) = do
          (cell.places.zip links).forM fun x => Session.deleteLinked owned table x.1.record x.2
          return []) ∧
      (t.classify.isRelation = false → cell.records = []) ∧
      ((∀ item, t.core ≠ .list item) → cell.records.length ≤ 1)) ∧
    ∀ (ms : Models n) k entity field, ms.createTable k = .error (.noColumnType entity field) →
      ∃ f ∈ (ms.model k).fields, f.name = field ∧ ¬ f.type.IsRegular := by
  refine ⟨⟨ht.kind_eq_record_iff, ht.kind_eq_recordList_iff, fun k => ht.relation_iff,
    ht.isPointerRelation_iff, t.isNullable_iff, fun hnil => ?_⟩,
    ⟨cell.map_record_places, fun i place hplace => cell.records_put hplace,
      Session.updateHeld_places cell, fun owned table links hlinks => ?_, fun hrelation => ?_,
      fun hcore => cell.records_length_le hcore⟩,
    fun ms k entity field => Models.irregular_of_createTable⟩
  · exact cell.isNullable_of_isNil ht (by rw [hnil]; rfl)
  · have hdelete : (Session.deleteHeld owned table cell (links ++ []) : Task d _) = _ :=
      Session.deleteHeld_eq cell links hlinks
    rw [List.append_nil, ← cell.map_record_places, List.zip_map_left, List.forM_eq_forM,
      List.forM_map] at hdelete
    exact hdelete
  · exact cell.records_eq_nil (by simpa [FieldType.isRelation] using hrelation)

/-- A place that holds a list of two labels in boxes. -/
def labelledPair : Cell shelf (.nullable (.list (.boxed (.entity 0)))) :=
  .present (.list (.cons (.boxed (.entity (label "a" "red")))
    (.cons (.boxed (.entity (label "b" "blue"))) .nil)))

/-- Labels in a list in boxes and an option are a relation behind a pointer, of many links, and the
two that are held are updated in order. -/
theorem labelledPair_classified :
    let t : ColumnType 1 := .nullable (.list (.boxed (.entity 0)))
    t.IsRegular ∧ t.classify.kind = .recordList ∧
      (∃ isPointer, t.classify.relation = some ⟨0, isPointer⟩) ∧
      t.classify.isPointerRelation = true ∧ t.classify.isNullable = true ∧
      labelledPair.places.map (·.record) = [⟨0, label "a" "red"⟩, ⟨0, label "b" "blue"⟩] ∧
      (Session.updateHeld labelledPair : Task Recorded.driver Unit) =
        labelledPair.places.forM fun place =>
          Session.updateHeld (.entity place.record.columns : Cell shelf (.entity _)) := by
  intro t
  have hregular : t.IsRegular := by decide
  obtain ⟨⟨-, hkind, hrelation, hpointer, hnullable, -⟩, ⟨hplaces, -, hupdate, -⟩, -⟩ :=
    Cell.classified (d := Recorded.driver) hregular labelledPair
  exact ⟨hregular, hkind.2 ⟨_, 0, rfl, rfl⟩, (hrelation 0).2 (.inr ⟨_, rfl, rfl⟩),
    hpointer.2 ⟨rfl, by decide⟩, hnullable.2 List.mem_cons_self, hplaces, hupdate⟩

end EntityMapper
