import EntityMapper.Proofs.Session.DeletionPlan
import Mathlib.Data.List.Perm.Basic

/-!
# What a deletion undoes

The plan of a deletion undoes the insertions of the record, in another order
(`Record.deletions_perm`), so a deletion after an insertion covers exactly what was inserted
(`Session.delete_covers_insert`).
-/

namespace EntityMapper

open Sql

variable {n : Nat} {c : Catalog n} {k : Fin n} {σ τ α β γ : Type} {d : Driver σ}

/-! ## Deletions and insertions -/

/-- The deletion of what an insertion inserts. -/
def Write.undone : Write c → Write c
  | .insertRow r => .deleteRow r
  | .insertLink owner f related => .deleteLink owner f related
  | write => write

/-- The links of a record, undone. -/
theorem Record.linkInsertions_undone (r : Record c) :
    r.linkInsertions.map Write.undone
      = r.relations.flatMap fun f => f.records.map (.deleteLink r f) := by
  rw [linkInsertions, List.map_flatMap]
  refine List.flatMap_congr fun f _ => ?_
  rw [List.map_map]
  rfl

/-- Two lists in a row, each of two parts, are the first parts and then the second parts. -/
theorem append_append_perm (xs xs' ys ys' : List α) :
    ((xs ++ ys) ++ (xs' ++ ys')).Perm ((xs ++ xs') ++ (ys ++ ys')) := by
  rw [List.append_assoc, List.append_assoc]
  exact (List.perm_append_comm_assoc ys xs' ys').append_left xs

/-- The deletions of a record are its insertions undone, as far as what its columns bring along are
those of what they own and the links of the record. -/
theorem Record.deletions_perm_of_columns {r : Record c}
    (h : (r.columns.deletions r (c.model r.model).descriptors).Perm
      ((r.columns.family.flatMap ownInsertions).map Write.undone ++
        r.relations.flatMap fun f => f.records.map (.deleteLink r f))) :
    r.deletions.Perm (r.insertions.map Write.undone) := by
  rw [insertions, family, List.flatMap_append, List.map_append, List.flatMap_singleton,
    ownInsertions, List.map_cons, r.linkInsertions_undone]
  exact (h.cons _).trans List.perm_middle.symm

mutual

/-- What a field of a record brings along are the insertions of the families it owns, undone, and
the links to the records it holds. -/
theorem Cell.deletions_perm {f : Field c} {owner : Record c} {t : ColumnType n} :
    (cell : Cell c t) → (f.descriptor.type.isOwnedRelation = true →
      ∀ x ∈ cell.family, ∃ b, x.columns.bind = .ok b) →
    (cell.deletions f owner).Perm ((if f.descriptor.type.isOwnedRelation then
      (cell.family.flatMap Record.ownInsertions).map Write.undone else []) ++
        cell.records.map (.deleteLink owner f))
  | .bool _, _ | .integer _ _, _ | .float _, _ | .double _, _ | .text _, _ | .dateTime _, _
  | .raw _, _ | .absent, _ => by simp [Cell.deletions, Cell.records, Cell.family]
  | .entity (k := k) columns, hbinds => by
      rw [Cell.deletions, Cell.records, Cell.family]
      split
      · rename_i howned
        have hmem : ⟨k, columns⟩ ∈ columns.family ++ [⟨k, columns⟩] :=
          List.mem_append_right _ List.mem_cons_self
        obtain ⟨b, -⟩ := hbinds howned _ hmem
        have hcolumns := columns.deletions_perm ⟨k, columns⟩ b.descriptors_types fun x hx =>
          hbinds howned x (List.mem_append_left _ hx)
        exact (Record.deletions_perm_of_columns hcolumns).append_right _
      · exact .refl _
  | .present inner, hbinds => inner.deletions_perm hbinds
  | .boxed inner, hbinds => inner.deletions_perm hbinds
  | .list items, hbinds => items.deletions_perm hbinds

theorem Items.deletions_perm {f : Field c} {owner : Record c} {t : ColumnType n} :
    (items : Items c t) → (f.descriptor.type.isOwnedRelation = true →
      ∀ x ∈ items.family, ∃ b, x.columns.bind = .ok b) →
    (items.deletions f owner).Perm ((if f.descriptor.type.isOwnedRelation then
      (items.family.flatMap Record.ownInsertions).map Write.undone else []) ++
        items.records.map (.deleteLink owner f))
  | .nil, _ => by simp [Items.deletions, Items.records, Items.family]
  | .cons item items, hbinds => by
      rw [Items.deletions, Items.records, Items.family, List.map_append]
      refine ((item.deletions_perm fun howned x hx =>
        hbinds howned x (List.mem_append_left _ hx)).append (items.deletions_perm fun howned x hx =>
          hbinds howned x (List.mem_append_right _ hx))).trans ?_
      split
      · rw [List.flatMap_append, List.map_append]
        exact append_append_perm ..
      · exact .refl _

theorem Columns.deletions_perm {ts : List (ColumnType n)} :
    (columns : Columns c ts) → (owner : Record c) → {ds : List (Descriptor n)} →
    ds.map (·.type) = ts.map (·.classify) →
    (∀ x ∈ columns.family, ∃ b, x.columns.bind = .ok b) →
    (columns.deletions owner ds).Perm
      ((columns.family.flatMap Record.ownInsertions).map Write.undone ++
        ((columns.fields ds).filter (·.descriptor.type.isRelation)).flatMap fun f =>
          f.records.map (.deleteLink owner f))
  | .nil, _, _, _, _ => .refl _
  | .cons _ _, _, [], htypes, _ => by cases htypes
  | .cons (t := t) cell cells, owner, d :: ds, htypes, hbinds => by
      obtain ⟨htype, htypes⟩ := List.cons.inj htypes
      have htype : d.type = t.classify := htype
      have hcells := cells.deletions_perm owner htypes fun x hx =>
        hbinds x (List.mem_append_right _ hx)
      rw [Columns.family, ← htype] at hbinds
      rw [Columns.deletions, Columns.family, Columns.fields, List.filter_cons, List.flatMap_append,
        List.map_append, ← htype]
      dsimp only
      cases hrelation : d.type.isRelation with
      | false =>
          have howned : ¬ d.type.isOwnedRelation = true := fun howned =>
            Bool.eq_false_iff.1 hrelation (FieldType.isRelation_of_isOwnedRelation howned)
          rw [if_neg howned]
          exact hcells
      | true =>
          have hcell : (cell.deletions ⟨d, _, cell⟩ owner).Perm _ :=
            cell.deletions_perm fun howned x hx =>
              hbinds x (List.mem_append_left _ (by rwa [if_pos howned]))
          refine (hcell.append hcells).trans ((append_append_perm ..).trans ?_)
          simp only [if_true, List.flatMap_cons]
          split
          · exact .refl _
          · exact .refl _

end

/-- The deletions of a record are its insertions undone, in another order. -/
theorem Record.deletions_perm {r : Record c}
    (hbinds : ∀ x ∈ r.family, ∃ b, x.columns.bind = .ok b) :
    r.deletions.Perm (r.insertions.map Write.undone) := by
  obtain ⟨b, hb⟩ := hbinds r r.mem_family_self
  exact deletions_perm_of_columns (r.columns.deletions_perm r b.descriptors_types fun x hx =>
    hbinds x (List.mem_append_left _ hx))

/-! ## What deletions and insertions are about -/

/-- The record whose row a write changes. -/
def Write.row? : Write c → Option (Record c)
  | insertRow r | deleteRow r => some r
  | _ => none

/-- The place of the link that a write changes, with the literal on its right. -/
def Write.link? : Write c → Option (Except MapperError (String × Literal × Literal))
  | insertLink owner f related | deleteLink owner f related => some do
      let (table, left) ← owner.linkPlace f
      return (table, left, ← related.keyLiteral)
  | _ => none

/-- Undoing a write is about the same row. -/
@[simp] theorem Write.row?_undone (write : Write c) : write.undone.row? = write.row? := by
  cases write <;> rfl

/-- Undoing a write is about the same link. -/
@[simp] theorem Write.link?_undone (write : Write c) : write.undone.link? = write.link? := by
  cases write <;> rfl

/-- The insertions of a record are about the rows of its family. -/
theorem Record.insertions_rows (r : Record c) : r.insertions.filterMap Write.row? = r.family := by
  have hlinks : ∀ x : Record c, x.linkInsertions.filterMap Write.row? = [] := by
    intro x
    refine List.filterMap_eq_nil_iff.2 fun write hwrite => ?_
    obtain ⟨f, -, hwrite⟩ := List.mem_flatMap.1 hwrite
    obtain ⟨related, -, rfl⟩ := List.mem_map.1 hwrite
    rfl
  have hown : ∀ x : Record c, x.ownInsertions.filterMap Write.row? = [x] := fun x => by
    rw [ownInsertions, List.filterMap_cons, hlinks]
    rfl
  rw [insertions, List.filterMap_flatMap]
  simp only [hown]
  exact List.flatMap_singleton' _

/-- The row that an insertion inserted: its statement and its answer. -/
def insertedRow? : Statement × Except DriverError UInt64 →
    Option (Statement × Except DriverError UInt64)
  | (.insertRow table assignments, answer) => some (.insertRow table assignments, answer)
  | _ => none

/-- The link that an insertion inserted: its table and its two sides. -/
def insertedLink? : Statement × Except DriverError UInt64 → Option (String × Literal × Literal)
  | (.insertLink table left right, _) => some (table, left, right)
  | _ => none

/-- The row that a call deleted: its table and its key. -/
def Made.deletedRow? : Made → Option (String × Literal)
  | ⟨.delete (.deleteRow table key), _⟩ => some (table, key.literal)
  | _ => none

/-- The link that a call deleted: its table and its two sides. -/
def Made.deletedLink? : Made → Option (String × Literal × Literal)
  | ⟨.delete (.deleteLink table left right), _⟩ => some (table, left, right)
  | _ => none

/-- Items that are checked one by one to results are checked to just these. -/
theorem map_ok_of_forall₂ {f : α → Except MapperError β} {xs : List α} {ys : List β}
    (h : List.Forall₂ (fun x y => f x = .ok y) xs ys) : ys.map .ok = xs.map f := by
  induction h with
  | nil => rfl
  | cons hx _ ih => rw [List.map_cons, List.map_cons, hx, ih]

section Lines

variable {plan : List (Write c)} {lines : List (Statement × Except DriverError UInt64)}
  {calls : List Made}

/-- The rows that are inserted are those of the plan. -/
theorem insertedRows_of_insertedBy (h : List.Forall₂ InsertedBy plan lines) :
    List.Forall₂ (fun x line => InsertedBy (.insertRow x) line) (plan.filterMap Write.row?)
      (lines.filterMap insertedRow?) := by
  refine List.rel_filterMap ?_ h
  rintro write line (⟨hs, hkey⟩ | hs)
  · obtain ⟨b, hb, hinsert⟩ := bind_eq_ok.1 hs
    obtain ⟨assignments, -, h⟩ := bind_eq_ok.1 hinsert
    cases h
    exact .some (.row hs hkey)
  · obtain ⟨table, left, right, -, -, rfl⟩ := Write.statement_insertLink hs
    exact .none

/-- The links that are inserted are those of the plan. -/
theorem insertedLinks_of_insertedBy (h : List.Forall₂ InsertedBy plan lines) :
    (lines.filterMap insertedLink?).map .ok = plan.filterMap Write.link? := by
  rw [← List.map_id (plan.filterMap Write.link?)]
  refine map_ok_of_forall₂ (List.rel_filterMap ?_ h)
  rintro write line (⟨hs, -⟩ | hs)
  · obtain ⟨b, hb, hinsert⟩ := bind_eq_ok.1 hs
    obtain ⟨assignments, -, h⟩ := bind_eq_ok.1 hinsert
    cases h
    exact .none
  · obtain ⟨table, left, right, hplace, hright, rfl⟩ := Write.statement_insertLink hs
    exact .some (bind_eq_ok.2 ⟨_, hplace, bind_eq_ok.2 ⟨_, hright, rfl⟩⟩)

/-- The rows that are deleted are those of the plan. -/
theorem deletedRows_of_deletedBy (h : List.Forall₂ DeletedBy plan calls) :
    (calls.filterMap Made.deletedRow?).map .ok
      = (plan.filterMap Write.row?).map Record.address := by
  refine map_ok_of_forall₂ (List.rel_filterMap ?_ h)
  rintro write call (hs | hs)
  · obtain ⟨table, column, key, haddress, rfl⟩ := Write.statement_deleteRow hs
    exact .some haddress
  · obtain ⟨table, left, right, -, -, rfl⟩ := Write.statement_deleteLink hs
    exact .none

/-- The links that are deleted are those of the plan. -/
theorem deletedLinks_of_deletedBy (h : List.Forall₂ DeletedBy plan calls) :
    (calls.filterMap Made.deletedLink?).map .ok = plan.filterMap Write.link? := by
  rw [← List.map_id (plan.filterMap Write.link?)]
  refine map_ok_of_forall₂ (List.rel_filterMap ?_ h)
  rintro write call (hs | hs)
  · obtain ⟨table, column, key, -, rfl⟩ := Write.statement_deleteRow hs
    exact .none
  · obtain ⟨table, left, right, hplace, hright, rfl⟩ := Write.statement_deleteLink hs
    exact .some (bind_eq_ok.2 ⟨_, hplace, bind_eq_ok.2 ⟨_, hright, rfl⟩⟩)

/-- Nothing but rows and links is deleted. -/
theorem DeletedBy.isSome {write : Write c} {call : Made} (h : DeletedBy write call) :
    call.deletedRow?.isSome ∨ call.deletedLink?.isSome := by
  rcases h with hs | hs
  · obtain ⟨table, column, key, -, rfl⟩ := Write.statement_deleteRow hs
    exact .inl rfl
  · obtain ⟨table, left, right, -, -, rfl⟩ := Write.statement_deleteLink hs
    exact .inr rfl

end Lines

/-! ## Deletions after insertions -/

/-- A record whose row was inserted is bound. -/
theorem bind_of_insertedBy {r : Record c} {line : Statement × Except DriverError UInt64}
    (h : InsertedBy (.insertRow r) line) : ∃ b, r.columns.bind = .ok b := by
  rcases h with ⟨hs, -⟩
  obtain ⟨b, hb, -⟩ := bind_eq_ok.1 hs
  exact ⟨b, hb⟩

namespace Session

variable {e : Driver τ}

/-- Where a record was inserted and is then deleted, the deleted rows are, by table and key, those
of the family that was inserted, the deleted links are those that were inserted, and no other call
is made. The keys are those after the insertion, some of which the database has generated. -/
theorem delete_covers_insert (r : Record c) (w : World σ) (w' : World τ)
    (hinsert : ((insert (d := d) r).run w).value.result = .ok ())
    (hdelete : ((delete (d := e) ((insert (d := d) r).run w).value.storage).run w').value.result
      = .ok ()) :
    let left := ((insert (d := d) r).run w).value.storage
    let inserted := ((insert (d := d) r).run w).journal.filterMap Entry.insertion?
    let made := ((delete (d := e) left).run w').journal.filterMap Entry.made?
    List.Forall₂ (fun x line => InsertedBy (.insertRow x) line) left.family
        (inserted.filterMap insertedRow?) ∧
      ((made.filterMap Made.deletedRow?).map .ok).Perm (left.family.map Record.address) ∧
      (made.filterMap Made.deletedLink?).Perm (inserted.filterMap insertedLink?) ∧
      ∀ call ∈ made, call.deletedRow?.isSome ∨ call.deletedLink?.isSome := by
  intro left inserted made
  obtain ⟨-, hinserted⟩ := insert_attains r hinsert
  have hinserted : List.Forall₂ InsertedBy left.insertions inserted := hinserted
  obtain ⟨-, hdeleted⟩ := delete_attains left hdelete
  have hdeleted : List.Forall₂ DeletedBy left.deletions made := hdeleted
  have hrows : List.Forall₂ (fun x line => InsertedBy (.insertRow x) line) left.family
      (inserted.filterMap insertedRow?) :=
    left.insertions_rows ▸ insertedRows_of_insertedBy hinserted
  have hperm : left.deletions.Perm (left.insertions.map Write.undone) :=
    Record.deletions_perm fun x hx =>
      let ⟨_, _, hline⟩ := exists_of_forall₂ hrows.flip hx
      bind_of_insertedBy hline
  refine ⟨hrows, ?_, ?_, fun call hcall => ?_⟩
  · rw [deletedRows_of_deletedBy hdeleted]
    refine ((hperm.filterMap Write.row?).trans (.of_eq ?_)).map Record.address
    rw [List.filterMap_map, ← left.insertions_rows]
    exact List.filterMap_congr fun write _ => write.row?_undone
  · have hinjective : Function.Injective
        (.ok : String × Literal × Literal → Except MapperError _) := fun _ _ => Except.ok.inj
    refine (List.map_perm_map_iff hinjective).1 ?_
    rw [deletedLinks_of_deletedBy hdeleted, insertedLinks_of_insertedBy hinserted]
    refine (hperm.filterMap Write.link?).trans (.of_eq ?_)
    rw [List.filterMap_map]
    exact List.filterMap_congr fun write _ => write.link?_undone
  · obtain ⟨write, -, hwrite⟩ := exists_of_forall₂ hdeleted hcall
    exact hwrite.isSome

/-! ## A branch -/

/-- What deleting the records of a relation field answers and leaves, where its links have
statements. -/
theorem deleteRelated_run {b : Bound c k} {t : ColumnType n} {ts : List (ColumnType n)}
    {cell : Cell c t} {cells : Columns c ts} {descriptor : Descriptor n} {ds : List (Descriptor n)}
    {links left : List Statement} {table : String} {w w' w'' : World σ}
    {journal journal' : List Entry} (hrelation : descriptor.type.isRelation = true)
    (hlinks : cell.records.mapM (b.deleteLink ⟨descriptor, t, cell⟩) = .ok links)
    (htable : b.linkTable ⟨descriptor, t, cell⟩ = .ok table)
    (hheld : (deleteHeld (d := d) descriptor.type.isOwnedRelation table cell links).exec w
      = ⟨.ok left, w', journal⟩)
    (hrest : (deleteRelated (d := d) b cells ds).exec w' = ⟨.ok (), w'', journal'⟩) :
    (deleteRelated (d := d) b (.cons cell cells) (descriptor :: ds)).exec w
      = ⟨.ok (), w'', journal ++ journal'⟩ := by
  have hlinks : (⟨descriptor, t, cell⟩ : Field c).records.mapM
      (b.deleteLink ⟨descriptor, t, cell⟩) = .ok links := hlinks
  have hdiscard : ∀ t : Task d (List Statement),
      (discard t : Task d Unit) = t >>= fun _ => pure () := fun _ => rfl
  rw [deleteRelated]
  simp only [hrelation, if_true, hlinks, htable, hdiscard, Task.exec_bind, Task.exec_ofExcept,
    hheld, Task.exec_pure, hrest, List.append_nil, List.nil_append]

/-- Deleting the row of a record, where each deletion affects one row. -/
theorem deleteRow_numbering {c : Catalog n} {b : Bound c k} {s : Statement}
    (hs : b.deleteRow = .ok s) (w : World UInt64) :
    (deleteRow (d := numbering) b).exec w
      = ⟨.ok (), w, [.event (.statement .delete s), .call (.delete s) (.ok (1 : UInt64))]⟩ := by
  rw [deleteRow, hs]
  rfl

/-- A branch can be deleted. -/
theorem delete_branch (w : World UInt64) :
    ((delete (d := numbering) (branch 2 1 (by decide) (by decide)).record).run w).value
      = ⟨(branch 2 1 (by decide) (by decide)).record, .ok ()⟩ := by
  have hchild := deleteRow_numbering (b := node 1 (by decide) .absent .nil)
    (s := .deleteRow (forest.model 0).table ⟨"id", .integer 1⟩) rfl w
  have hchildren : ∃ journal, (deleteHeld (d := numbering) true
      (forest.linkTable ⟨0, "children", 0, false⟩)
      (.list (.cons (.entity (node 1 (by decide) .absent .nil).columns) .nil) :
        Cell forest (.list (.entity 0)))
      [.deleteLink (forest.linkTable ⟨0, "children", 0, false⟩) (.integer 2) (.integer 1)]).exec w
        = ⟨.ok [], w, journal⟩ := by
    rw [deleteHeld, deleteItems, deleteHeld, if_pos rfl]
    simp only [Task.exec_bind, bind_node, Task.exec_ofExcept, hchild]
    exact ⟨_, rfl⟩
  obtain ⟨children, hchildren⟩ := hchildren
  have hrelated : ∃ journal, (deleteRelated (d := numbering) (branch 2 1 (by decide) (by decide))
      (branch 2 1 (by decide) (by decide)).columns
      (branch 2 1 (by decide) (by decide)).descriptors).exec w = ⟨.ok (), w, journal⟩ := by
    show ∃ journal, (deleteRelated _ (.cons _ (.cons _ (.cons (.list (.cons _ .nil)) .nil)))
      [_, _, _]).exec w = ⟨.ok (), w, journal⟩
    rw [deleteRelated, if_neg (by decide)]
    exact ⟨_, deleteRelated_run rfl rfl rfl rfl (deleteRelated_run rfl rfl rfl hchildren rfl)⟩
  obtain ⟨related, hrelated⟩ := hrelated
  have hrow := deleteRow_numbering (b := branch 2 1 (by decide) (by decide))
    (s := .deleteRow (forest.model 0).table ⟨"id", .integer 2⟩) rfl w
  have hintrospect : (branch 2 1 (by decide) (by decide)).record.introspect
      = .ok (branch 2 1 (by decide) (by decide), []) := introspect_node
  have hrecord : ((deleteRecord (d := numbering) (branch 2 1 (by decide) (by decide))).exec w).value
      = .ok () := by
    rw [deleteRecord]
    simp only [Task.exec_bind, hrow, hrelated]
  rw [delete, Staged.run_operate]
  simp only [Staged.exec_bind, Staged.exec_ofExcept, hintrospect, Staged.exec_advance,
    Staged.exec_task]
  exact congrArg (Attempt.mk _) hrecord

/-- The deletion of a branch after its insertion covers it: two rows and two links. -/
theorem delete_covers_insert_branch :
    let inserted := ((insert (d := numbering) (branch 0 0 (by decide) (by decide)).record).run
      ⟨0, forestCache⟩).journal.filterMap Entry.insertion?
    let made := ((delete (d := numbering) (branch 2 1 (by decide) (by decide)).record).run
      ⟨0, forestCache⟩).journal.filterMap Entry.made?
    ((made.filterMap Made.deletedRow?).map .ok).Perm
        ((branch 2 1 (by decide) (by decide)).record.family.map Record.address) ∧
      (made.filterMap Made.deletedLink?).Perm (inserted.filterMap insertedLink?) := by
  have hdelete := delete_branch ⟨0, forestCache⟩
  obtain ⟨-, hrows, hlinks, -⟩ := delete_covers_insert (d := numbering) (e := numbering)
    (branch 0 0 (by decide) (by decide)).record ⟨0, forestCache⟩ ⟨0, forestCache⟩
    (by rw [insert_branch]) (by rw [insert_branch]; exact congrArg Attempt.result hdelete)
  rw [insert_branch] at hrows hlinks
  exact ⟨hrows, hlinks⟩

end Session

end EntityMapper
