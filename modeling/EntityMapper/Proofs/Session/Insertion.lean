import EntityMapper.Proofs.Model.LinkTables
import EntityMapper.Proofs.Session.Insert
import EntityMapper.Proofs.Session.Plans
import EntityMapper.Proofs.Storage.Generated

/-!
# What an insertion issues

The insertions of a record that is inserted are those of its family, one after the other, each with
its own links after its row, and a member's generated key holds the id that was answered for its row
(`Session.insert_follows`). Links are inserted after all rows they connect, so they carry the keys
that the database generated.
-/

namespace EntityMapper

open Sql

variable {n : Nat} {c : Catalog n} {k : Fin n} {σ : Type} {d : Driver σ}

/-! ## Insertions in journals -/

/-- The statement of an insertion and its answer. -/
def Entry.insertion? : Entry → Option (Statement × Except DriverError UInt64)
  | .call (.insert s) answer => some (s, answer)
  | _ => none

/-- Ensuring tables inserts nothing. -/
theorem Entry.IsSchemaWork.insertion? {entry : Entry} (h : entry.IsSchemaWork) :
    entry.insertion? = none := by
  cases entry with
  | event e | cached cache => rfl
  | call call answer =>
      cases call with
      | insert s => exact h.elim
      | _ => rfl

/-- Whether a call made an insertion. The generated key of a record whose row was inserted is the id
that was answered. -/
inductive InsertedBy : Write c → Statement × Except DriverError UInt64 → Prop
  | row {r : Record c} {s : Statement} {id : UInt64} (hs : (Write.insertRow r).statement = .ok s)
      (hkey : ∀ f ∈ r.fields, f.descriptor.isGenerated = true → f.Holds id) :
      InsertedBy (.insertRow r) (s, .ok id)
  | link {owner : Record c} {f : Field c} {related : Record c} {s : Statement} {id : UInt64}
      (hs : (Write.insertLink owner f related).statement = .ok s) :
      InsertedBy (.insertLink owner f related) (s, .ok id)

/-- Whether the insertions of a journal are those of a plan, in order. -/
abbrev Inserts (plan : List (Write c)) (journal : List Entry) : Prop :=
  Follows Entry.insertion? InsertedBy plan journal

namespace Session

variable {b captured : Bound c k} {w : World σ}

/-! ## One record -/

/-- The row of a record is inserted by one call. -/
theorem insertRow_leads : (insertRow b : Task d UInt64).Leads w fun id _ journal =>
    ∃ s, b.insertRow = .ok s ∧
      journal = [.event (.statement .insert s), .call (.insert s) (.ok id)] :=
  .ofExcept_bind fun s hs id hid =>
    ⟨s, hs, Task.Leads.reported (.statement .insert s) (.insert s) id hid⟩

/-- A record is inserted by its row and the links that it has with its key. -/
theorem insertSelf_attains (hb : b.columns.bind = .ok b) :
    (insertSelf b : Action d (Attempt (Columns c (c.model k).columnTypes) Unit)).Attains w
      fun columns journal => ∃ captured id, captureKey b id = .ok captured ∧
        captured.columns = columns ∧ Inserts captured.record.ownInsertions journal := by
  rw [insertSelf]
  refine .after (insertRow_leads (b := b)) (fun e w' h => by cases h) ?_
  rintro id w' _ ⟨s, hs, rfl⟩
  dsimp only
  cases hcapture : captureKey b id with
  | error e =>
      intro hresult
      cases hresult
  | ok captured =>
      have hbind : captured.columns.bind = .ok captured := Bound.bind_of_bind hb
      have hrow : InsertedBy (.insertRow captured.record) (s, .ok id) := by
        refine .row ?_ fun f hf hgenerated => ?_
        · exact (Bound.bind_record hbind (·.insertRow)).trans
            ((captureKey_insertRow hcapture).trans hs)
        · rw [captured.fields_record] at hf
          exact captureKey_holds hcapture hf hgenerated
      have hlinks : (insertLinks captured : Task d Unit).Leads w' fun _ _ journal =>
          Inserts captured.record.linkInsertions journal :=
        insertLinks_leads hbind (fun f related s id hs => .one (.link hs) rfl) w'
      refine .ofTask fun _ hdone => ⟨captured, id, hcapture, rfl, ?_⟩
      exact (Follows.one hrow rfl).append (hlinks () hdone)

/-! ## All records of a family -/

mutual

/-- Inserting the records that a content holds inserts their families, and changes nothing but
generated keys. -/
theorem insertHeld_attains {t : ColumnType n} : (cell : Cell c t) → (w : World σ) →
    (insertHeld cell : Action d (Attempt (Cell c t) Unit)).Attains w fun after journal =>
      after.keyless = cell.keyless ∧
        Inserts (after.family.flatMap Record.ownInsertions) journal
  | .bool _, _ | .integer _ _, _ | .float _, _ | .double _, _ | .text _, _ | .dateTime _, _
  | .raw _, _ | .absent, _ => .pure ⟨rfl, .empty⟩
  | .entity (k := k) columns, w => by
      rw [insertHeld]
      have howned := insertOwned_attains columns w
      cases hbind : columns.bind with
      | error e =>
          intro hresult
          cases hresult
      | ok b =>
          obtain ⟨rfl, -⟩ := Columns.bind_eq_ok_iff.1 hbind
          refine .bind howned (fun x e w' h => by cases h) ?_
          rintro owned w' journal ⟨hkeyless, howned⟩
          have hself : { b with columns := owned }.columns.bind = .ok { b with columns := owned } :=
            Bound.bind_of_bind hbind
          refine .wrap fun hresult => ?_
          obtain ⟨captured, id, hcapture, hcolumns, hinserts⟩ := insertSelf_attains hself hresult
          rw [← hcolumns, Cell.keyless, Cell.keyless, Cell.family,
            EntityModel.descriptors_of_describe b.described, captureKey_keyless hcapture,
            captureKey_family hcapture, List.flatMap_append, List.flatMap_singleton,
            hkeyless _ b.descriptors_length]
          exact ⟨rfl, howned.append hinserts⟩
  | .present inner, w => by
      rw [insertHeld]
      refine .wrap fun hresult => ?_
      obtain ⟨hkeyless, hinserts⟩ := insertHeld_attains inner w hresult
      exact ⟨congrArg Cell.present hkeyless, hinserts⟩
  | .boxed inner, w => by
      rw [insertHeld]
      refine .wrap fun hresult => ?_
      obtain ⟨hkeyless, hinserts⟩ := insertHeld_attains inner w hresult
      exact ⟨congrArg Cell.boxed hkeyless, hinserts⟩
  | .list items, w => by
      rw [insertHeld]
      refine .wrap fun hresult => ?_
      obtain ⟨hkeyless, hinserts⟩ := insertItems_attains items w hresult
      exact ⟨congrArg Cell.list hkeyless, hinserts⟩

theorem insertItems_attains {t : ColumnType n} : (items : Items c t) → (w : World σ) →
    (insertItems items : Action d (Attempt (Items c t) Unit)).Attains w fun after journal =>
      after.keyless = items.keyless ∧
        Inserts (after.family.flatMap Record.ownInsertions) journal
  | .nil, _ => .pure ⟨rfl, .empty⟩
  | .cons item items, w => by
      rw [insertItems]
      refine .bind (insertHeld_attains item w) (fun x e w' h => by cases h) ?_
      rintro first w' journal ⟨hfirst, hinserted⟩
      refine .wrap fun hresult => ?_
      obtain ⟨hrest, hinserts⟩ := insertItems_attains items w' hresult
      rw [Items.keyless, Items.keyless, hfirst, hrest, Items.family, List.flatMap_append]
      exact ⟨rfl, hinserted.append hinserts⟩

theorem insertOwned_attains {ts : List (ColumnType n)} : (columns : Columns c ts) →
    (w : World σ) →
    (insertOwned columns : Action d (Attempt (Columns c ts) Unit)).Attains w fun after journal =>
      (∀ ds, ds.length = ts.length → after.keyless ds = columns.keyless ds) ∧
        Inserts (after.family.flatMap Record.ownInsertions) journal
  | .nil, _ => .pure ⟨fun _ _ => rfl, .empty⟩
  | .cons cell cells, w => by
      rw [insertOwned]
      split
      · rename_i howned
        refine .bind (insertHeld_attains cell w) (fun x e w' h => by cases h) ?_
        rintro first w' journal ⟨hfirst, hinserted⟩
        refine .wrap fun hresult => ?_
        obtain ⟨hrest, hinserts⟩ := insertOwned_attains cells w' hresult
        rw [Columns.family, if_pos howned, List.flatMap_append]
        refine ⟨fun ds hlength => ?_, hinserted.append hinserts⟩
        cases ds with
        | nil => cases hlength
        | cons d ds =>
            rw [Columns.keyless, Columns.keyless, if_pos howned, if_pos howned, hfirst,
              hrest ds (Nat.succ.inj hlength)]
      · rename_i howned
        refine .wrap fun hresult => ?_
        obtain ⟨hrest, hinserts⟩ := insertOwned_attains cells w hresult
        rw [Columns.family, if_neg howned]
        refine ⟨fun ds hlength => ?_, hinserts⟩
        cases ds with
        | nil => cases hlength
        | cons d ds =>
            rw [Columns.keyless, Columns.keyless, if_neg howned,
              hrest ds (Nat.succ.inj hlength)]

end

/-! ## Whole insertions -/

/-- Inserting a record inserts its family. -/
theorem insertRecord_attains (r : Record c) :
    (insertRecord r : Action d (Attempt (Record c) Unit)).Attains w fun after journal =>
      after.keyless = r.keyless ∧ Inserts after.insertions journal := by
  have hheld : (insertHeld (.entity r.columns : Cell c (.entity r.model)) : Action d _).Attains w
      fun after journal => after.keyless = (Cell.entity r.columns).keyless ∧
        Inserts (after.family.flatMap Record.ownInsertions) journal :=
    insertHeld_attains _ w
  intro hresult
  rw [insertRecord, Action.run_bind] at hresult ⊢
  unfold Action.Attains at hheld
  generalize (insertHeld (.entity r.columns : Cell c (.entity r.model)) : Action d _).run w
    = outcome at hheld hresult ⊢
  obtain ⟨⟨cell, result⟩, w', journal⟩ := outcome
  cases cell with
  | entity columns =>
      obtain ⟨hkeyless, hinserts⟩ := hheld hresult
      rw [Cell.keyless, Cell.keyless] at hkeyless
      refine ⟨?_, ?_⟩
      · exact congrArg (Record.mk r.model) (Cell.entity.inj hkeyless)
      · show Inserts (Record.insertions ⟨r.model, columns⟩) (journal ++ [])
        rw [List.append_nil]
        exact hinserts

/-- An insertion inserts the family of the record, after the work on the schema. -/
theorem insert_attains (r : Record c) :
    (insert r : Action d (Attempt (Record c) Unit)).Attains w fun after journal =>
      after.keyless = r.keyless ∧ Inserts after.insertions journal := by
  intro h
  obtain ⟨b, p, w', before, after, -, hstorage, hbefore, hafter, hresult, hleft, hjournal⟩ :=
    operate_prepared (fun _ => Staged.attempt insertRecord) (fun _ _ => rfl) h
  rw [Staged.exec_attempt, hstorage] at hresult hleft hjournal
  obtain ⟨hkeyless, hinserts⟩ := insertRecord_attains r hresult
  rw [insert, hleft, hjournal]
  exact ⟨hkeyless, hinserts.around (fun entry hentry => (hbefore entry hentry).insertion?)
    fun entry hentry => (hafter entry hentry).insertion?⟩

/-- The insertions of a record that is inserted are, in order, those of its family: for each member,
after what it owns, its row and then its links, with the key that the database generated for it. The
record is left as it was but for generated keys. -/
theorem insert_follows (r : Record c) (w : World σ)
    (h : ((insert (d := d) r).run w).value.result = .ok ()) :
    ((insert (d := d) r).run w).value.storage.keyless = r.keyless ∧
      Inserts ((insert (d := d) r).run w).value.storage.insertions
        ((insert (d := d) r).run w).journal :=
  insert_attains r h

end Session

/-! ## A tree -/

/-- Trees as records: a node knows its parent and owns its children. -/
def forest : Catalog 1 where
  toModels := Models.tree
  rank _ := 0
  rank_lt := by decide

/-- A node of a tree. -/
def node (id : Int) (holds : IntegerKind.int64.Holds id)
    (parent : Cell forest (.nullable (.boxed (.entity 0)))) (children : Items forest (.entity 0)) :
    Bound forest 0 where
  columns := .cons (.integer id holds) (.cons parent (.cons (.list children) .nil))
  descriptors :=
    [⟨0, "id", ⟨"id", true, true, FieldTag.id_ne, FieldTag.id_chars⟩, .scalar (.integer .int64)⟩,
      ⟨1, "parent", ⟨"parent", false, false, by decide, by decide⟩,
        ⟨.record, true, true, some ⟨0, true⟩⟩⟩,
      ⟨2, "children", ⟨"children", false, false, by decide, by decide⟩,
        ⟨.recordList, false, false, some ⟨0, false⟩⟩⟩]
  described := by decide +kernel

/-- A node with one child that is a leaf, under a parent that is stored with the key 9. -/
def branch (id child : Int) (hid : IntegerKind.int64.Holds id)
    (hchild : IntegerKind.int64.Holds child) : Bound forest 0 :=
  node id hid (.present (.boxed (.entity (node 9 (by decide) .absent .nil).columns)))
    (.cons (.entity (node child hchild .absent .nil).columns) .nil)

/-- A cache that knows the tables of trees. -/
def forestCache : SchemaCache :=
  ((SchemaCache.empty.put (.ofModel (forest.model 0))).put
    (.ofTable (forest.linkTable ⟨0, "parent", 0, true⟩) (forest.model 0))).put
      (.ofTable (forest.linkTable ⟨0, "children", 0, false⟩) (forest.model 0))

/-- A database that accepts every statement, numbers what is inserted and has no rows to read. -/
def numbering : Driver UInt64 where
  step
    | .insert _, last => (.ok (last + 1), last + 1)
    | .update _, last | .delete _, last => (.ok (1 : UInt64), last)
    | .next, last => (.ok false, last)
    | .read slots, last => (.ok ⟨slots, rfl⟩, last)
    | .tableExists _, last => (.ok true, last)
    | .release, last | .begin, last | .commit, last | .rollback, last | .query _, last
    | .finish, last | .execute _, last => (.ok (), last)
  remaining _ := 0
  remaining_next _ h := by cases h
  remaining_read _ _ := Nat.le_refl 0

section Node

variable {id : Int} {holds : IntegerKind.int64.Holds id}
  {parent : Cell forest (.nullable (.boxed (.entity 0)))} {children : Items forest (.entity 0)}

theorem bind_node :
    (node id holds parent children).columns.bind = .ok (node id holds parent children) :=
  Columns.bind_eq_ok_iff.2 ⟨rfl, rfl⟩

/-- A node can be introspected. -/
theorem introspect_node :
    (node id holds parent children).record.introspect = .ok (node id holds parent children, []) :=
  Record.introspect_eq_ok_iff.2 ⟨Models.tree_dependencies, bind_node⟩

/-- The key of a node that was inserted is the generated id. -/
theorem captureKey_node (key : UInt64) (hkey : IntegerKind.int64.Holds key.toNat) :
    Session.captureKey (node id holds parent children) key
      = .ok (node key.toNat hkey parent children) := by
  have hassign : (node id holds parent children).columns.assignAt 0 (.uint key)
      = .ok (node key.toNat hkey parent children).columns :=
    bind_eq_ok.2 ⟨.integer key.toNat hkey, Catalog.build_integer hkey rfl, rfl⟩
  show Except.mapError MapperError.value (Bound.assignAt _ 0 (.uint key)) = _
  rw [Bound.assignAt, hassign]
  rfl

end Node

namespace Session

/-- The tables of trees are there. -/
theorem ensureSchema_forest {σ : Type} {d : Driver σ} (s : σ) :
    (ensureSchema (d := d) forest.toModels 0 []).exec ⟨s, forestCache⟩
      = ⟨.ok (), ⟨s, forestCache⟩, []⟩ := by
  refine ensureSchema_known (fun j hj => ?_) fun j hj =>
    ⟨[⟨0, "parent", 0, true⟩, ⟨0, "children", 0, false⟩], ?_, ?_⟩
  · rw [List.mem_singleton.1 hj]
    show forestCache.check _ _ = _
    decide +kernel
  · rw [List.mem_singleton.1 hj]
    decide +kernel
  · show ∀ r ∈ _, forestCache.check _ _ = _
    decide +kernel

/-- Inserting a branch gives the child the first id, and the branch the second one. -/
theorem insert_branch :
    ((insert (d := numbering) (branch 0 0 (by decide) (by decide)).record).run
      ⟨0, forestCache⟩).value = ⟨(branch 2 1 (by decide) (by decide)).record, .ok ()⟩ := by
  -- The rows of nodes have no columns but their key, so one statement inserts any of them.
  let s : Statement := .insertRow (forest.model 0).table []
  let inserted (s : Statement) (id : UInt64) : List Entry :=
    [.event (.statement .insert s), .call (.insert s) (.ok id)]
  have hchild : (insertHeld (d := numbering) (.entity (node 0 (by decide) .absent .nil).columns :
      Cell forest (.entity 0))).run ⟨0, forestCache⟩ = ⟨⟨.entity (node 1 (by decide) .absent
        .nil).columns, .ok ()⟩, ⟨1, forestCache⟩, [] ++ (inserted s 1 ++ [])⟩ :=
    insertHeld_run (v := ⟨0, forestCache⟩) bind_node rfl rfl rfl
      (captureKey_node 1 (by decide)) rfl
  have howned : (insertOwned (d := numbering) (branch 0 0 (by decide) (by decide)).columns).run
      ⟨0, forestCache⟩ = ⟨⟨(branch 0 1 (by decide) (by decide)).columns, .ok ()⟩,
        ⟨1, forestCache⟩, inserted s 1⟩ := by
    show (insertOwned (.cons _ (.cons _ (.cons (.list (.cons _ .nil)) .nil)))).run _ = _
    rw [insertOwned, if_neg (by decide), insertOwned, if_neg (by decide), insertOwned,
      if_pos (by decide), insertHeld, insertItems, insertItems, insertOwned]
    simp only [Action.run_bind, Action.run_pure, hchild, List.append_nil]
    rfl
  have hbranch : ∃ journal, (insertHeld (d := numbering) (.entity (branch 0 0 (by decide)
      (by decide)).columns : Cell forest (.entity 0))).run ⟨0, forestCache⟩ = ⟨⟨.entity (branch 2 1
        (by decide) (by decide)).columns, .ok ()⟩, ⟨4, forestCache⟩, journal⟩ :=
    ⟨_, insertHeld_run bind_node howned rfl rfl (captureKey_node 2 (by decide)) rfl⟩
  obtain ⟨journal, hbranch⟩ := hbranch
  have hrecord : (insertRecord (d := numbering) (branch 0 0 (by decide) (by decide)).record).run
      ⟨0, forestCache⟩
        = ⟨⟨(branch 2 1 (by decide) (by decide)).record, .ok ()⟩, ⟨4, forestCache⟩, journal⟩ :=
    insertRecord_run_of_held hbranch
  refine (operate_known (fun _ => Staged.attempt insertRecord) (fun _ _ => rfl)
    introspect_node (ensureSchema_forest 0)).trans ?_
  rw [Staged.exec_attempt]
  exact congrArg Outcome.value hrecord

/-- The insertion of a branch follows its plan: the row of the child, that of the branch, and the
links of the branch to its parent and its child. -/
theorem insert_branch_follows :
    ((insert (d := numbering) (branch 0 0 (by decide) (by decide)).record).run
        ⟨0, forestCache⟩).value = ⟨(branch 2 1 (by decide) (by decide)).record, .ok ()⟩ ∧
      Inserts (branch 2 1 (by decide) (by decide)).record.insertions
        ((insert (d := numbering) (branch 0 0 (by decide) (by decide)).record).run
          ⟨0, forestCache⟩).journal := by
  obtain ⟨-, hinserts⟩ := insert_follows (d := numbering)
    (branch 0 0 (by decide) (by decide)).record ⟨0, forestCache⟩ (by rw [insert_branch])
  rw [insert_branch] at hinserts
  exact ⟨insert_branch, hinserts⟩

end Session

end EntityMapper
