import EntityMapper.Proofs.Session.Laws
import EntityMapper.Proofs.Session.Relinking
import EntityMapper.Proofs.Storage.Classification
import EntityMapper.Proofs.Storage.Keys
import EntityMapper.Proofs.Storage.Ranges

/-!
# Keys in link tables

A link is inserted with the literals of two keys, that of the owner, read through its description,
and that of the related record, read through the position of its key (`Bound.insertLink_keys`). Each
is of the shape that the kind of its own key is stored in, while link tables have columns of 32 bits
whatever the keys are. So keys that are stored in at most as many bits fit, and wider ones need not
(`Session.links_have_keys`).
-/

namespace EntityMapper

open Sql

variable {n : Nat} {c : Catalog n} {k : Fin n} {σ : Type} {d : Driver σ}

/-! ## Literals of keys -/

namespace EntityModel

variable {m : EntityModel n}

/-- The primary key of a model. -/
def keyField? (m : EntityModel n) : Option (FieldModel n) := m.keyIndex?.bind (m.fields[·]?)

/-- Whether a literal is one that the key of a model can have: of the shape that the key's kind is
stored in, and an integer in the range of an `INT` where the column of the key is no wider. -/
def IsKeyLiteral (m : EntityModel n) (l : Literal) : Prop :=
  ∃ f, m.keyField? = some f ∧ f.type.classify.kind.Writes l ∧
    ∀ type ∈ SqlType.ofKind? f.type.classify.kind, ∀ bits ∈ type.bits?, bits ≤ 32 →
      ∃ x, l = .integer x ∧ SqlType.int.Admits x

theorem IsKeyLiteral.of_writes {index : Nat} {f : FieldModel n} (hindex : m.keyIndex? = some index)
    (hf : m.fields[index]? = some f) {l : Literal} (h : f.type.classify.kind.Writes l) :
    m.IsKeyLiteral l := by
  refine ⟨f, ?_, h, fun type htype bits hbits hle => h.narrow htype hbits hle⟩
  rw [keyField?, hindex]
  exact hf

end EntityModel

/-- The key that a described record is addressed by has a literal as the key of its model can. -/
theorem Bound.isKeyLiteral {b : Bound c k} {l : Literal} (h : b.keyLiteral = .ok l) :
    (c.model k).IsKeyLiteral l := by
  obtain ⟨f, hkey, hl⟩ := keyLiteral_eq_ok h
  obtain ⟨hf, hflag⟩ := b.key?_eq_some hkey
  obtain ⟨i, hi⟩ := List.getElem?_of_mem (b.descriptor_mem hf)
  obtain ⟨-, m, hm, hdescribes⟩ := EntityModel.describes_of_getElem? b.described hi
  have hindex := (EntityModel.keyIndex?_eq_some_iff b.described).2 ⟨_, hi, hflag⟩
  have hwrites := b.writes_of_literal? hf hl
  rw [hdescribes.type_eq] at hwrites
  exact .of_writes hindex hm hwrites

/-- What a content renders as once it is taken out of all references has the shape of its kind. -/
theorem Cell.writes_of_key {t : ColumnType n} (cell : Cell c t) {l : Literal}
    (h : cell.value.key.literal? = .ok (some l)) : t.classify.kind.Writes l := by
  induction t with
  | integer kind =>
      have hscalar := cell.key_value (t := .integer kind) rfl
      exact cell.writes_of_literal? (hscalar ▸ h)
  | bool | float | double | text | dateTime | list =>
      cases cell
      exact writes_of_literal? _ h
  | raw | entity => trivial
  | nullable t ih =>
      cases cell with
      | absent => cases h
      | present inner => exact ih inner h
  | boxed t ih =>
      cases cell with
      | boxed inner => exact ih inner h

/-- What stands in a column is the value of a content of the column's type. -/
theorem Columns.exists_cell {ts : List (ColumnType n)} (columns : Columns c ts) {index : Nat}
    {t : ColumnType n} (h : ts[index]? = some t) :
    ∃ cell : Cell c t, columns.valueAt index = cell.value := by
  induction ts generalizing index with
  | nil => cases h
  | cons u ts ih =>
      cases columns with
      | cons cell cells =>
          cases index with
          | zero =>
              cases h
              exact ⟨cell, rfl⟩
          | succ index => exact ih cells h

/-- The key that a related record is linked by has a literal as the key of its model can. -/
theorem Record.isKeyLiteral {r : Record c} {l : Literal} (h : r.keyLiteral = .ok l) :
    (c.model r.model).IsKeyLiteral l := by
  obtain ⟨l', hl, h⟩ := bind_eq_ok.1 h
  cases l' with
  | none => cases h
  | some l' =>
      cases h
      have hvalue := mapError_eq_ok.1 hl
      cases hindex : (c.model r.model).offeredKey? with
      | none =>
          rw [key, Cell.value, hindex] at hvalue
          cases hvalue
      | some index =>
          obtain ⟨f, hf, -⟩ := EntityModel.offeredKey?_declared hindex
          obtain ⟨cell, hcell⟩ := r.columns.exists_cell (EntityModel.columnTypes_of_field hf)
          rw [show r.key = _ from Record.key_eq hindex, hcell] at hvalue
          exact .of_writes (EntityModel.keyIndex?_of_offeredKey? hindex) hf
            (cell.writes_of_key hvalue)

/-! ## Related records -/

mutual

/-- The records that a content holds are of the model that its type relates to. -/
theorem Cell.relation_of_mem_records : {t : ColumnType n} → (cell : Cell c t) → {r : Record c} →
    r ∈ cell.records → ∃ isPointer, t.classify.relation = some ⟨r.model, isPointer⟩
  | .entity k, .entity columns, r, h => by
      obtain rfl : r = ⟨k, columns⟩ := List.mem_singleton.1 h
      exact ⟨false, rfl⟩
  | .nullable t, .present inner, _, h => by
      obtain ⟨isPointer, hrelation⟩ := inner.relation_of_mem_records h
      exact ⟨true, Option.map_eq_some_iff.2 ⟨_, hrelation, rfl⟩⟩
  | .boxed t, .boxed inner, _, h => by
      obtain ⟨isPointer, hrelation⟩ := inner.relation_of_mem_records h
      exact ⟨true, Option.map_eq_some_iff.2 ⟨_, hrelation, rfl⟩⟩
  | .list t, .list items, _, h => by
      rw [(ColumnType.classify_list t).1]
      exact items.relation_of_mem_records h
  | _, .bool _, _, h | _, .integer _ _, _, h | _, .float _, _, h | _, .double _, _, h
  | _, .text _, _, h | _, .dateTime _, _, h | _, .raw _, _, h | _, .absent, _, h =>
      absurd h List.not_mem_nil

/-- The records that the items of a list hold are of the model that their type relates to. -/
theorem Items.relation_of_mem_records : {t : ColumnType n} → (items : Items c t) → {r : Record c} →
    r ∈ items.records → ∃ isPointer, t.classify.relation = some ⟨r.model, isPointer⟩
  | _, .nil, _, h => absurd h List.not_mem_nil
  | _, .cons item items, _, h =>
      (List.mem_append.1 h).elim item.relation_of_mem_records items.relation_of_mem_records

end

/-- Whether a link table and the literals of a link belong to a relation of a closure. -/
def Catalog.LinksKeys (c : Catalog n) (root : Fin n) (table : String) (left right : Literal) :
    Prop :=
  ∃ k ∈ c.closure root, ∃ relations, c.relations k = .ok relations ∧ ∃ relation ∈ relations,
    table = c.linkTable relation ∧ (c.model k).IsKeyLiteral left ∧
      (c.model relation.dependency).IsKeyLiteral right

/-- A link of a record to one that it holds has the keys of both. -/
theorem Bound.insertLink_keys {b : Bound c k} {root : Fin n} (hk : k ∈ c.closure root)
    {f : Field c} (hf : f ∈ b.relations) {related : Record c} (hrelated : related ∈ f.records)
    {table : String} {left right : Literal}
    (h : b.insertLink f related = .ok (.insertLink table left right)) :
    c.LinksKeys root table left right := by
  obtain ⟨table', htable, h⟩ := bind_eq_ok.1 h
  obtain ⟨left', hleft, h⟩ := bind_eq_ok.1 h
  obtain ⟨right', hright, h⟩ := bind_eq_ok.1 h
  obtain ⟨rfl, rfl, rfl⟩ := Statement.insertLink.inj (Except.ok.inj h)
  have hmem : f ∈ b.fields := List.mem_of_mem_filter hf
  obtain ⟨isPointer, hrelation⟩ := f.cell.relation_of_mem_records hrelated
  rw [← b.columns.field_type b.types_eq hmem] at hrelation
  have hrelation? : f.descriptor.relation? k = some ⟨k, f.name, related.model, isPointer⟩ := by
    rw [Descriptor.relation?, hrelation]
    rfl
  rw [linkTable, hrelation?] at htable
  cases htable
  refine ⟨k, hk, b.descriptors.filterMap (·.relation? k), ?_, _,
    List.mem_filterMap.2 ⟨_, b.descriptor_mem hmem, hrelation?⟩, rfl, b.isKeyLiteral hleft,
    related.isKeyLiteral hright⟩
  exact bind_eq_ok.2 ⟨b.descriptors, b.described, rfl⟩

/-! ## Inserted links -/

/-- Whether a statement that inserts a link has the keys of a relation of a closure. -/
def Sql.Statement.LinksKeys (c : Catalog n) (root : Fin n) : Statement → Prop
  | insertLink table left right => c.LinksKeys root table left right
  | _ => True

/-- Whether a line that inserts a link has the keys of a relation of a closure. -/
def Entry.LinksKeys (c : Catalog n) (root : Fin n) : Entry → Prop
  | .call (.insert s) _ => s.LinksKeys c root
  | _ => True

/-- Whether a piece writes rows or links of records, and links with the keys of a relation of a
closure only. -/
def Piece.LinksKeys (c : Catalog n) (root : Fin n) : Piece → Prop
  | .job (.insert s) => s.LinksKeys c root
  | .job (.delete _) | .counted .. | .report _ => True
  | _ => False

/-- The lines of such a piece are of this kind. -/
theorem Piece.LinksKeys.lines {root : Fin n} {piece : Piece} (h : piece.LinksKeys c root) :
    (piece.task d).Journals (Entry.LinksKeys c root) := by
  cases piece with
  | report e => exact .report trivial
  | counted table s =>
      refine .bind (.bind (.report trivial) fun _ => .call fun _ => trivial) fun affected => ?_
      have hcount (affected : UInt64) : Task.Journals (d := d) (Entry.LinksKeys c root)
          (if affected != 1 then Task.report (.unexpectedCount table affected) else pure ()) := by
        split
        exacts [.report trivial, .pure ()]
      exact hcount affected
  | job j =>
      cases j with
      | insert s => exact .bind (.report trivial) fun _ => .call fun _ => h
      | delete s => exact .bind (.report trivial) fun _ => .call fun _ => trivial
      | ensure | drop | update | fetchRow | fetchColumn => exact absurd h id

/-- What fits the ensuring of tables inserts no links. -/
theorem Entry.Fits.linksKeys {root : Fin n} {entry : Entry} (h : entry.Fits .schemaEnsuring) :
    entry.LinksKeys c root := by
  cases entry with
  | event | cached => trivial
  | call call answer =>
      cases call with
      | insert s => exact absurd h id
      | _ => trivial

namespace Session

/-- Records of a closure are inserted and updated by such pieces. -/
theorem RowPieces.linksKeys {root : Fin n} : RowPieces c root (Piece.LinksKeys c root) where
  insertRow _ _ _ _ hs := by
    obtain ⟨as, -, hs⟩ := bind_eq_ok.1 hs
    cases hs
    trivial
  insertLink _ hk b f hf related hrelated s hs := by
    obtain ⟨table, keys, -, rfl⟩ := Bound.insertLink_ok hs
    exact b.insertLink_keys hk hf hrelated hs
  updateRow _ _ _ _ _ := trivial
  clearLinks _ _ _ _ _ _ _ := trivial
  notice _ _ := trivial

/-- A law of every line that ensuring tables and certain pieces obey is obeyed by insertions and
updates of records by such pieces. -/
theorem writes_lines {R : Entry → Prop} {P : Piece → Prop} {r : Record c}
    (hstage : ∀ e : Event, e.IsStage → R (.event e))
    (hschema : ∀ entry : Entry, entry.Fits .schemaEnsuring → R entry)
    (hP : RowPieces c r.model P) (hpiece : ∀ piece, P piece → (piece.task d).Journals R)
    (w : World σ) :
    (∀ entry ∈ ((insert (d := d) r).run w).journal, R entry) ∧
      ∀ entry ∈ ((update (d := d) r).run w).journal, R entry := by
  have hL : JournalLaw fun (_ : World σ) journal _ => ∀ entry ∈ journal, R entry :=
    ⟨fun _ => List.forall_mem_nil _,
      fun h hlater => List.forall_mem_append.2 ⟨h, hlater⟩,
      fun e he _ => List.forall_mem_singleton.2 (hstage e he)⟩
  have hensuring : ∀ piece : Piece, piece.Within c.toModels r.model .ensuring (fun _ => True) →
      (piece.task d).Obeys fun _ _ journal _ => ∀ entry ∈ journal, R entry :=
    fun piece h w entry hentry => hschema entry (h.fits w entry hentry)
  have hbase : ∀ j, (ColumnType.entity r.model).base? = some j → j ∈ c.closure r.model :=
    fun j hj => .inl (Option.some.inj hj).symm
  constructor
  · have hwork := (insertRecord_assembled (d := d) (r := r) .any hP).lines hpiece
    rw [insert_eq]
    exact prepared_obeys hL hensuring (fun _ => .attempt hwork) w
  · have hwork := (updateHeld_assembled (d := d) .any hP (.entity r.columns) hbase).law
      (hL.pieces _) hpiece
    rw [update_eq]
    exact prepared_obeys hL hensuring (fun _ => .task hwork) w

/-- Every link that the insertion or the update of a record inserts, whether it succeeds or fails
later, has the keys of an owner and of a related record: it belongs to a relation of the closure,
and the literals on both sides are of the shapes that the keys of the two models are stored in. A
key that is stored in at most 32 bits is an integer in the range of the columns of link tables. -/
theorem links_have_keys (r : Record c) (w : World σ) :
    (∀ entry ∈ ((insert (d := d) r).run w).journal, entry.LinksKeys c r.model) ∧
      ∀ entry ∈ ((update (d := d) r).run w).journal, entry.LinksKeys c r.model :=
  writes_lines (fun _ _ => trivial) (fun _ h => h.linksKeys) .linksKeys (fun _ h => h.lines) w

/-- A leaf under a parent. -/
def leaf (id parent : Int) (hid : IntegerKind.int64.Holds id)
    (hparent : IntegerKind.int64.Holds parent) : Bound forest 0 :=
  node id hid (.present (.boxed (.entity (node parent hparent .absent .nil).columns))) .nil

/-- The update of a leaf whose parent has the first number past the range of an `INT` for its key
inserts a link with that number. -/
theorem leaf_link_outside :
    let b := leaf 1 2147483648 (by decide) (by decide)
    (∃ bound deps, b.record.introspect = .ok (bound, deps)) ∧
    .call (.insert (.insertLink (forest.linkTable ⟨0, "parent", 0, true⟩) (.integer 1)
      (.integer 2147483648))) (.ok (1 : UInt64))
        ∈ ((update (d := numbering) b.record).run ⟨0, forestCache⟩).journal ∧
    ¬ SqlType.int.Admits 2147483648 := by
  intro b
  let w : World UInt64 := ⟨0, forestCache⟩
  let s : Statement := .insertLink (forest.linkTable ⟨0, "parent", 0, true⟩) (.integer 1)
    (.integer 2147483648)
  have howned : (updateOwned (d := numbering) b.columns).exec w = ⟨.ok (), w, []⟩ := by
    show (updateOwned (.cons _ (.cons _ (.cons (.list .nil) .nil)))).exec _ = _
    rw [updateOwned, if_neg (by decide), updateOwned, if_neg (by decide), updateOwned,
      if_pos (by decide), updateHeld, updateItems, updateOwned]
    rfl
  have hlinks : (insertLinks (d := numbering) b).exec w = ⟨.ok (), ⟨1, forestCache⟩,
      [.event (.statement .insert s), .call (.insert s) (.ok (1 : UInt64))]⟩ := rfl
  have hheld : .call (.insert s) (.ok (1 : UInt64)) ∈ ((updateHeld (d := numbering)
      (.entity b.columns : Cell forest (.entity 0))).exec w).journal := by
    have hrun := updateHeld_run (d := numbering) (w := w) (u := w) (v := w) (x := w)
      (show b.columns.bind = .ok b from bind_node) rfl howned rfl hlinks
    rw [hrun]
    exact List.mem_append_right _ (List.mem_append_right _ (List.mem_append_right _
      (List.mem_cons_of_mem _ List.mem_cons_self)))
  have hrun : (update (d := numbering) b.record).run w = _ :=
    operate_known_run (fun _ => Staged.task (updateHeld (.entity b.columns)))
      (fun _ _ => rfl) introspect_node (ensureSchema_forest 0) (Staged.exec_task ..)
  refine ⟨⟨_, _, introspect_node⟩, ?_, by decide⟩
  rw [hrun]
  exact List.mem_cons_of_mem _ (List.mem_cons_of_mem _ (List.mem_cons_of_mem _
    (List.mem_append_left _ hheld)))

end Session

end EntityMapper
