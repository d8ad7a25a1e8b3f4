import EntityMapper.Proofs.Session.Insertion
import EntityMapper.Proofs.Session.Requests

/-!
# What writing leaves of a record

Updates and deletions leave the record alone. An insertion goes through the record's family and may
stop at any point; what it leaves is related to the record member by member (`Numbered`): a member
whose row was inserted may have taken the answered id as its generated key, and every other field of
every member is as it was, unless it holds records of its own, which are members themselves.

Insertions are followed whether they fail or not (`Action.Leaves`), one lemma for each traversal.
-/

namespace EntityMapper

open Sql

variable {n : Nat} {c : Catalog n} {k : Fin n} {σ β γ δ : Type} {d : Driver σ}

/-! ## Fields that hold records -/

/-- Whether contents of a type hold records that stand in no option and in no box. -/
def ColumnType.isDirect : ColumnType n → Bool
  | .entity _ => true
  | .list item => item.isDirect
  | _ => false

/-- The relations that are written together with their owner are those under no option and no
box. -/
theorem ColumnType.isOwnedRelation_classify (t : ColumnType n) :
    t.classify.isOwnedRelation = t.isDirect := by
  have hpointer : ∀ type : FieldType n, type.pointer.isOwnedRelation = false := by
    intro type
    cases h : type.relation with
    | none => rw [FieldType.isOwnedRelation, FieldType.pointer, h]; rfl
    | some relation => rw [FieldType.isOwnedRelation, FieldType.pointer, h]; rfl
  induction t with
  | entity j => rfl
  | nullable t | boxed t => exact hpointer t.classify
  | list t ih =>
      rw [isDirect, ← ih, classify, FieldType.list]
      split
      · rename_i relation hrelation
        rw [FieldType.isOwnedRelation, FieldType.isOwnedRelation, hrelation]
      · rename_i hrelation
        rw [FieldType.isOwnedRelation, FieldType.isOwnedRelation, hrelation]
        rfl
  | bool | integer | float | double | text | dateTime | raw => rfl

/-- Lists that are related item by item to one in the middle are related through its items. -/
theorem forall₂_through {α : Type} {R : α → β → Prop} {S : β → γ → Prop} {xs : List α} {ys : List β}
    {zs : List γ} (h : List.Forall₂ R xs ys) (h' : List.Forall₂ S ys zs) :
    List.Forall₂ (fun x z => ∃ y, R x y ∧ S y z) xs zs := by
  induction h generalizing zs with
  | nil =>
      cases h'
      exact .nil
  | cons hxy _ ih =>
      obtain ⟨z, zs, hyz, hrest, rfl⟩ := List.forall₂_cons_left_iff.1 h'
      exact .cons ⟨_, hxy, hyz⟩ (ih hrest)

/-! ## Numbered families -/

/-- Whether a field is another one, but for what it holds of records of its own. -/
def Field.Keeps (f g : Field c) : Prop :=
  g = f ∨ f.type.isDirect = true ∧ ∃ cell, g = { f with cell }

namespace Columns

variable {t : ColumnType n} {ts : List (ColumnType n)}

/-- Whether the columns of a record are others, but for generated keys of the records that they
hold as their own. -/
structure Keeps (columns after : Columns c ts) : Prop where
  keyless_eq : ∀ ds, ds.length = ts.length → after.keyless ds = columns.keyless ds
  fields : ∀ ds, List.Forall₂ Field.Keeps (columns.fields ds) (after.fields ds)

theorem Keeps.refl (columns : Columns c ts) : columns.Keeps columns :=
  ⟨fun _ _ => rfl, fun _ => List.forall₂_same.2 fun _ _ => .inl rfl⟩

/-- The first column is as it was, or holds records of its own. -/
theorem Keeps.cons {cell cell' : Cell c t} {cells cells' : Columns c ts}
    (hcell : cell' = cell ∨ t.isDirect = true ∧ cell'.keyless = cell.keyless)
    (hcells : cells.Keeps cells') : (Columns.cons cell cells).Keeps (.cons cell' cells') where
  keyless_eq ds hlength := by
    cases ds with
    | nil => cases hlength
    | cons d ds =>
        rw [keyless, keyless, hcells.keyless_eq ds (Nat.succ.inj hlength)]
        rcases hcell with rfl | ⟨hdirect, hkeyless⟩
        · rfl
        · rw [t.isOwnedRelation_classify, if_pos hdirect, if_pos hdirect, hkeyless]
  fields ds := by
    cases ds with
    | nil => exact .nil
    | cons d ds =>
        refine .cons ?_ (hcells.fields ds)
        rcases hcell with rfl | ⟨hdirect, -⟩
        · exact .inl rfl
        · exact .inr ⟨hdirect, cell', rfl⟩

end Columns

namespace Record

/-- Whether a record is another one, but for the records that it owns. -/
def Keeps (x y : Record c) : Prop :=
  y.model = x.model ∧ List.Forall₂ Field.Keeps x.fields y.fields

/-- Whether a record is another one with an id for its generated key, but for the records that it
owns. -/
def Takes (id : UInt64) (x y : Record c) : Prop :=
  y.model = x.model ∧ List.Forall₂ (fun f g =>
    if f.descriptor.isGenerated then f.Becomes (.uint id) g else f.Keeps g) x.fields y.fields

theorem Keeps.refl (x : Record c) : x.Keeps x := ⟨rfl, List.forall₂_same.2 fun _ _ => .inl rfl⟩

end Record

/-- Whether records are left by an insertion of others for which some rows were inserted, each with
an id: a record takes at most the id of its own row. -/
inductive Numbered : List (Record c) → List (Statement × UInt64) → List (Record c) → Prop
  | nil : Numbered [] [] []
  | kept {x y : Record c} {xs ys : List (Record c)} {rows : List (Statement × UInt64)}
      (h : x.Keeps y) (hrest : Numbered xs rows ys) : Numbered (x :: xs) rows (y :: ys)
  | row {x y : Record c} {xs ys : List (Record c)} {rows : List (Statement × UInt64)}
      {s : Statement} {id : UInt64} (hs : (Write.insertRow y).statement = .ok s)
      (h : x.Keeps y ∨ x.Takes id y) (hrest : Numbered xs rows ys) :
      Numbered (x :: xs) ((s, id) :: rows) (y :: ys)

namespace Numbered

variable {xs ys xs' ys' : List (Record c)} {rows rows' : List (Statement × UInt64)}

theorem append (h : Numbered xs rows ys) (hmore : Numbered xs' rows' ys') :
    Numbered (xs ++ xs') (rows ++ rows') (ys ++ ys') := by
  induction h with
  | nil => exact hmore
  | kept h _ ih => exact .kept h ih
  | row hs h _ ih => exact .row hs h ih

/-- Records that nothing was done for. -/
theorem refl : (xs : List (Record c)) → Numbered xs [] xs
  | [] => .nil
  | x :: xs => .kept (.refl x) (refl xs)

/-- An insertion that stops leaves what comes later alone. -/
theorem stop (h : Numbered xs rows ys) (xs' : List (Record c)) :
    Numbered (xs ++ xs') rows (ys ++ xs') := by
  have hstopped := h.append (refl xs')
  rwa [List.append_nil] at hstopped

end Numbered

/-- The statement of a row's insertion and the id that was answered. -/
def Entry.answeredRow? : Entry → Option (Statement × UInt64)
  | .call (.insert (.insertRow table assignments)) (.ok id) =>
      some (.insertRow table assignments, id)
  | _ => none

/-- The insertions of rows that a journal tells were answered. -/
abbrev answeredRows (journal : List Entry) : List (Statement × UInt64) :=
  journal.filterMap Entry.answeredRow?

theorem answeredRows_append (journal later : List Entry) :
    answeredRows (journal ++ later) = answeredRows journal ++ answeredRows later :=
  List.filterMap_append

theorem answeredRows_eq_nil {journal : List Entry}
    (h : ∀ entry ∈ journal, entry.answeredRow? = none) : answeredRows journal = [] :=
  List.filterMap_eq_nil_iff.2 h

/-! ## Attempts that may fail -/

namespace Action

/-- Whether an attempt leaves and writes what it should, whether it fails or not. -/
def Leaves (action : Action d (Attempt β Unit)) (Q : β → List Entry → Prop) : Prop :=
  ∀ w, Q (action.run w).value.storage (action.run w).journal

variable {action : Action d (Attempt β Unit)} {P : β → List Entry → Prop}
  {Q : δ → List Entry → Prop}

theorem Leaves.pure {x : δ} {result : Except MapperError Unit} (h : Q x []) :
    (pure ⟨x, result⟩ : Action d (Attempt δ Unit)).Leaves Q :=
  fun _ => h

/-- An attempt on a part of some storage. -/
theorem Leaves.wrap {wrap : β → δ} (h : action.Leaves fun x journal => Q (wrap x) journal) :
    Leaves (d := d) (do
      let left ← action
      return ⟨wrap left.storage, left.result⟩) Q := by
  intro w
  rw [run_bind, run_pure]
  show Q _ ((action.run w).journal ++ [])
  rw [List.append_nil]
  exact h w

/-- What follows an attempt goes on from what the attempt leaves, or stops there. -/
theorem Leaves.bind {next : Attempt β Unit → Action d (Attempt δ Unit)} (hfirst : action.Leaves P)
    (hnext : ∀ x result journal, P x journal →
      (next ⟨x, result⟩).Leaves fun y later => Q y (journal ++ later)) :
    (action >>= next).Leaves Q := by
  intro w
  rw [run_bind]
  exact hnext _ _ _ (hfirst w) _

/-- What follows a task goes on from what the task answers. -/
theorem Leaves.after {α : Type} {t : Task d α}
    {next : Except MapperError α → Action d (Attempt δ Unit)}
    (h : ∀ w, (next (t.exec w).value).Leaves fun y later => Q y ((t.exec w).journal ++ later)) :
    (t.run >>= next).Leaves Q :=
  fun w => h w _

end Action

namespace Session

variable {b captured : Bound c k}

/-! ## One record -/

/-- Inserting links inserts no rows. -/
theorem insertLinks_rows :
    (insertLinks b : Task d Unit).Journals fun entry => entry.answeredRow? = none := by
  refine .forM fun f _ => .forM fun related _ w => ?_
  refine Task.forall_journal_bind (Task.Journals.ofExcept _ w) fun s hs => ?_
  have hlink : ∃ table left right, s = .insertLink table left right := by
    obtain ⟨table, -, h⟩ := bind_eq_ok.1 (show b.insertLink f related = .ok s from hs)
    obtain ⟨left, -, h⟩ := bind_eq_ok.1 h
    obtain ⟨right, -, h⟩ := bind_eq_ok.1 h
    cases h
    exact ⟨table, left, right, rfl⟩
  obtain ⟨table, left, right, rfl⟩ := hlink
  have hinserted : (Task.insert (d := d) (.insertLink table left right)).Journals
      fun entry => entry.answeredRow? = none :=
    .bind (.report rfl) fun _ => .call fun _ => rfl
  exact Task.Journals.bind hinserted (fun _ => .pure ()) _

/-- What inserting the row of a record and its links leaves of the record: the columns as they were,
or, where an id was answered for the row, the columns with the key captured. -/
theorem insertSelf_leaves :
    (insertSelf b : Action d (Attempt (Columns c (c.model k).columnTypes) Unit)).Leaves
      fun columns journal => (columns = b.columns ∧ answeredRows journal = []) ∨
        ∃ s id, b.insertRow = .ok s ∧ answeredRows journal = [(s, id)] ∧
          (columns = b.columns ∨
            ∃ captured, captureKey b id = .ok captured ∧ columns = captured.columns) := by
  rw [insertSelf]
  refine .after fun w => ?_
  cases hs : b.insertRow with
  | error e =>
    have hfailed : (insertRow b : Task d UInt64).exec w = ⟨.error e, w, []⟩ := by
      rw [insertRow, hs]
      rfl
    rw [hfailed]
    exact .pure (.inl ⟨rfl, rfl⟩)
  | ok s =>
    obtain ⟨assignments, rfl⟩ : ∃ assignments, s = .insertRow b.table assignments := by
      obtain ⟨assignments, -, h⟩ := bind_eq_ok.1 hs
      cases h
      exact ⟨assignments, rfl⟩
    rw [insertRow_exec hs w]
    rcases d.step (.insert (.insertRow b.table assignments)) w.driver with ⟨answer, after⟩
    cases answer with
    | error e => exact .pure (.inl ⟨rfl, rfl⟩)
    | ok id =>
      dsimp only [Except.mapError]
      cases hcapture : captureKey b id with
      | error e => exact .pure (.inr ⟨_, id, rfl, rfl, .inl rfl⟩)
      | ok captured =>
        refine .after fun w => .pure (.inr ⟨_, id, rfl, ?_, .inr ⟨captured, hcapture, rfl⟩⟩)
        rw [answeredRows_append, answeredRows_append, answeredRows_eq_nil (insertLinks_rows w)]
        rfl

/-- A record whose own fields were kept takes an id when its key is captured: a field that holds
records of its own is none that the database generates. -/
theorem takes_of_captureKey {columns : Columns c (c.model k).columnTypes} {id : UInt64}
    (hkeeps : List.Forall₂ Field.Keeps (columns.fields b.descriptors) b.fields)
    (h : captureKey b id = .ok captured) : Record.Takes id ⟨k, columns⟩ captured.record := by
  have hplain : ∀ g ∈ b.fields, g.type.isDirect = true → g.descriptor.isGenerated = false := by
    intro g hg hdirect
    by_contra hgenerated
    have hauto := (Bool.and_eq_true_iff.1 (Bool.eq_true_of_not_eq_false hgenerated)).2
    have hrelation := Bound.isRelation_of_isAuto (b.descriptor_mem hg) hauto
    rw [b.columns.field_type b.types_eq hg, FieldType.isRelation_of_isOwnedRelation] at hrelation
    · cases hrelation
    · rw [ColumnType.isOwnedRelation_classify, hdirect]
  have hcaptured := (List.forall₂_and_left _ _).2 ⟨hplain, captureKey_fields h⟩
  refine ⟨rfl, ?_⟩
  rw [captured.fields_record]
  show List.Forall₂ _ (columns.fields (c.model k).descriptors) _
  rw [EntityModel.descriptors_of_describe b.described]
  refine (forall₂_through hkeeps hcaptured).imp ?_
  rintro f g' ⟨g, hfg, hdirect, hchange⟩
  rcases hfg with rfl | ⟨hf, cell, rfl⟩
  · split at hchange
    · rename_i hgenerated
      rwa [if_pos hgenerated]
    · rename_i hgenerated
      rw [if_neg hgenerated]
      exact .inl hchange
  · rw [hdirect hf] at hchange
    have hgenerated : f.descriptor.isGenerated = false := hdirect hf
    rw [hgenerated]
    exact .inr ⟨hf, cell, hchange⟩

/-- What inserting the row of a record and its links leaves is the record, which may have taken the
id that was answered for its row. -/
theorem insertSelf_numbered {columns : Columns c (c.model k).columnTypes}
    (hb : b.columns.bind = .ok b) (hkeeps : columns.Keeps b.columns) :
    (insertSelf b : Action d (Attempt (Columns c (c.model k).columnTypes) Unit)).Leaves
      fun left journal => left.keyless b.descriptors = columns.keyless b.descriptors ∧
        left.family = b.columns.family ∧
          Numbered [⟨k, columns⟩] (answeredRows journal) [⟨k, left⟩] := by
  have hkeyless := hkeeps.keyless_eq _ b.descriptors_length
  have hkept : Record.Keeps ⟨k, columns⟩ b.record := ⟨rfl, hkeeps.fields _⟩
  intro w
  have hself := insertSelf_leaves (d := d) (b := b) w
  generalize (insertSelf b : Action d (Attempt _ Unit)).run w = outcome at hself ⊢
  rcases hself with ⟨hleft, hrows⟩ | ⟨s, id, hs, hrows, hleft | ⟨captured, hcapture, hleft⟩⟩
  · rw [hleft, hrows]
    exact ⟨hkeyless, rfl, .kept hkept .nil⟩
  · rw [hleft, hrows]
    exact ⟨hkeyless, rfl, .row ((Bound.bind_record hb (·.insertRow)).trans hs) (.inl hkept) .nil⟩
  · rw [hleft, hrows]
    refine ⟨(captureKey_keyless hcapture).trans hkeyless, captureKey_family hcapture, ?_⟩
    have hrow : (Write.insertRow captured.record).statement = .ok s :=
      (Bound.bind_record (Bound.bind_of_bind hb) (·.insertRow)).trans
        ((captureKey_insertRow hcapture).trans hs)
    exact .row hrow (.inr (takes_of_captureKey (hkeeps.fields _) hcapture)) .nil

/-! ## All records of a family -/

mutual

/-- Inserting the records that a content holds leaves their families numbered, and changes nothing
but generated keys. -/
theorem insertHeld_leaves {t : ColumnType n} : (cell : Cell c t) →
    (insertHeld cell : Action d (Attempt (Cell c t) Unit)).Leaves fun after journal =>
      after.keyless = cell.keyless ∧ Numbered cell.family (answeredRows journal) after.family
  | .bool _ | .integer _ _ | .float _ | .double _ | .text _ | .dateTime _ | .raw _ | .absent =>
      .pure ⟨rfl, .nil⟩
  | .entity (k := k) columns => by
      rw [insertHeld]
      cases hbind : columns.bind with
      | error e => exact .pure ⟨rfl, .refl _⟩
      | ok b =>
          obtain ⟨rfl, -⟩ := Columns.bind_eq_ok_iff.1 hbind
          refine .bind (insertOwned_leaves b.columns) ?_
          rintro owned result journal ⟨hkeeps, hnumbered⟩
          rw [Cell.keyless, EntityModel.descriptors_of_describe b.described]
          cases result with
          | error e =>
              have hkept : Record.Keeps ⟨k, b.columns⟩ ⟨k, owned⟩ := ⟨rfl, hkeeps.fields _⟩
              refine .pure ⟨?_, ?_⟩
              · rw [Cell.keyless, EntityModel.descriptors_of_describe b.described,
                  hkeeps.keyless_eq _ b.descriptors_length]
              · rw [List.append_nil, ← List.append_nil (answeredRows _)]
                exact hnumbered.append (.kept hkept .nil)
          | ok u =>
              refine .wrap fun w => ?_
              obtain ⟨hkeyless, hfamily, hself⟩ := insertSelf_numbered
                (b := { b with columns := owned }) (Bound.bind_of_bind hbind) hkeeps w
              rw [Cell.keyless, EntityModel.descriptors_of_describe b.described, Cell.family,
                Cell.family, hfamily, answeredRows_append]
              exact ⟨congrArg Cell.entity hkeyless, hnumbered.append hself⟩
  | .present inner => by
      rw [insertHeld]
      refine .wrap fun w => ?_
      obtain ⟨hkeyless, hnumbered⟩ := insertHeld_leaves inner w
      exact ⟨congrArg Cell.present hkeyless, hnumbered⟩
  | .boxed inner => by
      rw [insertHeld]
      refine .wrap fun w => ?_
      obtain ⟨hkeyless, hnumbered⟩ := insertHeld_leaves inner w
      exact ⟨congrArg Cell.boxed hkeyless, hnumbered⟩
  | .list items => by
      rw [insertHeld]
      refine .wrap fun w => ?_
      obtain ⟨hkeyless, hnumbered⟩ := insertItems_leaves items w
      exact ⟨congrArg Cell.list hkeyless, hnumbered⟩

theorem insertItems_leaves {t : ColumnType n} : (items : Items c t) →
    (insertItems items : Action d (Attempt (Items c t) Unit)).Leaves fun after journal =>
      after.keyless = items.keyless ∧ Numbered items.family (answeredRows journal) after.family
  | .nil => .pure ⟨rfl, .nil⟩
  | .cons item items => by
      rw [insertItems]
      refine .bind (insertHeld_leaves item) ?_
      rintro first result journal ⟨hfirst, hnumbered⟩
      cases result with
      | error e =>
          refine .pure ⟨by rw [Items.keyless, Items.keyless, hfirst], ?_⟩
          rw [List.append_nil]
          exact hnumbered.stop items.family
      | ok u =>
          refine .wrap fun w => ?_
          obtain ⟨hrest, hmore⟩ := insertItems_leaves items w
          rw [answeredRows_append, Items.keyless, Items.keyless, hfirst, hrest]
          exact ⟨rfl, hnumbered.append hmore⟩

theorem insertOwned_leaves {ts : List (ColumnType n)} : (columns : Columns c ts) →
    (insertOwned columns : Action d (Attempt (Columns c ts) Unit)).Leaves fun after journal =>
      columns.Keeps after ∧ Numbered columns.family (answeredRows journal) after.family
  | .nil => .pure ⟨.refl _, .nil⟩
  | .cons (t := t) cell cells => by
      rw [insertOwned]
      split
      · rename_i howned
        have hdirect := t.isOwnedRelation_classify.symm.trans howned
        refine .bind (insertHeld_leaves cell) ?_
        rintro first result journal ⟨hfirst, hnumbered⟩
        rw [Columns.family, if_pos howned]
        cases result with
        | error e =>
            refine .pure ⟨.cons (.inr ⟨hdirect, hfirst⟩) (.refl cells), ?_⟩
            rw [List.append_nil, Columns.family, if_pos howned]
            exact hnumbered.stop cells.family
        | ok u =>
            refine .wrap fun w => ?_
            obtain ⟨hkeeps, hmore⟩ := insertOwned_leaves cells w
            rw [answeredRows_append, Columns.family, if_pos howned]
            exact ⟨.cons (.inr ⟨hdirect, hfirst⟩) hkeeps, hnumbered.append hmore⟩
      · rename_i howned
        refine .wrap fun w => ?_
        obtain ⟨hkeeps, hmore⟩ := insertOwned_leaves cells w
        rw [Columns.family, Columns.family, if_neg howned]
        exact ⟨.cons (.inl rfl) hkeeps, hmore⟩

end

/-- Inserting a record leaves its family numbered. -/
theorem insertRecord_leaves (r : Record c) :
    (insertRecord r : Action d (Attempt (Record c) Unit)).Leaves fun after journal =>
      after.keyless = r.keyless ∧ Numbered r.family (answeredRows journal) after.family := by
  intro w
  have hheld := insertHeld_leaves (d := d) (Cell.entity r.columns : Cell c (.entity r.model)) w
  rw [insertRecord, Action.run_bind]
  generalize (insertHeld (Cell.entity r.columns : Cell c (.entity r.model)) : Action d _).run w
    = outcome at hheld ⊢
  obtain ⟨⟨cell, result⟩, w', journal⟩ := outcome
  cases cell with
  | entity columns =>
      obtain ⟨hkeyless, hnumbered⟩ := hheld
      rw [Cell.keyless, Cell.keyless] at hkeyless
      refine ⟨congrArg (Record.mk r.model) (Cell.entity.inj hkeyless), ?_⟩
      show Numbered _ (answeredRows (journal ++ [])) _
      rw [List.append_nil]
      exact hnumbered

end Session

/-! ## Operations -/

namespace Staged

variable {α : Type} {x : Staged d β α} {f : α → Staged d β γ}
  {Q : β → List (Statement × UInt64) → β → Prop}

/-- Whether a step of an operation leaves its storage as it should, whether it fails or not, in view
of the rows for whose insertion ids were answered. -/
def Leaves (x : Staged d β α) (Q : β → List (Statement × UInt64) → β → Prop) : Prop :=
  ∀ p w, Q p.storage (answeredRows (x.exec p w).journal) (x.exec p w).value.2.storage

/-- Whether a step leaves its storage alone and inserts no rows. -/
def Idle (x : Staged d β α) : Prop := x.Leaves fun before rows after => after = before ∧ rows = []

/-- Steps that leave the storage alone may come first. -/
theorem Leaves.bind (hx : x.Idle) (hQ : ∀ storage, Q storage [] storage)
    (hf : ∀ a, (f a).Leaves Q) : (x >>= f).Leaves Q := by
  intro p w
  obtain ⟨hstorage, hrows⟩ := hx p w
  rw [exec_bind]
  split
  · rename_i a _
    have hlater := hf a (x.exec p w).value.2 (x.exec p w).world
    rw [hstorage] at hlater
    rw [answeredRows_append, hrows]
    exact hlater
  · rw [hrows, hstorage]
    exact hQ _

theorem Idle.ofExcept (result : Except MapperError α) : (ofExcept result : Staged d β α).Idle :=
  fun _ _ => ⟨rfl, rfl⟩

theorem Idle.advance (target : Stage) : (advance target : Staged d β Unit).Idle :=
  fun _ _ => ⟨rfl, rfl⟩

theorem Idle.task {t : Task d α} (h : t.Journals fun entry => entry.answeredRow? = none) :
    (task t : Staged d β α).Idle := by
  intro p w
  rw [exec_task]
  exact ⟨rfl, answeredRows_eq_nil (h w)⟩

/-- A task never changes the storage. -/
theorem Leaves.task (t : Task d α) : (task t : Staged d β α).Leaves fun before _ after =>
    after = before := by
  intro p w
  rw [exec_task]

theorem Leaves.attempt {g : β → Action d (Attempt β Unit)}
    (hg : ∀ storage, (g storage).Leaves fun after journal =>
      Q storage (answeredRows journal) after) : (attempt g : Staged d β Unit).Leaves Q := by
  intro p w
  rw [exec_attempt]
  exact hg p.storage w

/-- An operation leaves what its steps leave. -/
theorem Leaves.operate {operation : Operation} {entity : String} {storage : β} (hx : x.Leaves Q)
    (w : World σ) :
    Q storage (answeredRows ((operate operation entity storage x).run w).journal)
      ((operate operation entity storage x).run w).value.storage := by
  have hleft := hx ⟨operation, entity, .introspecting, storage⟩ w
  rw [run_operate]
  obtain ⟨events, hevents⟩ := closing_reports operation entity
    (x.exec ⟨operation, entity, .introspecting, storage⟩ w).value
  have hreports : answeredRows (reports events) = [] := by
    refine answeredRows_eq_nil fun entry hentry => ?_
    obtain ⟨event, -, rfl⟩ := List.mem_map.1 hentry
    rfl
  dsimp only
  rw [hevents, answeredRows, List.filterMap_cons_none rfl, ← answeredRows, answeredRows_append,
    hreports, List.append_nil]
  exact hleft

end Staged

namespace Session

/-- Ensuring tables inserts no rows. -/
theorem ensureSchema_rows (ms : Models n) (k : Fin n) (deps : List (Fin n)) :
    (ensureSchema ms k deps : Task d Unit).Journals fun entry => entry.answeredRow? = none := by
  intro w entry hentry
  have hwork := ensureSchema_journals k deps w entry hentry
  cases entry with
  | event e | cached cache => rfl
  | call call answer =>
      cases call with
      | insert s => exact hwork.elim
      | _ => rfl

/-- An operation that ensures the tables of a record leaves the record to the rest of its work. -/
theorem prepared_leaves {operation : Operation} {r : Record c}
    {work : Bound c r.model → Staged d (Record c) Unit}
    {Q : Record c → List (Statement × UInt64) → Record c → Prop} (hQ : ∀ r, Q r [] r)
    (hwork : ∀ b, (work b).Leaves Q) (w : World σ) :
    Q r (answeredRows ((prepared operation r work).run w).journal)
      ((prepared operation r work).run w).value.storage := by
  refine Staged.Leaves.operate (.bind (.ofExcept _) hQ fun (b, deps) => ?_) w
  refine .bind (.advance _) hQ fun _ => .bind (.task (ensureSchema_rows _ _ deps)) hQ fun _ => ?_
  exact .bind (.advance _) hQ fun _ => hwork b

/-- Whatever the driver answers and whether they succeed or fail at any point, updates and deletions
leave the record with everything it holds as it was, and an insertion leaves it as it was but for
generated keys. These are keys of members of its family, which holds no record under an option or
a box: each member whose row was inserted may have taken the id that was answered for this row, and
every other field of every member keeps its content, unless it is a field of records that are
members themselves. -/
theorem writes_frame (r : Record c) (w : World σ) :
    ((update (d := d) r).run w).value.storage = r ∧
      ((delete (d := d) r).run w).value.storage = r ∧
      ((insert (d := d) r).run w).value.storage.keyless = r.keyless ∧
      Numbered r.family (answeredRows ((insert (d := d) r).run w).journal)
        ((insert (d := d) r).run w).value.storage.family := by
  refine ⟨?_, ?_, ?_⟩
  · rw [update_eq]
    exact prepared_leaves (Q := fun before _ after => after = before) (fun _ => rfl)
      (fun b => .task _) w
  · refine Staged.Leaves.operate (Q := fun before _ after => after = before)
      (.bind (.ofExcept _) (fun _ => rfl) fun (b, _) => ?_) w
    exact .bind (.advance _) (fun _ => rfl) fun _ => .task _
  · rw [insert_eq]
    exact prepared_leaves (Q := fun before rows after => after.keyless = before.keyless ∧
      Numbered before.family rows after.family) (fun r => ⟨rfl, .refl _⟩)
      (fun b => .attempt insertRecord_leaves) w

end Session

end EntityMapper
