import EntityMapper.Proofs.Session.Loading
import EntityMapper.Proofs.Session.RoundTrip
import EntityMapper.Proofs.Session.Stages

/-!
# What a failed query leaves

A query reads the whole row of its record before it changes anything, so a record is as it was where
the query fails before it hydrates. From then on the record is changed in place: its columns are
assigned one by one, then its relation fields are loaded one by one, and so are the records that a
field holds. Whatever has been done when one of these steps fails stays done, and the rest is as it
was (`Session.query_failure_leaves`).

Lists that are gone through up to a failure are related by `Halted`.
-/

namespace EntityMapper

open Sql

variable {n : Nat} {c : Catalog n} {k : Fin n} {σ α β : Type} {d : Driver σ}

/-! ## Lists that are gone through up to a failure -/

/-- Whether a list comes from another one that was gone through, item by item, up to one at which
this was stopped: what came before it is done, and what comes after it is untouched. -/
inductive Halted (Done Stopped Untouched : α → β → Prop) : List α → List β → Prop
  | stop {x : α} {y : β} {xs : List α} {ys : List β} (h : Stopped x y)
      (hrest : List.Forall₂ Untouched xs ys) : Halted Done Stopped Untouched (x :: xs) (y :: ys)
  | done {x : α} {y : β} {xs : List α} {ys : List β} (h : Done x y)
      (hrest : Halted Done Stopped Untouched xs ys) :
      Halted Done Stopped Untouched (x :: xs) (y :: ys)

namespace Halted

variable {Done Stopped Untouched : α → β → Prop} {xs xs' : List α} {ys ys' : List β}

/-- Items that are done stand before those at which it was stopped. -/
theorem after (h : List.Forall₂ Done xs ys) (h' : Halted Done Stopped Untouched xs' ys') :
    Halted Done Stopped Untouched (xs ++ xs') (ys ++ ys') := by
  induction h with
  | nil => exact h'
  | cons h _ ih => exact .done h ih

/-- Untouched items stand after those at which it was stopped. -/
theorem before (h : Halted Done Stopped Untouched xs ys) (h' : List.Forall₂ Untouched xs' ys') :
    Halted Done Stopped Untouched (xs ++ xs') (ys ++ ys') := by
  induction h with
  | stop h hrest => exact .stop h (List.rel_append hrest h')
  | done h _ ih => exact .done h ih

end Halted

/-! ## What is left of a record -/

/-- Whether a record is another one with the values of a row assigned to its stored columns, one
after the other, up to a value that does not fit. -/
structure Bound.HydratedUpTo (row : List Value) (b b' : Bound c k) : Prop where
  length : row.length = b.stored.length
  stored : Halted (fun slot g => slot.1.Becomes slot.2 g)
    (fun slot g => g = slot.1 ∧ ∃ e, slot.1.cell.assign slot.2 = .error e)
    (fun slot g => g = slot.1) (b.stored.zip row) b'.stored
  relations : b'.relations = b.relations

/-- Whether a record is another one whose row could not be loaded: it is as it was, or hydrated up
to a value that does not fit. -/
inductive Record.RowStopped : Record c → Record c → Prop
  | kept (x : Record c) : RowStopped x x
  | hydrated {k : Fin n} {b b' : Bound c k} {row : List Value} (h : b.HydratedUpTo row b') :
      RowStopped b.record b'.record

/-- Whether records are others whose rows were loaded one after the other, up to one that could not
be. -/
abbrev Record.RowsStopped : List (Record c) → List (Record c) → Prop :=
  Halted (fun x y => ∃ made, x.RowLoaded y made) RowStopped fun x y => y = x

/-- Whether a relation field is another one that could not be loaded: it is as it was, or the linked
keys were assigned to it, and the rows of the records that it holds for them were loaded one after
the other, up to one that could not be. -/
inductive Field.LoadStopped (f : Field c) : Field c → Prop
  | kept : LoadStopped f f
  | linked {keys : List Value} {assigned cell : Cell c f.type}
      (hassign : f.cell.assign (Session.linkedValue f.descriptor.type.kind keys) = .ok assigned)
      (hrecords : Record.RowsStopped assigned.records cell.records) : LoadStopped f { f with cell }

/-- Whether a record is another one after its relation fields are loaded, one after the other, up to
one that could not be. -/
structure Bound.LoadedUpTo (b b' : Bound c k) : Prop where
  stored : b'.stored = b.stored
  relations : Halted (fun f g => ∃ made, b.RelationLoaded f (g, made)) Field.LoadStopped
    (fun f g => g = f) b.relations b'.relations

/-- Whether a record is another one that could not be loaded from its row: it is hydrated up to a
value that does not fit, or hydrated and loaded up to a relation field that could not be. -/
inductive Bound.LoadStopped (row : List Value) (b : Bound c k) : Bound c k → Prop
  | hydrated {b' : Bound c k} (h : b.HydratedUpTo row b') : LoadStopped row b b'
  | loaded {hydrated b' : Bound c k} (hrow : b.Hydrates row hydrated)
      (h : hydrated.LoadedUpTo b') : LoadStopped row b b'

/-- Whether a record is another one that could not be loaded, but for its row, which was selected
with its key. -/
inductive Record.PartlyLoaded : Record c → Record c → Selection → Prop
  | mk {k : Fin n} {b b' : Bound c k} {s : Statement} {row : List Value}
      (hb : b.columns.bind = .ok b) (hs : b.selectRow = .ok s) (hstopped : b.LoadStopped row b') :
      PartlyLoaded b.record b'.record ⟨s, [row]⟩

/-! ## Attempts that fail -/

namespace Action

/-- Whether an attempt that fails leaves what it should. -/
def Abandons (action : Action d (Attempt β Unit)) (w : World σ) (Q : β → Prop) : Prop :=
  ∀ e, (action.run w).value.result = .error e → Q (action.run w).value.storage

variable {δ : Type} {w : World σ} {action : Action d (Attempt β Unit)} {P : β → List Entry → Prop}
  {Q : β → Prop} {R : δ → Prop}

theorem Abandons.reached {x : δ} : (pure ⟨x, .ok ()⟩ : Action d (Attempt δ Unit)).Abandons w R :=
  fun _ h => nomatch h

theorem Abandons.ended {x : δ} {result : Except MapperError Unit} (h : R x) :
    (pure ⟨x, result⟩ : Action d (Attempt δ Unit)).Abandons w R :=
  fun _ _ => h

/-- An attempt on a part of some storage. -/
theorem Abandons.wrap {wrap : β → δ} (h : action.Abandons w fun x => R (wrap x)) :
    Abandons (d := d) (do
      let left ← action
      return ⟨wrap left.storage, left.result⟩) w R :=
  fun e he => h e he

/-- What follows an attempt fails where it did, or later. -/
theorem Abandons.bind {next : Attempt β Unit → Action d (Attempt δ Unit)}
    (hfirst : action.Attains w P) (habandons : action.Abandons w Q)
    (hfailed : ∀ x e w', Q x → (next ⟨x, .error e⟩).Abandons w' R)
    (hnext : ∀ x w' journal, P x journal → (next ⟨x, .ok ()⟩).Abandons w' R) :
    (action >>= next).Abandons w R := by
  intro e he
  rw [run_bind] at he ⊢
  unfold Attains at hfirst
  unfold Abandons at habandons
  generalize action.run w = outcome at hfirst habandons he ⊢
  obtain ⟨⟨x, result⟩, w', journal⟩ := outcome
  cases result with
  | error e' => exact hfailed x e' w' (habandons e' rfl) e he
  | ok => exact hnext x w' journal (hfirst rfl) e he

/-- What follows a task fails where it did, or later. -/
theorem Abandons.after {t : Task d α} {next : Except MapperError α → Action d (Attempt δ Unit)}
    {S : α → World σ → List Entry → Prop} (ht : t.Leads w S)
    (hfailed : ∀ e w', (next (.error e)).Abandons w' R)
    (hnext : ∀ a w' journal, S a w' journal → (next (.ok a)).Abandons w' R) :
    (t.run >>= next).Abandons w R := by
  intro e he
  have hexec : t.run.run w = t.exec w := rfl
  rw [run_bind, hexec] at he ⊢
  cases hvalue : (t.exec w).value with
  | error e' =>
      rw [hvalue] at he
      exact hfailed e' _ e he
  | ok a =>
      rw [hvalue] at he
      exact hnext a _ _ (ht a hvalue) e he

end Action

/-! ## Loading that fails -/

namespace Session

variable {b : Bound c k} {row : List Value} {w : World σ}

/-- A row that does not fit is assigned to the stored columns, in order, up to the first value that
does not, and leaves relations alone. -/
theorem hydrate_halts {ts : List (ColumnType n)} (columns : Columns c ts)
    {ds : List (Descriptor n)} (htypes : ds.map (·.type) = ts.map (·.classify))
    (hlength : row.length = (columns.stored ds).length) {e : MapperError}
    (h : (hydrate columns row).result = .error e) :
    Halted (fun slot g => slot.1.Becomes slot.2 g)
        (fun slot g => g = slot.1 ∧ ∃ e, slot.1.cell.assign slot.2 = .error e)
        (fun slot g => g = slot.1) ((columns.stored ds).zip row)
        ((hydrate columns row).storage.stored ds) ∧
      (hydrate columns row).storage.relations ds = columns.relations ds := by
  induction ts generalizing ds row with
  | nil =>
      cases columns
      cases h
  | cons t ts ih =>
      cases columns with
      | cons cell cells =>
          cases ds with
          | nil => cases htypes
          | cons descriptor ds =>
              obtain ⟨htype, htypes⟩ := List.cons.inj htypes
              have htype : descriptor.type = t.classify := htype
              cases hrelation : t.classify.isRelation with
              | true =>
                  have hfield : descriptor.type.isRelation = true := by rw [htype, hrelation]
                  rw [Columns.stored_cons_of_relation hfield] at hlength ⊢
                  rw [hydrate_relation hrelation] at h ⊢
                  obtain ⟨hstored, hrelations⟩ := ih cells htypes hlength h
                  rw [Columns.stored_cons_of_relation hfield,
                    Columns.relations_cons_of_relation hfield,
                    Columns.relations_cons_of_relation hfield, hrelations]
                  exact ⟨hstored, rfl⟩
              | false =>
                  have hfield : descriptor.type.isRelation = false := by rw [htype, hrelation]
                  rw [Columns.stored_cons_of_column hfield] at hlength ⊢
                  cases row with
                  | nil => cases hlength
                  | cons v row =>
                      have hlength := Nat.succ.inj hlength
                      cases hassign : cell.assign v with
                      | error e' =>
                          rw [hydrate_failed hrelation hassign,
                            Columns.stored_cons_of_column hfield]
                          refine ⟨.stop ⟨rfl, e', hassign⟩ ?_, rfl⟩
                          -- The columns behind this one are those that were bound.
                          have hfst : ((cells.stored ds).zip row).map Prod.fst = cells.stored ds :=
                            List.map_fst_zip (by omega)
                          conv => right; rw [← hfst]
                          exact List.forall₂_map_right_iff.2 (List.forall₂_same.2 fun _ _ => rfl)
                      | ok assigned =>
                          rw [hydrate_stored hrelation hassign] at h ⊢
                          obtain ⟨hstored, hrelations⟩ := ih cells htypes hlength h
                          rw [Columns.stored_cons_of_column hfield,
                            Columns.relations_cons_of_column hfield,
                            Columns.relations_cons_of_column hfield]
                          exact ⟨.done ⟨assigned, hassign, rfl⟩ hstored, hrelations⟩

/-- A record whose row could not be loaded is as it was, or hydrated up to a value that does not
fit. -/
theorem loadRow_abandons (columns : Columns c (c.model k).columnTypes) (w : World σ) :
    (loadRow columns : Action d (Attempt (Columns c (c.model k).columnTypes) Unit)).Abandons w
      fun after => Record.RowStopped ⟨k, columns⟩ ⟨k, after⟩ := by
  have hfetch : (do fetchRow (← Task.ofExcept columns.bind) : Task d (List Value)).Leads w
      fun row _ _ => ∃ b : Bound c k, columns.bind = .ok b ∧ row.length = b.stored.length :=
    .ofExcept_bind fun b hb row hrow =>
      let ⟨_, _, hlength, _⟩ := fetchRow_leads row hrow
      ⟨b, hb, hlength⟩
  rw [loadRow]
  refine .after hfetch (fun e w' => .ended (.kept _)) ?_
  rintro row w' journal ⟨b, hb, hlength⟩ e he
  obtain ⟨rfl, -⟩ := Columns.bind_eq_ok_iff.1 hb
  obtain ⟨hstored, hrelations⟩ := hydrate_halts b.columns b.types_eq hlength he
  have hydrated : b.HydratedUpTo row { b with columns := (hydrate b.columns row).storage } :=
    ⟨hlength, hstored, hrelations⟩
  exact .hydrated hydrated

mutual

/-- Loading the records that a content holds stops at one of them. -/
theorem loadHeld_abandons {t : ColumnType n} : (cell : Cell c t) → (w : World σ) →
    (loadHeld cell : Action d (Attempt (Cell c t) Unit)).Abandons w fun after =>
      Record.RowsStopped cell.records after.records
  | .bool _, _ | .integer _ _, _ | .float _, _ | .double _, _ | .text _, _ | .dateTime _, _
  | .raw _, _ | .absent, _ => .reached
  | .entity columns, w => by
      rw [loadHeld]
      exact .wrap fun e he => .stop (loadRow_abandons columns w e he) .nil
  | .present inner, w => by
      rw [loadHeld]
      exact .wrap (loadHeld_abandons inner w)
  | .boxed inner, w => by
      rw [loadHeld]
      exact .wrap (loadHeld_abandons inner w)
  | .list items, w => by
      rw [loadHeld]
      exact .wrap (loadItems_abandons items w)

theorem loadItems_abandons {t : ColumnType n} : (items : Items c t) → (w : World σ) →
    (loadItems items : Action d (Attempt (Items c t) Unit)).Abandons w fun after =>
      Record.RowsStopped items.records after.records
  | .nil, _ => .reached
  | .cons item items, w => by
      rw [loadItems]
      refine .bind (loadHeld_attains item w) (loadHeld_abandons item w) ?_ ?_
      · intro first e w' hstopped
        exact .ended (hstopped.before (List.forall₂_same.2 fun _ _ => rfl))
      · rintro first w' journal ⟨-, loads, hloads, hfirst, -⟩
        refine .wrap fun e he => ?_
        show Record.RowsStopped (item.records ++ items.records) (first.records ++ Items.records _)
        rw [hfirst]
        refine .after ?_ (loadItems_abandons items w' e he)
        exact List.forall₂_map_right_iff.2 (hloads.imp fun _ _ h => ⟨_, h⟩)

end

/-- A relation field that could not be loaded is as it was, or some of the records that it holds for
the linked keys are loaded. -/
theorem loadRelation_abandons {descriptor : Descriptor n} {t : ColumnType n} (cell : Cell c t)
    (w : World σ) :
    (loadRelation b descriptor cell : Action d (Attempt (Cell c t) Unit)).Abandons w fun after =>
      Field.LoadStopped (⟨descriptor, t, cell⟩ : Field c) ⟨descriptor, t, after⟩ := by
  rw [loadRelation]
  refine .after fetchKeys_leads (fun e w' => .ended .kept) fun keys w' journal _ => ?_
  dsimp only
  split
  · exact .reached
  · split
    · exact .ended .kept
    · rename_i assigned hassign
      exact fun e he => .linked (f := ⟨descriptor, t, cell⟩) hassign
        (loadHeld_abandons assigned w' e he)

/-- Loading the relation fields of a record stops at one of them, and leaves its stored columns
alone. -/
theorem loadRelations_abandons {ts : List (ColumnType n)} (columns : Columns c ts)
    {ds : List (Descriptor n)} (htypes : ds.map (·.type) = ts.map (·.classify)) (w : World σ) :
    (loadRelations b columns ds : Action d (Attempt (Columns c ts) Unit)).Abandons w
      fun after => after.stored ds = columns.stored ds ∧
        Halted (fun f g => ∃ made, b.RelationLoaded f (g, made)) Field.LoadStopped
          (fun f g => g = f) (columns.relations ds) (after.relations ds) := by
  induction ts generalizing ds w with
  | nil =>
      cases columns
      cases ds with
      | nil => exact .reached
      | cons descriptor ds => cases htypes
  | cons t ts ih =>
      cases columns with
      | cons cell cells =>
          cases ds with
          | nil => cases htypes
          | cons descriptor ds =>
              obtain ⟨htype, htypes⟩ := List.cons.inj htypes
              have htype : descriptor.type = t.classify := htype
              rw [loadRelations]
              cases hrelation : descriptor.type.isRelation with
              | true =>
                  rw [if_pos rfl]
                  refine .bind (loadRelation_attains cell htype hrelation)
                    (loadRelation_abandons cell w) ?_ ?_
                  · intro first e w' hstopped
                    refine .ended ?_
                    rw [Columns.stored_cons_of_relation hrelation,
                      Columns.stored_cons_of_relation hrelation,
                      Columns.relations_cons_of_relation hrelation,
                      Columns.relations_cons_of_relation hrelation]
                    exact ⟨rfl, .stop hstopped (List.forall₂_same.2 fun _ _ => rfl)⟩
                  · rintro first w' journal ⟨made, hloaded, -⟩
                    refine .wrap fun e he => ?_
                    obtain ⟨hstored, hrelations⟩ := ih cells htypes w' e he
                    rw [Columns.stored_cons_of_relation hrelation,
                      Columns.stored_cons_of_relation hrelation,
                      Columns.relations_cons_of_relation hrelation,
                      Columns.relations_cons_of_relation hrelation]
                    exact ⟨hstored, .done ⟨made, hloaded⟩ hrelations⟩
              | false =>
                  rw [if_neg Bool.false_ne_true]
                  refine .bind (P := fun x _ => x = cell) (.pure rfl)
                    (.reached (R := fun _ => False)) (fun x e w' h => h.elim) ?_
                  rintro _ w' _ rfl
                  refine .wrap fun e he => ?_
                  obtain ⟨hstored, hrelations⟩ := ih cells htypes w' e he
                  rw [Columns.stored_cons_of_column hrelation,
                    Columns.stored_cons_of_column hrelation,
                    Columns.relations_cons_of_column hrelation,
                    Columns.relations_cons_of_column hrelation, hstored]
                  exact ⟨rfl, hrelations⟩

/-- A record that could not be loaded from its row is loaded as far as that went. -/
theorem loadRecord_abandons (hlength : row.length = b.stored.length) (w : World σ) :
    (loadRecord b row : Action d (Attempt (Columns c (c.model k).columnTypes) Unit)).Abandons w
      fun after => ∃ b' : Bound c k, b'.columns = after ∧ b.LoadStopped row b' := by
  rw [loadRecord]
  cases hrow : (hydrate b.columns row).result with
  | error e =>
      obtain ⟨hstored, hrelations⟩ := hydrate_halts b.columns b.types_eq hlength hrow
      exact .ended ⟨{ b with columns := _ }, rfl, .hydrated ⟨hlength, hstored, hrelations⟩⟩
  | ok =>
      let hydrated : Bound c k := { b with columns := (hydrate b.columns row).storage }
      intro e he
      obtain ⟨hstored, hrelations⟩ :=
        loadRelations_abandons (b := hydrated) hydrated.columns b.types_eq w e he
      exact ⟨{ b with columns := _ }, rfl,
        .loaded (hydrate_hydrates hlength hrow) ⟨hstored, hrelations⟩⟩

end Session

/-! ## Queries that fail -/

/-- Whether a journal tells that a query has begun to hydrate its record. -/
def Hydrating (journal : List Entry) : Prop :=
  ∃ entity source, Entry.event (.advanced .query entity source .hydrating) ∈ journal

theorem hydrating_append {journal later : List Entry} :
    Hydrating (journal ++ later) ↔ Hydrating journal ∨ Hydrating later := by
  simp only [Hydrating, List.mem_append]
  constructor
  · rintro ⟨entity, source, h | h⟩
    exacts [.inl ⟨entity, source, h⟩, .inr ⟨entity, source, h⟩]
  · rintro (⟨entity, source, h⟩ | ⟨entity, source, h⟩)
    exacts [⟨entity, source, .inl h⟩, ⟨entity, source, .inr h⟩]

theorem not_hydrating_reports (events : List Event)
    (h : ∀ entity source, .advanced .query entity source .hydrating ∉ events) :
    ¬ Hydrating (reports events) := by
  simpa [Hydrating] using h

/-- What is done in a stage tells of no other. -/
theorem not_hydrating_of_fits {journal : List Entry} {stage : Stage}
    (h : ∀ entry ∈ journal, entry.Fits stage) : ¬ Hydrating journal :=
  fun ⟨_, _, hmem⟩ => h _ hmem trivial

/-- An operation does not end by hydrating. -/
theorem not_hydrating_closing (operation : Operation) (entity : String)
    (left : Except MapperError α × Progress β) :
    ¬ Hydrating (Staged.closing operation entity left) := by
  rintro ⟨_, _, hmem⟩
  rw [Staged.closing] at hmem
  split at hmem <;> simp at hmem

/-- Whether a part of a journal makes a selection. -/
def Selected (made : Selection) (journal : List Entry) : Prop :=
  ∃ part, part <:+: journal ∧ Selects [made] part

namespace Session

/-- Ensuring tables does not hydrate. -/
theorem not_hydrating_ensureSchema {ms : Models n} {deps : List (Fin n)}
    {result : Except MapperError Unit} {w w' : World σ} {journal : List Entry}
    (hdeps : ms.dependencies k = .ok deps)
    (h : (ensureSchema (d := d) ms k deps).exec w = ⟨result, w', journal⟩) :
    ¬ Hydrating journal := by
  have hfits := ensureSchema_fits (d := d) hdeps w
  rw [h] at hfits
  exact not_hydrating_of_fits hfits

/-- What is left of a query once the tables are ensured leaves the record as it was, or partly
loaded from a row that it selected. -/
theorem load_abandons {r : Record c} {b : Bound c r.model} (hbind : r.columns.bind = .ok b)
    {entity : String} {w : World σ} {e : MapperError}
    (h : ((load r b : Staged d _ _).exec ⟨.query, entity, .executing, r⟩ w).value.1 = .error e) :
    let left := (load r b : Staged d _ _).exec ⟨.query, entity, .executing, r⟩ w
    (¬ Hydrating left.journal ∧ left.value.2.storage = r) ∨
      Hydrating left.journal ∧ ∃ made, Selected made left.journal ∧
        r.PartlyLoaded left.value.2.storage made := by
  obtain ⟨hcolumns, -⟩ := Columns.bind_eq_ok_iff.1 hbind
  have hrecord : b.record = r := congrArg (Record.mk r.model) hcolumns
  rw [← hcolumns] at hbind
  have hfits : (fetchRow b : Task d (List Value)).Journals (Entry.Fits .executing) :=
    (fetchRow_assembled .any (.inl rfl)).lines fun _ h => h.1.fits
  have hfetch : ∀ row, ((fetchRow (d := d) b).exec w).value = .ok row → _ := fetchRow_leads
  have hjournal := hfits w
  dsimp only
  rw [load, Staged.exec_bind, Staged.exec_task] at h ⊢
  generalize (fetchRow (d := d) b).exec w = fetched at h hfetch hjournal ⊢
  obtain ⟨value, w', journal⟩ := fetched
  cases value with
  | error e' => exact .inl ⟨not_hydrating_of_fits hjournal, rfl⟩
  | ok row =>
      obtain ⟨s, hs, hlength, hselects⟩ := hfetch row rfl
      dsimp only at h ⊢
      rw [Staged.exec_bind, Staged.exec_advance] at h ⊢
      dsimp only at h ⊢
      rw [Staged.exec_attempt] at h ⊢
      have hload : Action.Abandons (d := d) (do
          let left ← loadRecord b row
          return ⟨⟨r.model, left.storage⟩, left.result⟩) w' (r.PartlyLoaded · ⟨s, [row]⟩) :=
        .wrap fun e' he' => by
          obtain ⟨b', hb', hstopped⟩ := loadRecord_abandons hlength w' e' he'
          have hleft := Record.PartlyLoaded.mk hbind hs hstopped
          rwa [hrecord, Bound.record, hb'] at hleft
      exact .inr ⟨⟨_, _, List.mem_append_right _ List.mem_cons_self⟩, ⟨s, [row]⟩,
        ⟨journal, (List.prefix_append ..).isInfix, hselects⟩, hload e h⟩

/-- A query that fails leaves the record as it was unless it began to hydrate it, and then leaves it
partly loaded from a row that it selected. -/
theorem query_failure_leaves (r : Record c) (w : World σ) {e : MapperError}
    (h : ((query (d := d) r).run w).value.result = .error e) :
    let left := (query (d := d) r).run w
    (¬ Hydrating left.journal ∧ left.value.storage = r) ∨
      Hydrating left.journal ∧ ∃ made, Selected made left.journal ∧
        r.PartlyLoaded left.value.storage made := by
  have hrun := prepared_run (d := d) .query r (load r) w
  rw [query_eq] at h ⊢
  dsimp only
  generalize (prepared (d := d) .query r (load r)).run w = outcome at h hrun ⊢
  have hbegan := not_hydrating_reports [.began .query (c.model r.model).name,
    .advanced .query (c.model r.model).name .introspecting .schemaEnsuring] (by simp)
  cases hrun with
  | refused hintrospect => exact .inl ⟨not_hydrating_reports _ (by simp), rfl⟩
  | @unensured deps e' w' journal hdeps hensure =>
      have hjournal := not_hydrating_ensureSchema hdeps hensure
      have hended := not_hydrating_reports [
        .failed .query (c.model r.model).name .schemaEnsuring e',
        .advanced .query (c.model r.model).name .schemaEnsuring .failed] (by simp)
      refine .inl ⟨?_, rfl⟩
      simp only [hydrating_append, hbegan, hjournal, hended, or_self, not_false_eq_true]
  | @worked b deps w' journal left hbind hdeps hensure hwork =>
      have hjournal := not_hydrating_ensureSchema hdeps hensure
      have hentered := not_hydrating_reports
        [.advanced .query (c.model r.model).name .schemaEnsuring .executing] (by simp)
      have hclosing := not_hydrating_closing .query (c.model r.model).name left.value
      subst hwork
      -- Whether the query hydrates is seen from what it does once the tables are ensured.
      simp only [hydrating_append, hbegan, hjournal, hentered, hclosing, false_or, or_false]
      rcases load_abandons hbind h with hkept | ⟨hhydrating, made, ⟨part, hpart, hselects⟩, hleft⟩
      · exact .inl hkept
      · refine .inr ⟨hhydrating, made, ⟨part, ?_, hselects⟩, hleft⟩
        exact hpart.trans ((List.infix_append' ..).trans
          ((List.suffix_append ..).trans (List.suffix_append ..)).isInfix)

/-- A record of which the row is fetched is left as loading it leaves it. -/
theorem load_value {r : Record c} {b : Bound c r.model} {p : Progress (Record c)} {w : World σ}
    (hfetch : ((fetchRow b : Task d (List Value)).exec w).value = .ok row)
    {left : Attempt (Columns c (c.model r.model).columnTypes) Unit}
    (hload : ((loadRecord (d := d) b row).run ((fetchRow (d := d) b).exec w).world).value = left) :
    ((load (d := d) r b).exec p w).value
      = (left.result, { p with stage := .hydrating, storage := ⟨r.model, left.storage⟩ }) := by
  subst hload
  rw [load, Staged.exec_bind, Staged.exec_task]
  dsimp only
  rw [hfetch]
  dsimp only
  rw [Staged.exec_bind, Staged.exec_advance]
  dsimp only
  rw [Staged.exec_attempt, Action.run_bind]
  rfl

/-! ## A day without a title -/

/-- The row of a day of which the title is missing. -/
def untitledRow : List Value :=
  [.uint 1, .nil, .nil, .text "-0043-03-15 11:30:05", .text "[]"]

theorem int64_holds_one : IntegerKind.int64.Holds 1 := by decide

/-- The asked day with the note of the row. -/
def untitledDay : Bound diary 0 := day 1 int64_holds_one .absent "" .epoch []

/-- The missing title does not fit. -/
theorem hydrate_untitled : hydrate askedDay.columns untitledRow
    = ⟨untitledDay.columns, .error (.value (.typeMismatch .text .nil))⟩ := by
  have hid : (.integer 1 (by decide) : Cell diary (.integer .int64)).assign (.uint 1)
      = .ok (.integer 1 (by decide)) := Catalog.build_integer _ rfl
  have hnote : (.present (.text "?") : Cell diary (.nullable .text)).assign .nil
      = .ok .absent := rfl
  have htitle : (.text "" : Cell diary .text).assign .nil
      = .error (.typeMismatch .text .nil) := by
    rw [Cell.assign_eq_build (t := .text) trivial, Catalog.build]
    rfl
  refine (hydrate_stored rfl hid).trans ?_
  rw [hydrate_stored rfl hnote, hydrate_failed rfl htitle]
  rfl

theorem query_untitled : ((query (d := Recorded.driver) askedDay.record).run
    ⟨Recorded.fresh.pushRows [untitledRow], diaryCache⟩).value
      = ⟨untitledDay.record, .error (.value (.typeMismatch .text .nil))⟩ := by
  have hselect : ∃ s, askedDay.selectRow = .ok s := ⟨.selectRow "diary_Day"
    ["id", "note", "title", "at", "tags"] ⟨"id", .integer 1⟩, by decide +kernel⟩
  obtain ⟨s, hselect⟩ := hselect
  have hfetch := fetchRow_succeeds (d := Recorded.driver) hselect
    ⟨Recorded.fresh.pushRows [untitledRow], diaryCache⟩
    (fetchRow_recorded askedDay rfl rfl rfl)
  obtain ⟨row, hvalue, rfl⟩ := hfetch
  have hload : ∀ w : World Recorded,
      ((loadRecord (d := Recorded.driver) askedDay untitledRow).run w).value
        = ⟨untitledDay.columns, .error (.value (.typeMismatch .text .nil))⟩ := by
    intro w
    rw [loadRecord, hydrate_untitled]
    rfl
  have hloaded := load_value (r := askedDay.record) (b := askedDay)
    (p := ⟨.query, (diary.model 0).name, .executing, askedDay.record⟩) hvalue (hload _)
  refine (operate_known (load askedDay.record) (fun _ _ => rfl)
    (Record.introspect_of_exact diary_isExact (bind_diary _))
    (ensureSchema_known_alone (Models.relations_of_exact diary_isExact askedDay.described)
      check_diaryCache)).trans ?_
  exact congrArg (fun left : Except MapperError Unit × Progress (Record diary) =>
    Attempt.mk left.2.storage left.1) hloaded

/-- The query of a day of which the title is missing leaves it partly loaded. -/
theorem untitledDay_left :
    let left := (query (d := Recorded.driver) askedDay.record).run
      ⟨Recorded.fresh.pushRows [untitledRow], diaryCache⟩
    left.value = ⟨untitledDay.record, .error (.value (.typeMismatch .text .nil))⟩ ∧
      ((¬ Hydrating left.journal ∧ left.value.storage = askedDay.record) ∨
        Hydrating left.journal ∧ ∃ made, Selected made left.journal ∧
          askedDay.record.PartlyLoaded left.value.storage made) := by
  intro left
  have hresult : left.value.result = .error (.value (.typeMismatch .text .nil)) := by
    rw [query_untitled]
  exact ⟨query_untitled, query_failure_leaves askedDay.record _ hresult⟩

/-- A failed query does not always leave the record as it was: the note of a day of which the title
is missing is gone. -/
theorem query_changes_untitled :
    ¬ ∀ {σ : Type} (d : Driver σ) {n : Nat} {c : Catalog n} (r : Record c) (w : World σ)
      (e : MapperError), ((query (d := d) r).run w).value.result = .error e →
        ((query (d := d) r).run w).value.storage = r := by
  intro h
  have hkept := h Recorded.driver askedDay.record
    ⟨Recorded.fresh.pushRows [untitledRow], diaryCache⟩ (.value (.typeMismatch .text .nil))
    (by rw [query_untitled])
  rw [query_untitled] at hkept
  have hvalues : untitledDay.columns.valueAt 1 = askedDay.columns.valueAt 1 :=
    congrArg (fun columns => columns.valueAt 1) (eq_of_heq (Record.mk.inj hkept).2)
  cases hvalues

end Session

end EntityMapper
