import EntityMapper.Proofs.Session.Refusals
import EntityMapper.Proofs.Session.Relinking
import EntityMapper.Proofs.Storage.Classification

/-!
# Which rows an update sets

Before a row is updated, its columns are looked through for one that has been assigned to, and the
statement leaves out the columns that are nil. Where the fields are of regular types the two agree
(`Bound.any_updatable`, `Bound.updateRow_eq`). So an update never fails for want of something to
set, and issues one statement for each record of the family that has something to set, each record
before those that it owns (`Session.update_sets`).
-/

namespace EntityMapper

open Sql

variable {n : Nat} {c : Catalog n} {k : Fin n} {σ α β : Type} {d : Driver σ}

/-! ## Something to set -/

namespace Record

/-- Whether some column of a record has a value, its primary key left aside. -/
def isSet (r : Record c) : Bool :=
  r.fields.any fun f => f.descriptor.isColumn && (!f.descriptor.tag.isKey && !f.value.isNil)

/-- Whether the fields of a record are of regular types. -/
def IsRegular (r : Record c) : Prop := ∀ t ∈ (c.model r.model).columnTypes, t.IsRegular

/-- The statement that updates the row of a record. -/
def updateRow (r : Record c) : Except MapperError Statement := do (← r.columns.bind).updateRow

end Record

namespace Bound

variable {b : Bound c k} {as : List Assignment}

/-- A record has something to set where some column that an update may set has a value. -/
theorem isSet_record (b : Bound c k) : b.record.isSet = b.updatable.any (!·.value.isNil) := by
  rw [Record.isSet, b.fields_record, updatable, List.any_filter, stored, List.any_filter]

/-- A field of a regular type has been assigned to exactly where it has a value. -/
theorem isNil_eq (h : b.record.IsRegular) {f : Field c} (hf : f ∈ b.fields) :
    f.isNil = f.value.isNil := by
  have htype : f.descriptor.type = f.type.classify := b.columns.field_type b.types_eq hf
  have hregular : f.type.IsRegular := h f.type (b.columns.type_mem hf)
  rw [Field.isNil, htype]
  cases hnil : f.value.isNil with
  | false => exact Bool.and_false _
  | true => rw [f.cell.isNullable_of_isNil hregular hnil, Bool.and_true]

/-- Some column that an update may set has been assigned to exactly where one has a value. -/
theorem any_updatable (h : b.record.IsRegular) :
    (b.updatable.any fun f => !f.isNil) = b.record.isSet := by
  rw [isSet_record, Bool.eq_iff_iff, List.any_eq_true, List.any_eq_true]
  refine exists_congr fun f => and_congr_right fun hf => ?_
  have hfield : f ∈ b.fields := (List.mem_filter.1 (List.mem_filter.1 hf).1).1
  rw [isNil_eq h hfield]

/-- Fields have an assignment exactly where one of them has a value. -/
theorem assignments_eq_nil_iff {fs : List (Field c)} (has : assignments fs = .ok as) :
    as = [] ↔ (fs.any fun f => !f.value.isNil) = false := by
  have hcolumns := congrArg List.length (assignments_columns has)
  rw [List.length_map, List.length_map] at hcolumns
  rw [← List.length_eq_zero_iff, hcolumns, List.length_eq_zero_iff, List.filter_eq_nil_iff,
    List.any_eq_false]

/-- Where the key and the values can be rendered, there is a statement for a record that has
something to set, and none for any other. -/
theorem updateRow_eq {clause : Assignment} (hclause : b.keyClause = .ok clause)
    (has : assignments b.updatable = .ok as) :
    b.updateRow = if b.record.isSet then .ok (.updateRow b.table as clause)
      else .error (.nothingToUpdate b.name) := by
  have hnil := assignments_eq_nil_iff has
  rw [← isSet_record] at hnil
  rw [updateRow, hclause, has]
  simp only [bind, Except.bind, List.isEmpty_iff, hnil]
  cases b.record.isSet <;> rfl

/-- Only values and keys can be wrong in the statement of a record that has something to set. -/
theorem updateRow_blameless_of_isSet (h : b.record.isSet = true) : Blameless b.updateRow := by
  refine b.updateRow_blameless fun as has hnil => ?_
  rw [isSet_record, (assignments_eq_nil_iff has).1 hnil] at h
  cases h

end Bound

/-! ## Steps that fail for other reasons -/

/-- Whether a step that fails does not fail for want of something to set. -/
def Busy (x : Except MapperError α) : Prop := ∀ entity, x ≠ .error (.nothingToUpdate entity)

namespace Busy

theorem ok (a : α) : Busy (.ok a) := fun _ => nofun

/-- Two steps in a row are busy where both are. -/
theorem bind {x : Except MapperError α} {f : α → Except MapperError β} (hx : Busy x)
    (hf : ∀ a, x = .ok a → Busy (f a)) : Busy (x >>= f) := by
  cases x with
  | ok a => exact hf a rfl
  | error e => exact fun entity h => hx entity (congrArg _ (Except.error.inj h))

/-- A step that blames no model is busy. -/
theorem of_blameless {x : Except MapperError α} (h : Blameless x) : Busy x := by
  rintro entity rfl
  exact h _ rfl (.inl rfl)

/-- A failed call is busy. -/
theorem driver (x : Except DriverError α) : Busy (x.mapError .driver) :=
  of_blameless (.driver x)

/-- Describing a model is busy. -/
theorem describe (m : EntityModel n) : Busy m.describe := by
  intro entity h
  rcases EntityModel.describe_eq_error h with ⟨_, he⟩ | ⟨_, _, _, he⟩ <;> cases he

variable {ms : Models n}

theorem targets (k : Fin n) : Busy (ms.targets k) :=
  .bind (.describe _) fun _ _ => .ok _

theorem relations (k : Fin n) : Busy (ms.relations k) :=
  .bind (.describe _) fun _ _ => .ok _

/-- A traversal of models finds types in conflict at worst. -/
theorem resolve (claims : KeyMap String) (tasks : List (ClosureTask n)) :
    Busy (ms.resolve claims tasks) := by
  induction claims, tasks using Models.resolve.induct ms with
  | case1 claims =>
      rw [Models.resolve]
      exact .ok []
  | case2 claims k tasks ih =>
      rw [Models.resolve]
      exact .bind ih fun _ _ => .ok _
  | case3 claims k tasks hclaim ih =>
      rw [Models.resolve_claimed hclaim]
      exact ih
  | case4 claims k tasks owner hclaim hother =>
      rw [Models.resolve_foreign hclaim hother]
      rintro entity ⟨⟩
  | case5 claims k tasks hfree ih =>
      rw [Models.resolve_free hfree]
      exact .bind (.targets k) fun targets _ => ih targets

theorem dependencies (k : Fin n) : Busy (ms.dependencies k) :=
  .bind (.targets k) fun _ _ => .resolve _ _

/-- Creating a table wants a column or the type of one at worst. -/
theorem createTable (k : Fin n) : Busy (ms.createTable k) := by
  refine .bind (.describe _) fun ds _ => .bind (fun entity h => ?_) fun columns _ => ?_
  · obtain ⟨d, -, hd⟩ := exists_of_mapM_eq_error h
    rw [Models.declareField] at hd
    split at hd <;> cases hd
  · split
    · rintro entity ⟨⟩
    · exact .ok _

/-- Binding a record finds columns missing at worst. -/
theorem bindColumns (columns : Columns c (c.model k).columnTypes) : Busy columns.bind := by
  intro entity h
  rw [Columns.bind] at h
  split at h
  · rename_i e hdescribe
    cases h
    exact describe _ _ hdescribe
  · dsimp only at h
    split at h <;> cases h

theorem introspect (r : Record c) : Busy r.introspect :=
  .bind (.dependencies _) fun _ _ => .bind (.bindColumns _) fun _ _ => .ok _

end Busy

/-! ## Runs of updates -/

/-- The statement of a call that updates a row. -/
def Entry.updated? : Entry → Option Statement
  | .call (.update s) _ => some s
  | _ => none

/-- What a run comes to that is to update the rows of a plan, as far as they have something to set.
It issues their statements in order, all of them unless it fails, and does not fail for want of
something to set. -/
structure UpdateRun (plan : List (Record c)) (failure : Option MapperError)
    (journal : List Entry) : Prop where
  issues : ∃ reached rest, plan = reached ++ rest ∧ (failure = none → rest = []) ∧
    Follows Entry.updated? (fun r s => r.updateRow = .ok s) (reached.filter (·.isSet)) journal
  busy : ∀ entity, failure ≠ some (.nothingToUpdate entity)

namespace UpdateRun

variable {plan plan' : List (Record c)} {failure : Option MapperError}
  {journal later : List Entry}

/-- A run that does not fail issues the statements of its whole plan. -/
theorem issued (h : UpdateRun plan none journal) :
    Follows Entry.updated? (fun r s => r.updateRow = .ok s) (plan.filter (·.isSet)) journal := by
  obtain ⟨reached, rest, rfl, hrest, hissued⟩ := h.issues
  rw [hrest rfl, List.append_nil]
  exact hissued

/-- A run that issues no statement of a plan has nothing to do, or fails before it does. -/
theorem quiet (hjournal : ∀ entry ∈ journal, entry.updated? = none)
    (hplan : failure = none → plan = [])
    (hbusy : ∀ entity, failure ≠ some (.nothingToUpdate entity)) :
    UpdateRun plan failure journal :=
  ⟨⟨[], plan, rfl, hplan, .nil hjournal⟩, hbusy⟩

/-- A run goes on with another plan. -/
theorem append (h : UpdateRun plan none journal) (hlater : UpdateRun plan' failure later) :
    UpdateRun (plan ++ plan') failure (journal ++ later) := by
  obtain ⟨reached, rest, rfl, hrest, hissued⟩ := hlater.issues
  refine ⟨⟨plan ++ reached, rest, by rw [List.append_assoc], hrest, ?_⟩, hlater.busy⟩
  rw [List.filter_append]
  exact h.issued.append hissued

/-- A run that fails leaves the rest of a longer plan undone. -/
theorem halt {e : MapperError} (h : UpdateRun plan (some e) journal) (plan' : List (Record c)) :
    UpdateRun (plan ++ plan') (some e) journal := by
  obtain ⟨reached, rest, rfl, -, hissued⟩ := h.issues
  exact ⟨⟨reached, rest ++ plan', by rw [List.append_assoc], nofun, hissued⟩, h.busy⟩

/-- Lines that update no row may stand around those of a run. -/
theorem around {before after : List Entry} (hbefore : ∀ entry ∈ before, entry.updated? = none)
    (h : UpdateRun plan failure journal) (hafter : ∀ entry ∈ after, entry.updated? = none) :
    UpdateRun plan failure (before ++ (journal ++ after)) := by
  obtain ⟨reached, rest, hplan, hrest, hissued⟩ := h.issues
  exact ⟨⟨reached, rest, hplan, hrest, hissued.around hbefore hafter⟩, h.busy⟩

end UpdateRun

namespace Task

/-- Whether every run of a task updates the rows of a plan, as far as they have something to set. -/
def Updates (plan : List (Record c)) (t : Task d α) : Prop :=
  ∀ w, UpdateRun plan (failure? (t.exec w).value) (t.exec w).journal

variable {plan plan' : List (Record c)} {t : Task d α} {f : α → Task d β}

/-- Two tasks in a row update the rows of one plan after the other. -/
theorem Updates.bind (ht : t.Updates plan) (hf : ∀ a, (f a).Updates plan') :
    (t >>= f).Updates (plan ++ plan') := by
  intro w
  have hrun := ht w
  rw [exec_bind]
  cases hvalue : (t.exec w).value with
  | ok a =>
      rw [hvalue] at hrun
      exact hrun.append (hf a _)
  | error e =>
      rw [hvalue] at hrun
      exact hrun.halt plan'

theorem Updates.pure (a : α) : (pure a : Task d α).Updates ([] : List (Record c)) := by
  intro w
  rw [exec_pure]
  exact .quiet (List.forall_mem_nil _) (fun _ => rfl) nofun

theorem Updates.report (e : Event) : (report e : Task d Unit).Updates ([] : List (Record c)) := by
  intro w
  rw [exec_report]
  exact .quiet (List.forall_mem_singleton.2 rfl) (fun _ => rfl) nofun

/-- A task on a checked result, which is busy. -/
theorem Updates.ofExcept_bind {result : Except MapperError α} (hbusy : Busy result)
    (hf : ∀ a, result = .ok a → (f a).Updates plan) :
    (Task.ofExcept result >>= f).Updates plan := by
  cases result with
  | ok a => exact hf a rfl
  | error e =>
      refine fun w => .quiet (List.forall_mem_nil _) nofun fun entity h => ?_
      exact hbusy entity (congrArg _ (Option.some.inj h))

/-- A task for every item of a list updates no row where none of them does. -/
theorem Updates.forM {g : α → Task d Unit} : {xs : List α} →
    (∀ x ∈ xs, (g x).Updates ([] : List (Record c))) → (xs.forM g).Updates ([] : List (Record c))
  | [], _ => .pure ()
  | x :: xs, h => by
      show (g x >>= fun _ => xs.forM g).Updates ([] ++ [])
      exact .bind (h x List.mem_cons_self) fun _ =>
        Updates.forM fun y hy => h y (List.mem_cons_of_mem _ hy)

/-- A task whose answer is passed over. -/
theorem Updates.discard (ht : t.Updates plan) : (discard t : Task d Unit).Updates plan := by
  have hbind : (t >>= fun _ => Pure.pure ()).Updates (plan ++ []) := ht.bind fun _ => .pure ()
  rwa [List.append_nil] at hbind

/-- A task that updates no row, and what follows. -/
theorem Updates.after (ht : t.Updates ([] : List (Record c))) (hf : ∀ a, (f a).Updates plan) :
    (t >>= f).Updates plan :=
  ht.bind hf

/-- A call fails for a reason of its own, if it does. -/
theorem failure?_call (call : Call) (w : World σ) (entity : String) :
    failure? ((Task.call call : Task d call.Answer).exec w).value ≠
      some (.nothingToUpdate entity) := by
  rw [exec_call]
  exact fun h => Busy.driver _ entity (eq_error_of_failure? h)

theorem Updates.call {call : Call} (h : ∀ answer, (Entry.call call answer).updated? = none) :
    (Task.call call : Task d call.Answer).Updates ([] : List (Record c)) :=
  fun w => .quiet (List.forall_mem_singleton.2 (h _)) (fun _ => rfl) (failure?_call call w)

/-- The call of a record's statement updates its row. -/
theorem Updates.row {r : Record c} {s : Statement} (hset : r.isSet = true)
    (hs : r.updateRow = .ok s) : (Task.update s : Task d UInt64).Updates [r] := by
  refine .after (.report _) fun _ w => ⟨⟨[r], [], rfl, fun _ => rfl, ?_⟩, failure?_call _ w⟩
  rw [List.filter_cons_of_pos hset]
  exact .one hs rfl

theorem Updates.check (table origin : String) :
    (check table origin : Task d Bool).Updates ([] : List (Record c)) := by
  refine fun w => .quiet (List.forall_mem_nil _) (fun _ => rfl) fun entity h => ?_
  have hcheck : w.cache.check table origin = .error (.nothingToUpdate entity) :=
    eq_error_of_failure? h
  rw [SchemaCache.check] at hcheck
  split at hcheck
  · cases hcheck
  · split at hcheck <;> cases hcheck

theorem Updates.modifyCache (g : SchemaCache → SchemaCache) :
    Updates ([] : List (Record c)) (ExceptT.lift (Action.modifyCache g) : Task d Unit) := by
  intro w
  rw [exec_lift]
  exact .quiet (List.forall_mem_singleton.2 rfl) (fun _ => rfl) nofun

end Task

/-! ## Families, owners first -/

mutual

/-- The records that a content holds, each before everything it owns. -/
def Cell.lineage : {t : ColumnType n} → Cell c t → List (Record c)
  | .entity k, .entity columns => ⟨k, columns⟩ :: columns.lineage
  | _, .present inner => inner.lineage
  | _, .boxed inner => inner.lineage
  | _, .list items => items.lineage
  | _, _ => []

/-- The records that the items of a list hold, each before everything it owns. -/
def Items.lineage : {t : ColumnType n} → Items c t → List (Record c)
  | _, .nil => []
  | _, .cons item items => item.lineage ++ items.lineage

/-- The records that the columns of a record own, each before everything it owns. -/
def Columns.lineage : {ts : List (ColumnType n)} → Columns c ts → List (Record c)
  | _, .nil => []
  | t :: _, .cons cell cells =>
      (if t.classify.isOwnedRelation then cell.lineage else []) ++ cells.lineage

end

/-- A record before everything it owns, directly or through others. -/
def Record.lineage (r : Record c) : List (Record c) := r :: r.columns.lineage

mutual

/-- Owners first or last, the records are the same. -/
theorem Cell.lineage_perm : {t : ColumnType n} → (cell : Cell c t) →
    cell.lineage.Perm cell.family
  | _, .bool _ | _, .integer _ _ | _, .float _ | _, .double _ | _, .text _ | _, .dateTime _
  | _, .raw _ | _, .absent => .nil
  | _, .entity columns =>
      (columns.lineage_perm.cons _).trans (List.perm_append_singleton _ _).symm
  | _, .present inner => inner.lineage_perm
  | _, .boxed inner => inner.lineage_perm
  | _, .list items => items.lineage_perm

theorem Items.lineage_perm : {t : ColumnType n} → (items : Items c t) →
    items.lineage.Perm items.family
  | _, .nil => .nil
  | _, .cons item items => item.lineage_perm.append items.lineage_perm

theorem Columns.lineage_perm : {ts : List (ColumnType n)} → (columns : Columns c ts) →
    columns.lineage.Perm columns.family
  | _, .nil => .nil
  | _, .cons cell cells => by
      rw [Columns.lineage, Columns.family]
      refine .append ?_ cells.lineage_perm
      split
      · exact cell.lineage_perm
      · exact .nil

end

/-- The family of a record has the same members, owners first or last. -/
theorem Record.lineage_perm (r : Record c) : r.lineage.Perm r.family :=
  (Cell.entity r.columns).lineage_perm

namespace Session

variable {b : Bound c k}

/-! ## What an update issues -/

/-- Ensuring a table updates no row. -/
theorem ensure_updates {witness : Witness} {creating : Event}
    {definition : Except MapperError Statement} (hbusy : Busy definition) :
    (ensure witness creating definition : Task d Unit).Updates ([] : List (Record c)) := by
  refine .after (.check _ _) fun known => ?_
  split
  · exact .pure ()
  · refine .after (.call fun _ => rfl) fun found => ?_
    split
    · exact .ofExcept_bind hbusy fun s _ => .after (.report _) fun _ =>
        .after (.after (.report _) fun _ => .call fun _ => rfl) fun _ => .modifyCache _
    · exact .modifyCache _

/-- Ensuring tables updates no row. -/
theorem ensureSchema_updates (ms : Models n) (k : Fin n) (dependencies : List (Fin n)) :
    (ensureSchema ms k dependencies : Task d Unit).Updates ([] : List (Record c)) :=
  .after (.forM fun k _ => ensure_updates (.createTable k)) fun _ =>
    .forM fun k _ => .ofExcept_bind (.relations k) fun _ _ =>
      .forM fun _ _ => ensure_updates (.ok _)

/-- Updating the row of a record issues its statement where the record has something to set, and
nothing otherwise. -/
theorem updateRow_updates (hb : b.columns.bind = .ok b) (h : b.record.IsRegular) :
    (updateRow b : Task d Unit).Updates [b.record] := by
  rw [updateRow, b.any_updatable h]
  split
  · rename_i hset
    refine .ofExcept_bind (.of_blameless (b.updateRow_blameless_of_isSet hset)) fun s hs => ?_
    have hstated : b.record.updateRow = .ok s := (Bound.bind_record hb (·.updateRow)).trans hs
    refine Task.Updates.bind (.row hset hstated) fun affected => ?_
    split
    · exact .report _
    · exact .pure ()
  · rename_i hset
    intro w
    rw [Task.exec_report]
    constructor
    · refine ⟨[b.record], [], rfl, fun _ => rfl, ?_⟩
      rw [List.filter_cons_of_neg hset]
      exact .nil (List.forall_mem_singleton.2 rfl)
    · rintro entity ⟨⟩

/-- Clearing links updates no row. -/
theorem clearLinks_updates (b : Bound c k) :
    (clearLinks b : Task d Unit).Updates ([] : List (Record c)) := by
  refine .forM fun f hf => ?_
  have hrelation := relations_isRelation hf
  refine .ofExcept_bind (.of_blameless (Bound.clearLinks_blameless hrelation)) fun s _ => ?_
  exact .discard (.after (.report _) fun _ => .call fun _ => rfl)

/-- Inserting links updates no row. -/
theorem insertLinks_updates (b : Bound c k) :
    (insertLinks b : Task d Unit).Updates ([] : List (Record c)) := by
  refine .forM fun f hf => .forM fun related _ => ?_
  have hrelation := relations_isRelation hf
  refine .ofExcept_bind (.of_blameless (Bound.insertLink_blameless hrelation related)) fun s _ => ?_
  exact .discard (.after (.report _) fun _ => .call fun _ => rfl)

mutual

/-- Updating the records that a content holds updates the rows of these and of the records they own,
each before those. -/
theorem updateHeld_updates : {t : ColumnType n} → (cell : Cell c t) →
    (∀ x ∈ cell.lineage, x.IsRegular) → (updateHeld cell : Task d Unit).Updates cell.lineage
  | _, .bool _, _ | _, .integer _ _, _ | _, .float _, _ | _, .double _, _ | _, .text _, _
  | _, .dateTime _, _ | _, .raw _, _ | _, .absent, _ => .pure ()
  | _, .entity columns, h => by
      obtain ⟨hself, howned⟩ := List.forall_mem_cons.1 h
      have howned := updateOwned_updates columns howned
      rw [updateHeld, Cell.lineage]
      refine .ofExcept_bind (.bindColumns columns) fun b hb => ?_
      obtain ⟨rfl, -⟩ := Columns.bind_eq_ok_iff.1 hb
      have hlinks : (clearLinks b >>= fun _ => insertLinks b : Task d Unit).Updates [] :=
        .after (clearLinks_updates b) fun _ => insertLinks_updates b
      -- The record itself comes first, then what it owns; the links follow and update no row.
      have hrest := howned.bind fun _ => hlinks
      rw [List.append_nil] at hrest
      exact (updateRow_updates hb hself).bind fun _ => hrest
  | _, .present inner, h => by
      rw [updateHeld]
      exact updateHeld_updates inner h
  | _, .boxed inner, h => by
      rw [updateHeld]
      exact updateHeld_updates inner h
  | _, .list items, h => by
      rw [updateHeld]
      exact updateItems_updates items h

theorem updateItems_updates : {t : ColumnType n} → (items : Items c t) →
    (∀ x ∈ items.lineage, x.IsRegular) → (updateItems items : Task d Unit).Updates items.lineage
  | _, .nil, _ => .pure ()
  | _, .cons item items, h => by
      obtain ⟨hitem, hitems⟩ := List.forall_mem_append.1 h
      rw [updateItems, Items.lineage]
      exact (updateHeld_updates item hitem).bind fun _ => updateItems_updates items hitems

theorem updateOwned_updates : {ts : List (ColumnType n)} → (columns : Columns c ts) →
    (∀ x ∈ columns.lineage, x.IsRegular) →
      (updateOwned columns : Task d Unit).Updates columns.lineage
  | _, .nil, _ => .pure ()
  | _, .cons cell cells, h => by
      rw [Columns.lineage] at h ⊢
      obtain ⟨hcell, hcells⟩ := List.forall_mem_append.1 h
      rw [updateOwned]
      split
      · rename_i howned
        rw [if_pos howned] at hcell
        exact (updateHeld_updates cell hcell).bind fun _ => updateOwned_updates cells hcells
      · exact updateOwned_updates cells hcells

end

/-- An update updates the rows of its record's family, as far as they have something to set, each
record before those that it owns. -/
theorem update_run {r : Record c} (h : ∀ x ∈ r.family, x.IsRegular) (w : World σ) :
    UpdateRun r.lineage (failure? ((update (d := d) r).run w).value.result)
      ((update (d := d) r).run w).journal := by
  have hreports : ∀ events, ∀ entry ∈ reports events, entry.updated? = none := by
    intro events entry hentry
    obtain ⟨e, -, rfl⟩ := List.mem_map.1 hentry
    rfl
  have hregular : ∀ x ∈ r.lineage, x.IsRegular := fun x hx => h x (r.lineage_perm.mem_iff.1 hx)
  rw [update_eq]
  -- A run is refused before any call, stops while tables are ensured, or comes to the rows.
  have hrun := prepared_run (d := d) .update r
    (fun _ => Staged.task (updateHeld (.entity r.columns : Cell c (.entity r.model)))) w
  generalize (prepared .update r _).run w = outcome at hrun ⊢
  cases hrun with
  | refused hintrospect =>
      refine .quiet (hreports _) nofun fun entity he => ?_
      exact Busy.introspect r entity (hintrospect.trans (congrArg _ (Option.some.inj he)))
  | @unensured deps e w' journal hdeps hensure =>
      have hensured := ensureSchema_updates (c := c) (d := d) c.toModels r.model deps w
      rw [hensure] at hensured
      exact (hensured.halt r.lineage).around (hreports _) (hreports _)
  | @worked b deps w' journal left hbind hdeps hensure hwork =>
      have hensured := ensureSchema_updates (c := c) (d := d) c.toModels r.model deps w
      rw [hensure] at hensured
      have hheld := updateHeld_updates (d := d) (.entity r.columns) hregular w'
      rw [Staged.exec_task] at hwork
      subst hwork
      obtain ⟨events, hclosing⟩ := Staged.closing_reports .update (c.model r.model).name
        (((updateHeld (d := d) (.entity r.columns : Cell c (.entity r.model))).exec w').value,
          (⟨.update, (c.model r.model).name, .executing, r⟩ : Progress (Record c)))
      rw [hclosing]
      have hbegan : ∀ events, UpdateRun ([] : List (Record c)) none (reports events) :=
        fun events => .quiet (hreports events) (fun _ => rfl) nofun
      exact (hbegan _).append (hensured.append (hheld.around (hreports _) (hreports events)))

/-- The check before the update of a row agrees with the statement. For every record of a family
whose fields are of regular types, the check finds a column that has been assigned to exactly where
the statement has something to set, and that is where some column besides the key has a value. An
update therefore never fails for want of something to set; it issues the statements of those records
of the family that have something to set, each record before those that it owns, and all of them
unless it fails. -/
theorem update_sets (r : Record c) (h : ∀ x ∈ r.family, x.IsRegular) (w : World σ) :
    (∀ k (b : Bound c k), b.record ∈ r.family →
      (b.updatable.any fun f => !f.isNil) = b.record.isSet ∧
      ∀ as, Bound.assignments b.updatable = .ok as →
        ((b.updatable.any fun f => !f.isNil) = true ↔ as ≠ []) ∧
        ∀ clause, b.keyClause = .ok clause →
          b.updateRow = if b.updatable.any fun f => !f.isNil
            then .ok (.updateRow b.table as clause) else .error (.nothingToUpdate b.name)) ∧
    (∀ entity, ((update (d := d) r).run w).value.result ≠ .error (.nothingToUpdate entity)) ∧
    r.lineage.Perm r.family ∧
    ∃ reached rest, r.lineage = reached ++ rest ∧
      (((update (d := d) r).run w).value.result = .ok () → rest = []) ∧
      List.Forall₂ (fun x s => x.updateRow = .ok s) (reached.filter (·.isSet))
        (((update (d := d) r).run w).journal.filterMap Entry.updated?) := by
  obtain ⟨⟨reached, rest, hlineage, hrest, hissued⟩, hbusy⟩ := update_run (d := d) h w
  refine ⟨fun k b hb => ?_, fun entity he => ?_, r.lineage_perm,
    reached, rest, hlineage, fun hok => hrest (by rw [hok]; rfl), hissued⟩
  · have hany := b.any_updatable (h _ hb)
    refine ⟨hany, fun as has => ⟨?_, fun clause hclause => ?_⟩⟩
    · rw [hany, b.isSet_record, ne_eq, Bound.assignments_eq_nil_iff has, Bool.not_eq_false]
    · rw [hany, b.updateRow_eq hclause has]
  · exact hbusy entity (by rw [he]; rfl)

end Session

/-! ## A notebook -/

/-- Pages with a caption that may be missing, and the pages below them. -/
def notebook : Catalog 1 where
  model _ :=
    { ident := "Page", path := "notes", explicitName := none
      fields := [⟨"id", "id key auto", .integer .int64⟩, ⟨"caption", "caption", .nullable .text⟩,
        ⟨"pages", "pages", .list (.entity 0)⟩]
      offered := none }
  rank _ := 0
  rank_lt := by decide +kernel

/-- A page of a notebook. -/
def page (id : Int) (holds : IntegerKind.int64.Holds id) (caption : Cell notebook (.nullable .text))
    (pages : Items notebook (.entity 0)) : Bound notebook 0 where
  columns := .cons (.integer id holds) (.cons caption (.cons (.list pages) .nil))
  descriptors :=
    [⟨0, "id", ⟨"id", true, true, FieldTag.id_ne, FieldTag.id_chars⟩, .scalar (.integer .int64)⟩,
      ⟨1, "caption", ⟨"caption", false, false, by decide, by decide⟩, .nullable (.scalar .text)⟩,
      ⟨2, "pages", ⟨"pages", false, false, by decide, by decide⟩,
        ⟨.recordList, false, false, some ⟨0, false⟩⟩⟩]
  described := by decide +kernel

/-- A page without a caption. -/
def emptyPage : Bound notebook 0 := page 2 (by decide) .absent .nil

/-- A page with a caption, above a page without one. -/
def captionedPage : Bound notebook 0 :=
  page 12 (by decide) (.present (.text "see below")) (.cons (.entity emptyPage.columns) .nil)

/-- A cache that knows the tables of notebooks. -/
def notebookCache : SchemaCache :=
  (SchemaCache.empty.put (.ofModel (notebook.model 0))).put
    (.ofTable (notebook.linkTable ⟨0, "pages", 0, false⟩) (notebook.model 0))

namespace Session

/-- A page can be introspected. -/
theorem introspect_captionedPage : captionedPage.record.introspect = .ok (captionedPage, []) := by
  refine Record.introspect_eq_ok_iff.2 ⟨?_, Columns.bind_eq_ok_iff.2 ⟨rfl, rfl⟩⟩
  have htargets : notebook.targets 0 = .ok [0] := by decide +kernel
  show notebook.dependencies 0 = _
  rw [Models.dependencies, htargets]
  change notebook.resolve _ [.visit 0] = _
  rw [Models.resolve_claimed (by decide +kernel), Models.resolve]

/-- The tables of notebooks are there. -/
theorem ensureSchema_notebook (s : UInt64) :
    (ensureSchema (d := numbering) notebook.toModels 0 []).exec ⟨s, notebookCache⟩
      = ⟨.ok (), ⟨s, notebookCache⟩, []⟩ := by
  refine ensureSchema_known (fun j hj => ?_) fun j hj => ⟨[⟨0, "pages", 0, false⟩], ?_, ?_⟩
  · rw [List.mem_singleton.1 hj]
    show notebookCache.check _ _ = _
    decide +kernel
  · rw [List.mem_singleton.1 hj]
    decide +kernel
  · show ∀ r ∈ _, notebookCache.check _ _ = _
    decide +kernel

/-- A page can be updated together with the one below. -/
theorem update_captionedPage :
    ((update (d := numbering) captionedPage.record).run ⟨2, notebookCache⟩).value
      = ⟨captionedPage.record, .ok ()⟩ := by
  let w : World UInt64 := ⟨2, notebookCache⟩
  have hbelow : ∃ journal, (updateHeld (d := numbering)
      (.entity emptyPage.columns : Cell notebook (.entity 0))).exec w = ⟨.ok (), w, journal⟩ :=
    ⟨_, updateHeld_run (b := emptyPage) (u := w) (v := w) (x := w)
      (Columns.bind_eq_ok_iff.2 ⟨rfl, rfl⟩) rfl rfl rfl rfl⟩
  obtain ⟨journal, hbelow⟩ := hbelow
  have howned : (updateOwned (d := numbering) captionedPage.columns).exec w
      = ⟨.ok (), w, journal⟩ := by
    show (updateOwned (.cons _ (.cons _ (.cons (.list (.cons _ .nil)) .nil)))).exec _ = _
    rw [updateOwned, if_neg (by decide), updateOwned, if_neg (by decide), updateOwned,
      if_pos (by decide), updateHeld, updateItems, updateItems, updateOwned]
    simp only [Task.exec_bind, Task.exec_pure, hbelow, List.append_nil]
  have hheld : ∃ later, (updateHeld (d := numbering)
      (.entity captionedPage.columns : Cell notebook (.entity 0))).exec w
        = ⟨.ok (), ⟨3, notebookCache⟩, later⟩ :=
    ⟨_, updateHeld_run (b := captionedPage) (Columns.bind_eq_ok_iff.2 ⟨rfl, rfl⟩) rfl howned rfl
      rfl⟩
  obtain ⟨later, hheld⟩ := hheld
  refine (operate_known
    (fun _ => Staged.task (updateHeld (.entity captionedPage.columns : Cell notebook (.entity 0))))
    (fun _ _ => rfl) introspect_captionedPage (ensureSchema_notebook 2)).trans ?_
  rw [Staged.exec_task, hheld]

/-- The update of a page with a caption above one without issues one statement, that of the page
with the caption. -/
theorem captionedPage_update_sets :
    let r := captionedPage.record
    (∀ x ∈ r.family, x.IsRegular) ∧
      (captionedPage.updatable.any fun f => !f.isNil) = true ∧
      (emptyPage.updatable.any fun f => !f.isNil) = false ∧
      ∃ s, r.updateRow = .ok s ∧
        ((update (d := numbering) r).run ⟨2, notebookCache⟩).journal.filterMap Entry.updated?
          = [s] := by
  intro r
  have hregular : ∀ x ∈ r.family, x.IsRegular := by
    rintro ⟨k, columns⟩ -
    obtain rfl : k = 0 := Subsingleton.elim k 0
    show ∀ t ∈ (notebook.model 0).columnTypes, t.IsRegular
    decide
  have hlineage : r.lineage = [r, emptyPage.record] := rfl
  have hset : r.isSet = true := by decide +kernel
  have hunset : emptyPage.record.isSet = false := by decide +kernel
  have hmember : emptyPage.record ∈ r.family :=
    r.lineage_perm.mem_iff.1 (hlineage ▸ List.mem_cons_of_mem _ List.mem_cons_self)
  obtain ⟨hguard, -, -, reached, rest, hreached, hrest, hissued⟩ :=
    update_sets (d := numbering) r hregular ⟨2, notebookCache⟩
  obtain rfl := hrest (congrArg Attempt.result update_captionedPage)
  rw [List.append_nil] at hreached
  rw [← hreached, hlineage, List.filter_cons_of_pos hset,
    List.filter_cons_of_neg (by simp [hunset]), List.filter_nil] at hissued
  obtain ⟨s, tail, hs, htail, hjournal⟩ := List.forall₂_cons_left_iff.1 hissued
  rw [List.forall₂_nil_left_iff.1 htail] at hjournal
  exact ⟨hregular, (hguard 0 captionedPage r.mem_family_self).1.trans hset,
    (hguard 0 emptyPage hmember).1.trans hunset, s, hs, hjournal⟩

end Session

end EntityMapper
