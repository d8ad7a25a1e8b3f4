import EntityMapper.Proofs.Session.Insertion
import EntityMapper.Proofs.Sql.LinkStore

/-!
# What an update does to links

An update clears the links of every member of the record's family and inserts those to the records
that it holds, member by member (`Session.update_relinks`). Where each field has a link table of its
own and no two members of the family share a row, every place of links is cleared once, before its
links are inserted, so that these are what it holds in the end (`Session.update_replaces_links`).
-/

namespace EntityMapper

open Sql

variable {n : Nat} {c : Catalog n} {k : Fin n} {σ α β : Type} {d : Driver σ}

/-! ## Journals of updates -/

/-- The statement of a call that writes rows or links. -/
def Entry.written? : Entry → Option Statement
  | .call (.insert s) _ | .call (.update s) _ | .call (.delete s) _ => some s
  | _ => none

/-- The statement of a call that writes links. -/
def Entry.linking? (entry : Entry) : Option Statement :=
  entry.written?.filter (·.linkPlace?.isSome)

/-- Ensuring tables writes nothing. -/
theorem Entry.IsSchemaWork.written? {entry : Entry} (h : entry.IsSchemaWork) :
    entry.written? = none := by
  cases entry with
  | event e | cached cache => rfl
  | call call answer =>
      cases call with
      | insert s | update s | delete s => exact h.elim
      | _ => rfl

/-- Whether the statements about links of a journal are those of a plan, in order. -/
abbrev Relinks (plan : List (Write c)) (journal : List Entry) : Prop :=
  Follows Entry.linking? (fun write s => write.statement = .ok s) plan journal

namespace Session

variable {b : Bound c k} {w : World σ}

/-- Updating a row is about no link. -/
theorem updateRow_leads : (updateRow b : Task d Unit).Leads w fun _ _ journal =>
    Relinks ([] : List (Write c)) journal := by
  rw [updateRow]
  split
  · refine .ofExcept_bind fun s hs => ?_
    have hplace : s.linkPlace? = none := by
      obtain ⟨key, -, hs⟩ := bind_eq_ok.1 hs
      obtain ⟨assignments, -, hs⟩ := bind_eq_ok.1 hs
      split at hs
      · cases hs
      · cases hs
        rfl
    have hupdate : (Task.update s : Task d UInt64).Leads w fun _ _ journal =>
        Relinks ([] : List (Write c)) journal := by
      intro affected hdone
      have hjournal : ((Task.update s : Task d UInt64).exec w).journal = _ :=
        Task.Leads.reported (.statement .update s) (.update s) affected hdone
      rw [hjournal]
      refine .nil (List.forall_mem_cons.2 ⟨rfl, List.forall_mem_singleton.2 ?_⟩)
      simp [Entry.linking?, Entry.written?, hplace]
    refine .bind _ hupdate fun affected _ journal hjournal => ?_
    split
    · exact .report (hjournal.append (.nil (List.forall_mem_singleton.2 rfl)))
    · exact .pure (hjournal.append .empty)
  · exact .report (.nil (List.forall_mem_singleton.2 rfl))

/-- The links of a record are cleared by one call for each field. -/
theorem clearLinks_leads (hb : b.columns.bind = .ok b) :
    (clearLinks b : Task d Unit).Leads w fun _ _ journal =>
      Relinks (b.record.relations.map (.clearLinks b.record)) journal := by
  rw [b.relations_record, List.map_eq_flatMap]
  refine .follows_forM b.relations (fun f _ w => ?_) w
  refine .ofExcept_bind fun s hs => .discard ?_
  intro affected hdone
  have hs : (Write.clearLinks b.record f).statement = .ok s :=
    (Bound.bind_record hb (·.clearLinks f)).trans hs
  obtain ⟨table, left, -, rfl⟩ := Write.statement_clearLinks hs
  have hjournal : ((Task.delete (.clearLinks table left) : Task d UInt64).exec w).journal = _ :=
    Task.Leads.reported (.statement .delete _) (.delete _) affected hdone
  rw [hjournal]
  exact .one hs rfl

mutual

/-- Updating the records that a content holds relinks their families. -/
theorem updateHeld_leads {t : ColumnType n} : (cell : Cell c t) → (w : World σ) →
    (updateHeld cell : Task d Unit).Leads w fun _ _ journal =>
      Relinks (cell.family.flatMap Record.relinkings) journal
  | .bool _, _ | .integer _ _, _ | .float _, _ | .double _, _ | .text _, _ | .dateTime _, _
  | .raw _, _ | .absent, _ => .pure .empty
  | .entity (k := k) columns, w => by
      have howned := updateOwned_leads columns
      rw [updateHeld, Cell.family, List.flatMap_append, List.flatMap_singleton]
      refine .ofExcept_bind fun b hb => ?_
      obtain ⟨hcolumns, -⟩ := Columns.bind_eq_ok_iff.1 hb
      subst hcolumns
      refine .bind _ updateRow_leads fun _ w' _ hrow => ?_
      refine .bind _ (howned w') fun _ w'' _ howned => ?_
      refine .bind _ (clearLinks_leads hb) fun _ w''' _ hclears => ?_
      have hlinks : (insertLinks b : Task d Unit).Leads w''' fun _ _ journal =>
          Relinks b.record.linkInsertions journal := by
        refine insertLinks_leads hb (fun f related s id hs => ?_) w'''
        obtain ⟨table, left, right, -, -, rfl⟩ := Write.statement_insertLink hs
        exact .one hs rfl
      intro _ hdone
      exact hrow.append (howned.append (hclears.append (hlinks () hdone)))
  | .present inner, w => by
      rw [updateHeld]
      exact updateHeld_leads inner w
  | .boxed inner, w => by
      rw [updateHeld]
      exact updateHeld_leads inner w
  | .list items, w => by
      rw [updateHeld]
      exact updateItems_leads items w

theorem updateItems_leads {t : ColumnType n} : (items : Items c t) → (w : World σ) →
    (updateItems items : Task d Unit).Leads w fun _ _ journal =>
      Relinks (items.family.flatMap Record.relinkings) journal
  | .nil, _ => .pure .empty
  | .cons item items, w => by
      rw [updateItems, Items.family, List.flatMap_append]
      exact .follows_bind (updateHeld_leads item w) fun _ w' => updateItems_leads items w'

theorem updateOwned_leads {ts : List (ColumnType n)} : (columns : Columns c ts) → (w : World σ) →
    (updateOwned columns : Task d Unit).Leads w fun _ _ journal =>
      Relinks (columns.family.flatMap Record.relinkings) journal
  | .nil, _ => .pure .empty
  | .cons cell cells, w => by
      rw [updateOwned, Columns.family, List.flatMap_append]
      split
      · exact .follows_bind (updateHeld_leads cell w) fun _ w' => updateOwned_leads cells w'
      · exact updateOwned_leads cells w

end

/-- What updating a record answers and leaves, where each of its parts succeeds. -/
theorem updateHeld_run {u v x w' : World σ} {columns : Columns c (c.model k).columnTypes}
    {j₁ j₂ j₃ j₄ : List Entry} (hb : columns.bind = .ok b)
    (hrow : (updateRow (d := d) b).exec w = ⟨.ok (), u, j₁⟩)
    (howned : (updateOwned (d := d) columns).exec u = ⟨.ok (), v, j₂⟩)
    (hclears : (clearLinks (d := d) b).exec v = ⟨.ok (), x, j₃⟩)
    (hlinks : (insertLinks (d := d) b).exec x = ⟨.ok (), w', j₄⟩) :
    (updateHeld (d := d) (.entity columns : Cell c (.entity k))).exec w
      = ⟨.ok (), w', j₁ ++ (j₂ ++ (j₃ ++ j₄))⟩ := by
  rw [updateHeld]
  simp only [Task.exec_bind, Task.exec_ofExcept, hb, hrow, howned, hclears, hlinks,
    List.nil_append]

/-- An update relinks the family of the record, after the work on the schema. -/
theorem update_relinks {r : Record c} {w : World σ}
    (h : ((update (d := d) r).run w).value.result = .ok ()) :
    Relinks (r.family.flatMap Record.relinkings) ((update (d := d) r).run w).journal := by
  obtain ⟨b, p, w', before, after, -, -, hbefore, hafter, hresult, -, hjournal⟩ :=
    operate_prepared
      (fun _ => Staged.task (updateHeld (.entity r.columns : Cell c (.entity r.model))))
      (fun _ _ => rfl) h
  rw [Staged.exec_task] at hresult hjournal
  have hquiet : ∀ {entry : Entry}, entry.IsSchemaWork → entry.linking? = none := fun hentry => by
    rw [Entry.linking?, hentry.written?]
    rfl
  have hheld := updateHeld_leads (.entity r.columns : Cell c (.entity r.model)) w' () hresult
  rw [update, hjournal]
  exact hheld.around (fun entry hentry => hquiet (hbefore entry hentry))
    fun entry hentry => hquiet (hafter entry hentry)

end Session

/-! ## Places of links -/

/-- The place of the links that a write changes. -/
def Write.linkPlace? : Write c → Option (String × Literal)
  | insertLink owner f _ | deleteLink owner f _ | clearLinks owner f =>
      (owner.linkPlace f).toOption
  | _ => none

/-- A write changes links where its statement does. -/
theorem Write.linkPlace?_statement {write : Write c} {s : Statement}
    (h : write.statement = .ok s) : s.linkPlace? = write.linkPlace? := by
  cases write with
  | insertRow r =>
      obtain ⟨b, -, h⟩ := bind_eq_ok.1 h
      obtain ⟨assignments, -, h⟩ := bind_eq_ok.1 h
      cases h
      rfl
  | deleteRow r =>
      obtain ⟨table, column, key, -, rfl⟩ := statement_deleteRow h
      rfl
  | insertLink owner f related =>
      obtain ⟨table, left, right, hplace, -, rfl⟩ := statement_insertLink h
      rw [linkPlace?, hplace]
      rfl
  | deleteLink owner f related =>
      obtain ⟨table, left, right, hplace, -, rfl⟩ := statement_deleteLink h
      rw [linkPlace?, hplace]
      rfl
  | clearLinks owner f =>
      obtain ⟨table, left, hplace, rfl⟩ := statement_clearLinks h
      rw [linkPlace?, hplace]
      rfl

/-- A place that can be found is the one that is found. -/
theorem toOption_eq_some {result : Except MapperError α} {a : α} :
    result.toOption = some a ↔ result = .ok a := by
  cases result with
  | error e => simp [Except.toOption]
  | ok a' => simp [Except.toOption]

/-- The places of the links of a record's family. -/
def Record.linkPlaces (r : Record c) : List (String × Literal) :=
  r.family.flatMap fun x => x.relations.filterMap fun f => (x.linkPlace f).toOption

/-- Where what most items bring along is passed over, only the one item counts. -/
theorem filter_flatMap_of_unique {p : β → Bool} {g : α → List β} {xs ys : List α} {x : α}
    (hxs : ∀ y ∈ xs, (g y).filter p = []) (hys : ∀ y ∈ ys, (g y).filter p = []) :
    ((xs ++ x :: ys).flatMap g).filter p = (g x).filter p := by
  have hnil : ∀ zs : List α, (∀ y ∈ zs, (g y).filter p = []) → (zs.flatMap g).filter p = [] :=
    fun zs h => by
      rw [List.filter_flatMap, List.flatMap_eq_nil_iff]
      exact h
  rw [List.flatMap_append, List.flatMap_cons, List.filter_append, List.filter_append, hnil xs hxs,
    hnil ys hys, List.nil_append, List.append_nil]

namespace Record

variable {x : Record c} {f : Field c} {fs gs : List (Field c)} {table : String} {left : Literal}

/-- Writes at a place are all for that place. -/
theorem filter_linkPlace {writes : List (Write c)} (hplace : x.linkPlace f = .ok (table, left))
    (h : ∀ write ∈ writes, write.linkPlace? = (x.linkPlace f).toOption) :
    writes.filter (·.linkPlace? = some (table, left)) = writes := by
  rw [List.filter_eq_self]
  intro write hwrite
  rw [decide_eq_true_iff, h write hwrite, toOption_eq_some, hplace]

/-- Writes at a place are none for another place. -/
theorem filter_linkPlace_of_ne {writes : List (Write c)}
    (hplace : x.linkPlace f ≠ .ok (table, left))
    (h : ∀ write ∈ writes, write.linkPlace? = (x.linkPlace f).toOption) :
    writes.filter (·.linkPlace? = some (table, left)) = [] := by
  rw [List.filter_eq_nil_iff]
  intro write hwrite hat
  rw [decide_eq_true_iff, h write hwrite, toOption_eq_some] at hat
  exact hplace hat

/-- The links of a field are inserted at the place of the field. -/
theorem linkPlace?_insertLink : ∀ write ∈ f.records.map (.insertLink x f),
    Write.linkPlace? write = (x.linkPlace f).toOption := by
  rw [List.forall_mem_map]
  exact fun related _ => rfl

/-- The links of a field are cleared at the place of the field. -/
theorem linkPlace?_clearLinks :
    ∀ write ∈ [.clearLinks x f], Write.linkPlace? write = (x.linkPlace f).toOption :=
  List.forall_mem_singleton.2 rfl

/-- Relinking a record changes links at the places of its fields. -/
theorem mem_relinkings {write : Write c} (h : write ∈ x.relinkings) :
    ∃ f ∈ x.relations, write.linkPlace? = (x.linkPlace f).toOption := by
  rcases List.mem_append.1 h with h | h
  · obtain ⟨f, hf, rfl⟩ := List.mem_map.1 h
    exact ⟨f, hf, rfl⟩
  · obtain ⟨f, hf, h⟩ := List.mem_flatMap.1 h
    exact ⟨f, hf, linkPlace?_insertLink write h⟩

/-- At a place of none of its fields, relinking a record changes nothing. -/
theorem relinkings_filter_of_ne (h : ∀ f ∈ x.relations, x.linkPlace f ≠ .ok (table, left)) :
    x.relinkings.filter (·.linkPlace? = some (table, left)) = [] := by
  rw [relinkings, linkInsertions, List.map_eq_flatMap, List.filter_append, List.filter_flatMap,
    List.filter_flatMap, List.append_eq_nil_iff, List.flatMap_eq_nil_iff, List.flatMap_eq_nil_iff]
  exact ⟨fun f hf => filter_linkPlace_of_ne (h f hf) linkPlace?_clearLinks,
    fun f hf => filter_linkPlace_of_ne (h f hf) linkPlace?_insertLink⟩

/-- At the place of one of its fields, relinking a record clears the links and inserts those to the
records that the field holds. -/
theorem relinkings_filter (hrelations : x.relations = fs ++ f :: gs)
    (hplace : x.linkPlace f = .ok (table, left))
    (hothers : ∀ g ∈ fs ++ gs, x.linkPlace g ≠ .ok (table, left)) :
    x.relinkings.filter (·.linkPlace? = some (table, left))
      = .clearLinks x f :: f.records.map (.insertLink x f) := by
  have hclears : ∀ g ∈ fs ++ gs, ([.clearLinks x g] : List (Write c)).filter
      (·.linkPlace? = some (table, left)) = [] := fun g hg =>
    filter_linkPlace_of_ne (hothers g hg) linkPlace?_clearLinks
  have hinserts : ∀ g ∈ fs ++ gs, (g.records.map (.insertLink x g) : List (Write c)).filter
      (·.linkPlace? = some (table, left)) = [] := fun g hg =>
    filter_linkPlace_of_ne (hothers g hg) linkPlace?_insertLink
  rw [relinkings, linkInsertions, hrelations, List.map_eq_flatMap, List.filter_append,
    filter_flatMap_of_unique (fun g hg => hclears g (List.mem_append_left _ hg))
      fun g hg => hclears g (List.mem_append_right _ hg),
    filter_flatMap_of_unique (fun g hg => hinserts g (List.mem_append_left _ hg))
      fun g hg => hinserts g (List.mem_append_right _ hg),
    filter_linkPlace hplace linkPlace?_clearLinks, filter_linkPlace hplace linkPlace?_insertLink,
    List.singleton_append]

/-- A place of a record's links is in the link table of the field's relation, and on the left stands
the key of the record's row. -/
theorem linkPlace_ok (h : x.linkPlace f = .ok (table, left)) :
    (∃ relation, f.descriptor.relation? x.model = some relation ∧ table = c.linkTable relation) ∧
      x.address = .ok ((c.model x.model).table, left) := by
  obtain ⟨b, hb, h⟩ := bind_eq_ok.1 h
  obtain ⟨table', htable, h⟩ := bind_eq_ok.1 h
  obtain ⟨left', hleft, h⟩ := bind_eq_ok.1 h
  cases h
  refine ⟨?_, bind_eq_ok.2 ⟨b, hb, bind_eq_ok.2 ⟨left, hleft, rfl⟩⟩⟩
  rw [Bound.linkTable] at htable
  split at htable
  · rename_i relation hrelation
    exact ⟨relation, hrelation, (Except.ok.inj htable).symm⟩
  · cases htable

/-- The relation fields of a bound record have different columns. -/
theorem relations_columns_nodup {b : Bound c x.model} (hb : x.columns.bind = .ok b) :
    (x.relations.map (·.column)).Nodup := by
  obtain ⟨hcolumns, -⟩ := Columns.bind_eq_ok_iff.1 hb
  have hrecord : b.record = x := congrArg (Record.mk x.model) hcolumns
  rw [← hrecord, b.relations_record]
  exact b.columns_nodup.sublist (List.filter_sublist.map _)

end Record

/-! ## Replaced links -/

/-- Whether the relation fields of models have link tables of their own, each field another one. -/
def Models.SeparateLinks (ms : Models n) (entities : Set (Fin n)) : Prop :=
  ∀ i ∈ entities, ∀ j ∈ entities, ∀ d ∈ (ms.model i).descriptors, ∀ e ∈ (ms.model j).descriptors,
    ∀ r ∈ d.relation? i, ∀ s ∈ e.relation? j, ms.linkTable r = ms.linkTable s → i = j ∧ d = e

/-- Whether no two members of a record's family have a row in common. -/
def Record.SeparateRows (r : Record c) : Prop :=
  r.family.Pairwise fun x y => ∀ address, x.address = .ok address → y.address ≠ .ok address

namespace Record

variable {r x y : Record c} {f g : Field c} {xs ys : List (Record c)} {fs gs : List (Field c)}
  {place : String × Literal} {table : String} {left : Literal}

/-- Where fields have link tables of their own, only the same field of the same row has the same
place for its links. -/
theorem linkPlace_inj (hlinks : c.SeparateLinks (c.closure r.model)) (hx : x ∈ r.family)
    (hy : y ∈ r.family) (hf : f ∈ x.relations) (hg : g ∈ y.relations)
    (hfplace : x.linkPlace f = .ok place) (hgplace : y.linkPlace g = .ok place) :
    f.descriptor = g.descriptor ∧ ∃ address, x.address = .ok address ∧ y.address = .ok address := by
  obtain ⟨⟨relation, hrelation, htable⟩, hxaddress⟩ := linkPlace_ok hfplace
  obtain ⟨⟨relation', hrelation', htable'⟩, hyaddress⟩ := linkPlace_ok hgplace
  have hdescriptor : ∀ {z : Record c} {h : Field c}, h ∈ z.relations →
      h.descriptor ∈ (c.model z.model).descriptors := fun hh =>
    Columns.descriptor_mem _ (List.mem_filter.1 hh).1
  obtain ⟨hmodel, hsame⟩ := hlinks _ (family_closure hx) _ (family_closure hy) _ (hdescriptor hf) _
    (hdescriptor hg) _ hrelation _ hrelation' (htable.symm.trans htable')
  rw [← hmodel] at hyaddress
  exact ⟨hsame, _, hxaddress, hyaddress⟩

/-- Where a record's family has link tables and rows of its own, relinking it clears a place once
and then inserts the links of the field whose place it is. -/
theorem family_relinkings_filter (hlinks : c.SeparateLinks (c.closure r.model))
    (hrows : r.SeparateRows) (hx : x ∈ r.family) (hf : f ∈ x.relations)
    (hplace : x.linkPlace f = .ok (table, left)) :
    (r.family.flatMap relinkings).filter (·.linkPlace? = some (table, left))
      = .clearLinks x f :: f.records.map (.insertLink x f) := by
  obtain ⟨xs, ys, hfamily⟩ := List.append_of_mem hx
  obtain ⟨fs, gs, hrelations⟩ := List.append_of_mem hf
  have hothers : ∀ y ∈ xs ++ ys, y.relinkings.filter (·.linkPlace? = some (table, left)) = [] := by
    intro y hy
    refine relinkings_filter_of_ne fun g hg hgplace => ?_
    have hmem : y ∈ r.family := by
      rw [hfamily, List.mem_append, List.mem_cons]
      exact (List.mem_append.1 hy).imp_right .inr
    obtain ⟨-, address, hxaddress, hyaddress⟩ := linkPlace_inj hlinks hx hmem hf hg hplace hgplace
    rw [SeparateRows, hfamily, List.pairwise_append, List.pairwise_cons] at hrows
    obtain ⟨-, ⟨hafter, -⟩, hbefore⟩ := hrows
    rcases List.mem_append.1 hy with hy | hy
    · exact hbefore y hy x List.mem_cons_self address hyaddress hxaddress
    · exact hafter y hy address hxaddress hyaddress
  have hfields : ∀ g ∈ fs ++ gs, x.linkPlace g ≠ .ok (table, left) := by
    intro g hg hgplace
    have hmem : g ∈ x.relations := by
      rw [hrelations, List.mem_append, List.mem_cons]
      exact (List.mem_append.1 hg).imp_right .inr
    obtain ⟨hdescriptor, -⟩ := linkPlace_inj hlinks hx hx hf hmem hplace hgplace
    obtain ⟨b, hb, -⟩ := bind_eq_ok.1 hplace
    have hnodup := relations_columns_nodup hb
    rw [hrelations, List.map_append, List.map_cons, List.nodup_middle, ← List.map_append,
      List.nodup_cons] at hnodup
    have hcolumn : g.column = f.column := congrArg Descriptor.column hdescriptor.symm
    exact hnodup.1 (hcolumn ▸ List.mem_map_of_mem hg)
  rw [hfamily, filter_flatMap_of_unique (fun y hy => hothers y (List.mem_append_left _ hy))
    fun y hy => hothers y (List.mem_append_right _ hy)]
  exact relinkings_filter hrelations hplace hfields

end Record

/-- The statements that insert the links of a field have its place on the left and the keys of the
related records on the right. -/
theorem insertLink_statements {owner : Record c} {f : Field c} {table : String} {left : Literal}
    (hplace : owner.linkPlace f = .ok (table, left)) {records : List (Record c)}
    {ss : List Statement}
    (h : List.Forall₂ (fun related s => (Write.insertLink owner f related).statement = .ok s)
      records ss) :
    ∃ rights, records.mapM Record.keyLiteral = .ok rights ∧
      ss = rights.map (.insertLink table left) := by
  simp only [mapM_eq_ok_iff]
  induction h with
  | nil => exact ⟨[], .nil, rfl⟩
  | cons hs _ ih =>
      obtain ⟨rights, hrights, rfl⟩ := ih
      obtain ⟨table', left', right, hplace', hright, rfl⟩ := Write.statement_insertLink hs
      obtain ⟨rfl, rfl⟩ := Prod.mk.inj (Except.ok.inj (hplace.symm.trans hplace'))
      exact ⟨right :: rights, .cons hright hrights, rfl⟩

section Statements

variable {plan : List (Write c)} {ss : List Statement} {r x : Record c} {f : Field c}
  {store : LinkStore}

/-- The statements for a place are those of the writes for the place. -/
theorem filter_statements (h : List.Forall₂ (fun write s => write.statement = .ok s) plan ss)
    (place : String × Literal) :
    List.Forall₂ (fun write s => write.statement = .ok s)
      (plan.filter (·.linkPlace? = some place)) (ss.filter (·.linkPlace? = some place)) := by
  refine List.rel_filter (fun write s hs => ?_) h
  simp [Write.linkPlace?_statement hs]

/-- Statements that relink a family leave the links that its fields should have. -/
theorem Record.linked_of_relinkings (hlinks : c.SeparateLinks (c.closure r.model))
    (hrows : r.SeparateRows)
    (hss : List.Forall₂ (fun write s => write.statement = .ok s) (r.family.flatMap relinkings)
      (ss.filter (·.linkPlace?.isSome))) (hx : x ∈ r.family) (hf : f ∈ x.relations) :
    ∃ table left rights, x.linkPlace f = .ok (table, left) ∧
      f.records.mapM Record.keyLiteral = .ok rights ∧
      (store.runAll ss).linked table left = rights.map (left, ·) := by
  have hclear : Write.clearLinks x f ∈ r.family.flatMap relinkings :=
    List.mem_flatMap.2 ⟨x, hx, List.mem_append_left _ (List.mem_map_of_mem hf)⟩
  obtain ⟨s, -, hs⟩ := exists_of_forall₂ hss.flip hclear
  obtain ⟨table, left, hplace, rfl⟩ := Write.statement_clearLinks hs
  have hat := filter_statements hss (table, left)
  rw [family_relinkings_filter hlinks hrows hx hf hplace, List.forall₂_cons_left_iff] at hat
  obtain ⟨first, inserts, hfirst, hinserts, hat⟩ := hat
  obtain rfl := Except.ok.inj (hs.symm.trans hfirst)
  obtain ⟨rights, hrights, rfl⟩ :=
    insertLink_statements hplace (List.forall₂_map_left_iff.1 hinserts)
  refine ⟨table, left, rights, hplace, hrights, LinkStore.linked_of_replaced ?_⟩
  rw [← hat, List.filter_filter]
  refine List.filter_congr fun s _ => ?_
  by_cases h : s.linkPlace? = some (table, left) <;> simp [h]

/-- Statements that relink a family leave all links as they are but those of its fields. -/
theorem Record.pairs_of_relinkings
    (hss : List.Forall₂ (fun write s => write.statement = .ok s) (r.family.flatMap relinkings)
      (ss.filter (·.linkPlace?.isSome))) (table : String) :
    (store.runAll ss).pairs table (fun left => (table, left) ∉ r.linkPlaces)
      = store.pairs table (fun left => (table, left) ∉ r.linkPlaces) := by
  refine LinkStore.pairs_runAll fun s hs left hplace => ?_
  have hs : s ∈ ss.filter (·.linkPlace?.isSome) := List.mem_filter.2 ⟨hs, by rw [hplace]; rfl⟩
  obtain ⟨write, hwrite, hstatement⟩ := exists_of_forall₂ hss hs
  obtain ⟨x, hx, hwrite⟩ := List.mem_flatMap.1 hwrite
  obtain ⟨f, hf, hat⟩ := mem_relinkings hwrite
  have hmem : (table, left) ∈ r.linkPlaces := by
    refine List.mem_flatMap.2 ⟨x, hx, List.mem_filterMap.2 ⟨f, hf, ?_⟩⟩
    rw [← hat, ← Write.linkPlace?_statement hstatement, hplace]
  simpa using hmem

end Statements

namespace Session

/-- An update replaces the links of a record and of everything it owns: for each of their relation
fields the links are those to the records that the field holds, in order, whatever was linked
before. All other links stay as they were. -/
theorem update_replaces_links (r : Record c) (w : World σ)
    (h : ((update (d := d) r).run w).value.result = .ok ())
    (hlinks : c.SeparateLinks (c.closure r.model)) (hrows : r.SeparateRows) (store : LinkStore) :
    let updated := store.runAll (((update (d := d) r).run w).journal.filterMap Entry.written?)
    (∀ x ∈ r.family, ∀ f ∈ x.relations, ∃ table left rights, x.linkPlace f = .ok (table, left) ∧
        f.records.mapM Record.keyLiteral = .ok rights ∧
        updated.linked table left = rights.map (left, ·)) ∧
      ∀ table, updated.pairs table (fun left => (table, left) ∉ r.linkPlaces)
        = store.pairs table (fun left => (table, left) ∉ r.linkPlaces) := by
  have hrelinks := update_relinks h
  have hlinking : ((update (d := d) r).run w).journal.filterMap Entry.linking?
      = (((update (d := d) r).run w).journal.filterMap Entry.written?).filter
        (·.linkPlace?.isSome) := List.filter_filterMap.symm
  rw [Relinks, Follows, hlinking] at hrelinks
  exact ⟨fun x hx f hf => Record.linked_of_relinkings hlinks hrows hrelinks hx hf,
    Record.pairs_of_relinkings hrelinks⟩

/-! ## A branch -/

/-- The fields of nodes have link tables of their own. -/
theorem separateLinks_forest : forest.SeparateLinks (forest.closure 0) := by
  intro i _ j _
  rw [Fin.fin_one_eq_zero i, Fin.fin_one_eq_zero j]
  decide +kernel

/-- A branch and its child have rows of their own. -/
theorem separateRows_branch : (branch 2 1 (by decide) (by decide)).record.SeparateRows := by
  have hchild : (node 1 (by decide) .absent .nil).record.address
      = .ok ((forest.model 0).table, .integer 1) :=
    bind_eq_ok.2 ⟨_, bind_node, bind_eq_ok.2 ⟨.integer 1, rfl, rfl⟩⟩
  have hbranch : (branch 2 1 (by decide) (by decide)).record.address
      = .ok ((forest.model 0).table, .integer 2) :=
    bind_eq_ok.2 ⟨_, bind_node, bind_eq_ok.2 ⟨.integer 2, rfl, rfl⟩⟩
  refine List.pairwise_pair.2 fun address hfirst hsecond => ?_
  have haddress := Except.ok.inj (hchild.symm.trans (hfirst.trans (hsecond.symm.trans hbranch)))
  exact absurd (Prod.mk.inj haddress).2 (by decide)

/-- A branch can be updated. -/
theorem update_branch :
    ((update (d := numbering) (branch 2 1 (by decide) (by decide)).record).run
      ⟨2, forestCache⟩).value = ⟨(branch 2 1 (by decide) (by decide)).record, .ok ()⟩ := by
  let w : World UInt64 := ⟨2, forestCache⟩
  have hchild : ∃ journal, (updateHeld (d := numbering)
      (.entity (node 1 (by decide) .absent .nil).columns : Cell forest (.entity 0))).exec w
        = ⟨.ok (), w, journal⟩ :=
    ⟨_, updateHeld_run (u := w) (v := w) (x := w) bind_node rfl rfl rfl rfl⟩
  obtain ⟨journal, hchild⟩ := hchild
  have howned : (updateOwned (d := numbering) (branch 2 1 (by decide) (by decide)).columns).exec w
      = ⟨.ok (), w, journal⟩ := by
    show (updateOwned (.cons _ (.cons _ (.cons (.list (.cons _ .nil)) .nil)))).exec _ = _
    rw [updateOwned, if_neg (by decide), updateOwned, if_neg (by decide), updateOwned,
      if_pos (by decide), updateHeld, updateItems, updateItems, updateOwned]
    simp only [Task.exec_bind, Task.exec_pure, hchild, List.append_nil]
  have hbranch : ∃ later, (updateHeld (d := numbering)
      (.entity (branch 2 1 (by decide) (by decide)).columns : Cell forest (.entity 0))).exec w
        = ⟨.ok (), ⟨4, forestCache⟩, later⟩ :=
    ⟨_, updateHeld_run bind_node rfl howned rfl rfl⟩
  obtain ⟨later, hbranch⟩ := hbranch
  refine (operate_known (fun _ => Staged.task (updateHeld (.entity (branch 2 1 (by decide)
    (by decide)).columns : Cell forest (.entity 0)))) (fun _ _ => rfl)
    introspect_node (ensureSchema_forest 2)).trans ?_
  rw [Staged.exec_task, hbranch]
  rfl

/-- The update of a branch replaces a stale link of its own and leaves that of another node. -/
theorem update_branch_replaces_links :
    let r := (branch 2 1 (by decide) (by decide)).record
    let store : LinkStore := ⟨fun _ => [(.integer 2, .integer 7), (.integer 5, .integer 8)]⟩
    let updated := store.runAll
      (((update (d := numbering) r).run ⟨2, forestCache⟩).journal.filterMap Entry.written?)
    forest.SeparateLinks (forest.closure 0) ∧ r.SeparateRows ∧
      (∀ x ∈ r.family, ∀ f ∈ x.relations, ∃ table left rights, x.linkPlace f = .ok (table, left) ∧
        f.records.mapM Record.keyLiteral = .ok rights ∧
        updated.linked table left = rights.map (left, ·)) ∧
      ∀ table, updated.pairs table (fun left => (table, left) ∉ r.linkPlaces)
        = store.pairs table (fun left => (table, left) ∉ r.linkPlaces) := by
  intro r store updated
  exact ⟨separateLinks_forest, separateRows_branch, update_replaces_links r ⟨2, forestCache⟩
    (congrArg Attempt.result update_branch) separateLinks_forest separateRows_branch store⟩

end Session

end EntityMapper
