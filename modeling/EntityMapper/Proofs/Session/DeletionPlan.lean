import EntityMapper.Driver.Recorded
import EntityMapper.Proofs.Session.Insertion
import EntityMapper.Proofs.Session.Jobs

/-!
# How a deletion follows its plan

A record is deleted by its row and, for each record it holds, what that one takes along and the link
to it (`Record.deletions_eq`). A deletion calls for these one after the other and for nothing else,
and halts at the first that is not answered with one affected row (`DeletionRun`,
`Session.delete_follows_plan`).
-/

namespace EntityMapper

open Sql

variable {n : Nat} {c : Catalog n} {k : Fin n} {σ α β : Type} {d : Driver σ}

/-! ## Deletions of a record -/

mutual

/-- The deletions of the records that a field of a record holds, if they are owned, and of the link
to each. -/
def Cell.deletions (f : Field c) : {t : ColumnType n} → Cell c t → Record c → List (Write c)
  | .entity k, .entity columns, owner =>
      (if f.descriptor.type.isOwnedRelation then
        .deleteRow ⟨k, columns⟩ :: columns.deletions ⟨k, columns⟩ (c.model k).descriptors
      else []) ++ [.deleteLink owner f ⟨k, columns⟩]
  | _, .present inner, owner => inner.deletions f owner
  | _, .boxed inner, owner => inner.deletions f owner
  | _, .list items, owner => items.deletions f owner
  | _, _, _ => []

/-- The deletions of the records that the items of a list hold, and of the link to each. -/
def Items.deletions (f : Field c) : {t : ColumnType n} → Items c t → Record c → List (Write c)
  | _, .nil, _ => []
  | _, .cons item items, owner => item.deletions f owner ++ items.deletions f owner

/-- The deletions that the columns of a record bring along. -/
def Columns.deletions : {ts : List (ColumnType n)} → Columns c ts → Record c →
    List (Descriptor n) → List (Write c)
  | _, .nil, _, _ => []
  | t :: _, .cons cell cells, owner, ds =>
      match ds with
      | [] => []
      | d :: ds =>
          (if d.type.isRelation then cell.deletions ⟨d, t, cell⟩ owner else []) ++
            cells.deletions owner ds

end

/-- The deletions of a record, of everything it owns, and of the links of all these. -/
def Record.deletions (r : Record c) : List (Write c) :=
  .deleteRow r :: r.columns.deletions r (c.model r.model).descriptors

mutual

/-- What a field of a record brings along: for each record it holds, what that one brings along
where it is owned, and then the link to it. -/
theorem Cell.deletions_eq {f : Field c} {owner : Record c} {t : ColumnType n} : (cell : Cell c t) →
    cell.deletions f owner = cell.records.flatMap fun x =>
      (if f.descriptor.type.isOwnedRelation then x.deletions else []) ++ [.deleteLink owner f x]
  | .bool _ | .integer _ _ | .float _ | .double _ | .text _ | .dateTime _ | .raw _ | .absent => by
      simp [Cell.deletions, Cell.records]
  | .entity columns => by
      rw [Cell.deletions, Cell.records, List.flatMap_singleton]
      rfl
  | .present inner => by rw [Cell.deletions, Cell.records, inner.deletions_eq]
  | .boxed inner => by rw [Cell.deletions, Cell.records, inner.deletions_eq]
  | .list items => by rw [Cell.deletions, Cell.records, items.deletions_eq]

theorem Items.deletions_eq {f : Field c} {owner : Record c} {t : ColumnType n} :
    (items : Items c t) → items.deletions f owner = items.records.flatMap fun x =>
      (if f.descriptor.type.isOwnedRelation then x.deletions else []) ++ [.deleteLink owner f x]
  | .nil => rfl
  | .cons item items => by
      rw [Items.deletions, Items.records, item.deletions_eq, items.deletions_eq,
        List.flatMap_append]

end

theorem Columns.deletions_eq {ts : List (ColumnType n)} (columns : Columns c ts)
    (owner : Record c) (ds : List (Descriptor n)) :
    columns.deletions owner ds = ((columns.fields ds).filter (·.descriptor.type.isRelation)).flatMap
      fun f => f.cell.deletions f owner := by
  induction ts generalizing ds with
  | nil =>
      cases columns
      rfl
  | cons t ts ih =>
      cases columns with
      | cons cell cells =>
          cases ds with
          | nil => rfl
          | cons d ds =>
              rw [Columns.deletions, Columns.fields, List.filter_cons]
              dsimp only
              rw [ih cells ds]
              split
              · rfl
              · rfl

/-- A record is deleted by its row and, for each record of each relation field, in order, what that
one brings along where it is owned, and then the link to it. -/
theorem Record.deletions_eq (r : Record c) :
    r.deletions = .deleteRow r :: r.relations.flatMap fun f => f.records.flatMap fun x =>
      (if f.descriptor.type.isOwnedRelation then x.deletions else []) ++ [.deleteLink r f x] := by
  rw [deletions, r.columns.deletions_eq]
  refine congrArg (_ :: ·) (List.flatMap_congr fun f _ => ?_)
  exact f.cell.deletions_eq

/-! ## Runs of deletions -/

/-- Whether a call runs the statement of a deletion. -/
def IssuedBy (write : Write c) (made : Made) : Prop :=
  ∃ s, write.statement = .ok s ∧ made.call = .delete s

/-- Whether a call made a deletion, which has affected one row. -/
inductive DeletedBy : Write c → Made → Prop
  | row {r : Record c} {s : Statement} (hs : (Write.deleteRow r).statement = .ok s) :
      DeletedBy (.deleteRow r) ⟨.delete s, .ok (1 : UInt64)⟩
  | link {owner : Record c} {f : Field c} {related : Record c} {s : Statement}
      (hs : (Write.deleteLink owner f related).statement = .ok s) :
      DeletedBy (.deleteLink owner f related) ⟨.delete s, .ok (1 : UInt64)⟩

/-- Whether the calls of a journal are the deletions of a plan, in order. -/
abbrev Deletes (plan : List (Write c)) (journal : List Entry) : Prop :=
  Follows Entry.made? DeletedBy plan journal

theorem DeletedBy.issuedBy {write : Write c} {made : Made} (h : DeletedBy write made) :
    IssuedBy write made := by
  cases h with
  | row hs | link hs => exact ⟨_, hs, rfl⟩

/-- Deletions that were made have affected one row each. -/
theorem answers_of_deletedBy {plan : List (Write c)} {made : List Made}
    (h : List.Forall₂ DeletedBy plan made) :
    ∀ call ∈ made, ∃ s, call = ⟨.delete s, .ok (1 : UInt64)⟩ := by
  intro call hcall
  obtain ⟨write, -, hwrite⟩ := exists_of_forall₂ h hcall
  cases hwrite with
  | row | link => exact ⟨_, rfl⟩

/-- A list ends with the first item that is not among those before its last one. -/
theorem last_of_not_mem {xs before after : List β} {last x : β}
    (h : xs ++ [last] = before ++ x :: after) (hx : x ∉ xs) : after = [] ∧ last = x := by
  rcases List.eq_nil_or_concat' after with rfl | ⟨after', y, rfl⟩
  · obtain ⟨-, hlast⟩ := List.append_inj' h rfl
    exact ⟨rfl, List.head_eq_of_cons_eq hlast⟩
  · have h : xs ++ [last] = (before ++ x :: after') ++ [y] := by
      rw [h, List.append_assoc, List.cons_append]
    obtain ⟨rfl, -⟩ := List.append_inj' h rfl
    exact absurd (List.mem_append_right _ List.mem_cons_self) hx

/-- What a run comes to that is to make the deletions of a plan. It makes them all; or a statement
of those that are left cannot be rendered; or the statement of the next one fails, or affects another
number of rows than one. -/
inductive DeletionRun : List (Write c) → Option MapperError → List Made → Prop
  | done {plan : List (Write c)} {made : List Made} (h : List.Forall₂ DeletedBy plan made) :
      DeletionRun plan none made
  | unstated {plan rest : List (Write c)} {made : List Made} {write : Write c} {e : MapperError}
      (h : List.Forall₂ DeletedBy plan made) (hwrite : write ∈ rest)
      (hs : write.statement = .error e) : DeletionRun (plan ++ rest) (some e) made
  | refused {plan rest : List (Write c)} {made : List Made} {write : Write c} {s : Statement}
      {e : DriverError} (h : List.Forall₂ DeletedBy plan made) (hs : write.statement = .ok s) :
      DeletionRun (plan ++ write :: rest) (some (.driver e)) (made ++ [⟨.delete s, .error e⟩])
  | miscounted {plan rest : List (Write c)} {made : List Made} {write : Write c} {s : Statement}
      {count : UInt64} (h : List.Forall₂ DeletedBy plan made) (hs : write.statement = .ok s)
      (hcount : count ≠ 1) :
      DeletionRun (plan ++ write :: rest) (some (.rowCount s.table count))
        (made ++ [⟨.delete s, .ok count⟩])

namespace DeletionRun

variable {plan plan' : List (Write c)} {failure : Option MapperError} {made made' : List Made}

/-- A run that does not fail makes all deletions of its plan. -/
theorem deleted (h : DeletionRun plan none made) : List.Forall₂ DeletedBy plan made := by
  cases h with
  | done h => exact h

/-- A run goes on with another plan. -/
theorem append (h : DeletionRun plan none made) (hlater : DeletionRun plan' failure made') :
    DeletionRun (plan ++ plan') failure (made ++ made') := by
  have h := h.deleted
  cases hlater with
  | done hlater => exact .done (List.rel_append h hlater)
  | unstated hlater hwrite hs =>
      rw [← List.append_assoc]
      exact .unstated (List.rel_append h hlater) hwrite hs
  | refused hlater hs =>
      rw [← List.append_assoc, ← List.append_assoc]
      exact .refused (List.rel_append h hlater) hs
  | miscounted hlater hs hcount =>
      rw [← List.append_assoc, ← List.append_assoc]
      exact .miscounted (List.rel_append h hlater) hs hcount

/-- A run that fails leaves the rest of a longer plan undone. -/
theorem halt {e : MapperError} (h : DeletionRun plan (some e) made) (later : List (Write c)) :
    DeletionRun (plan ++ later) (some e) made := by
  cases h with
  | unstated h hwrite hs =>
      rw [List.append_assoc]
      exact .unstated h (List.mem_append_left _ hwrite) hs
  | refused h hs =>
      rw [List.append_assoc]
      exact .refused h hs
  | miscounted h hs hcount =>
      rw [List.append_assoc]
      exact .miscounted h hs hcount

/-- The calls of a run are the first ones of its plan. -/
theorem issues (h : DeletionRun plan failure made) :
    ∃ issued rest, plan = issued ++ rest ∧ List.Forall₂ IssuedBy issued made := by
  have hissued : ∀ {plan : List (Write c)} {made : List Made}, List.Forall₂ DeletedBy plan made →
      List.Forall₂ IssuedBy plan made := fun h => h.imp fun _ _ => DeletedBy.issuedBy
  cases h with
  | done h => exact ⟨plan, [], (List.append_nil plan).symm, hissued h⟩
  | @unstated plan rest made _ _ h => exact ⟨plan, rest, rfl, hissued h⟩
  | @refused plan rest _ write s _ h hs | @miscounted plan rest _ write s _ h hs =>
      exact ⟨plan ++ [write], rest, (List.append_assoc plan [write] rest).symm,
        List.rel_append (hissued h) (.cons ⟨s, hs, rfl⟩ .nil)⟩

/-- A count other than one is the last answer of a run, which fails with it. -/
theorem miscount {before after : List Made} {s : Statement} {count : UInt64}
    (h : DeletionRun plan failure made) (hmade : made = before ++ ⟨.delete s, .ok count⟩ :: after)
    (hcount : count ≠ 1) : after = [] ∧ failure = some (.rowCount s.table count) := by
  have hstray : ∀ {plan : List (Write c)} {made : List Made}, List.Forall₂ DeletedBy plan made →
      ⟨.delete s, .ok count⟩ ∉ made := fun hall hmem => by
    obtain ⟨_, hanswer⟩ := answers_of_deletedBy hall _ hmem
    cases hanswer
    exact hcount rfl
  cases h with
  | done h | unstated h =>
      exact absurd (hmade ▸ List.mem_append_right _ List.mem_cons_self) (hstray h)
  | refused h =>
      obtain ⟨-, hlast⟩ := last_of_not_mem hmade (hstray h)
      cases hlast
  | miscounted h =>
      obtain ⟨rfl, hlast⟩ := last_of_not_mem hmade (hstray h)
      cases hlast
      exact ⟨rfl, rfl⟩

/-- A run succeeds where all deletions have statements and all calls affect one row. -/
theorem succeeds (h : DeletionRun plan failure made)
    (hstated : ∀ write ∈ plan, ∃ s, write.statement = .ok s)
    (hone : ∀ call ∈ made, ∃ s, call = ⟨.delete s, .ok (1 : UInt64)⟩) : failure = none := by
  cases h with
  | done => rfl
  | unstated _ hwrite hs =>
      obtain ⟨s, hs'⟩ := hstated _ (List.mem_append_right _ hwrite)
      cases hs.symm.trans hs'
  | refused =>
      obtain ⟨_, hmade⟩ := hone _ (List.mem_append_right _ List.mem_cons_self)
      cases hmade
  | miscounted _ _ hcount =>
      obtain ⟨_, hmade⟩ := hone _ (List.mem_append_right _ List.mem_cons_self)
      cases hmade
      exact absurd rfl hcount

/-- A run succeeds where it makes all deletions of its plan, and only there. -/
theorem failure_eq_none_iff (h : DeletionRun plan failure made) :
    failure = none ↔ List.Forall₂ DeletedBy plan made := by
  refine ⟨fun hnone => (hnone ▸ h).deleted, fun hall => ?_⟩
  refine h.succeeds (fun write hwrite => ?_) (answers_of_deletedBy hall)
  obtain ⟨_, -, hdeleted⟩ := exists_of_forall₂ hall.flip hwrite
  obtain ⟨s, hs, -⟩ := DeletedBy.issuedBy hdeleted
  exact ⟨s, hs⟩

end DeletionRun

namespace Task

/-- Whether every run of a task makes the deletions of a plan, or halts at one of them, and answers
what it should where it succeeds. -/
def Carries (plan : List (Write c)) (post : α → Prop) (t : Task d α) : Prop :=
  ∀ w, DeletionRun plan (failure? (t.exec w).value) ((t.exec w).journal.filterMap Entry.made?) ∧
    ∀ a, (t.exec w).value = .ok a → post a

variable {plan plan' : List (Write c)} {mid : α → Prop} {post : β → Prop} {t : Task d α}
  {f : α → Task d β}

/-- Two tasks in a row carry out one plan after the other. -/
theorem Carries.bind (ht : t.Carries plan mid) (hf : ∀ a, mid a → (f a).Carries plan' post) :
    (t >>= f).Carries (plan ++ plan') post := by
  intro w
  obtain ⟨hrun, hmid⟩ := ht w
  rw [exec_bind]
  cases hvalue : (t.exec w).value with
  | ok a =>
      obtain ⟨hlater, hpost⟩ := hf a (hmid a hvalue) (t.exec w).world
      rw [hvalue] at hrun
      refine ⟨?_, hpost⟩
      dsimp only
      rw [List.filterMap_append]
      exact hrun.append hlater
  | error e =>
      rw [hvalue] at hrun
      exact ⟨hrun.halt plan', fun b h => by cases h⟩

theorem Carries.pure {b : β} (h : post b) : (pure b : Task d β).Carries ([] : List (Write c)) post :=
  fun _ => ⟨.done .nil, fun _ hb => Except.ok.inj hb ▸ h⟩

/-- A task whose answer is only changed. -/
theorem Carries.map {g : α → β} (ht : t.Carries plan mid) (h : ∀ a, mid a → post (g a)) :
    (t >>= fun a => Pure.pure (g a)).Carries plan post := by
  have hmap : (t >>= fun a => Pure.pure (g a)).Carries (plan ++ []) post :=
    ht.bind fun a ha => .pure (h a ha)
  rwa [List.append_nil] at hmap

/-- A task whose answer is passed over. -/
theorem Carries.discard (ht : t.Carries plan mid) :
    (discard t : Task d Unit).Carries plan fun _ => True :=
  ht.map fun _ _ => trivial

/-- A task on a checked result, which may fail only where a statement of the plan does. -/
theorem Carries.ofExcept_bind {result : Except MapperError α}
    (herror : ∀ e, result = .error e → ∃ write ∈ plan, write.statement = .error e)
    (hf : ∀ a, result = .ok a → (f a).Carries plan post) :
    (Task.ofExcept result >>= f).Carries plan post := by
  cases result with
  | ok a => exact hf a rfl
  | error e =>
      obtain ⟨write, hwrite, hs⟩ := herror e rfl
      intro w
      exact ⟨.unstated .nil hwrite hs, fun b h => by cases h⟩

end Task

/-! ## Carrying out a plan -/

/-- A record that a field holds is unlinked. -/
theorem Cell.mem_deletions {f : Field c} {owner x : Record c} {t : ColumnType n} {cell : Cell c t}
    (hx : x ∈ cell.records) : .deleteLink owner f x ∈ cell.deletions f owner := by
  rw [Cell.deletions_eq]
  exact List.mem_flatMap.2 ⟨x, hx, List.mem_append_right _ List.mem_cons_self⟩

namespace Bound

variable {b : Bound c k} {f : Field c} {x : Record c} {s : Statement} {table : String}

/-- A row is deleted from the table of the record. -/
theorem deleteRow_table (h : b.deleteRow = .ok s) : s.table = b.table := by
  obtain ⟨clause, -, h⟩ := bind_eq_ok.1 h
  cases h
  rfl

/-- A link is deleted from the link table of the field. -/
theorem deleteLink_table (htable : b.linkTable f = .ok table) (h : b.deleteLink f x = .ok s) :
    s.table = table := by
  obtain ⟨table', htable', h⟩ := bind_eq_ok.1 h
  obtain ⟨left, -, h⟩ := bind_eq_ok.1 h
  obtain ⟨right, -, h⟩ := bind_eq_ok.1 h
  cases h
  exact Except.ok.inj (htable'.symm.trans htable)

/-- A relation field has a link table. -/
theorem linkTable_succeeds (h : f.descriptor.type.isRelation = true) :
    ∃ table, b.linkTable f = .ok table := by
  obtain ⟨relation, hrelation⟩ := Option.isSome_iff_exists.1 h
  refine ⟨c.linkTable ⟨k, f.descriptor.name, relation.model, relation.isPointer⟩, ?_⟩
  rw [linkTable, Descriptor.relation?, hrelation]
  rfl

end Bound

namespace Session

variable {b : Bound c k} {w : World σ}

/-- A deletion makes one call, which is to affect one row. -/
theorem deleteOne_carries {table : String} {write : Write c} {s : Statement}
    (h : DeletedBy write ⟨.delete s, .ok (1 : UInt64)⟩) (htable : s.table = table) :
    (deleteOne table s : Task d Unit).Carries [write] fun _ => True := by
  subst htable
  obtain ⟨s', hs, hcall⟩ := h.issuedBy
  cases hcall
  intro w
  refine ⟨?_, fun _ _ => trivial⟩
  obtain ⟨answer, after, hstep⟩ : ∃ (answer : Except DriverError UInt64) (after : σ),
      d.step (.delete s) w.driver = (answer, after) := ⟨_, _, rfl⟩
  have hdelete : (Task.delete s : Task d UInt64).exec w = ⟨answer.mapError .driver,
      { w with driver := after }, [.event (.statement .delete s), .call (.delete s) answer]⟩ :=
    Task.exec_reported (.statement .delete s) hstep
  cases answer with
  | error e =>
      have hrun : (deleteOne s.table s : Task d Unit).exec w = _ := Task.exec_bind_error hdelete
      rw [hrun]
      exact (.refused .nil hs : DeletionRun ([] ++ [write]) _ ([] ++ [_]))
  | ok count =>
      by_cases hcount : count = 1
      · subst hcount
        have hrun : (deleteOne s.table s : Task d Unit).exec w = ⟨.ok (), _, _⟩ :=
          Task.exec_bind_eq hdelete rfl
        rw [hrun]
        exact .done (.cons h .nil)
      · have hrun : (deleteOne s.table s : Task d Unit).exec w = ⟨.error (.rowCount s.table count),
            _, _⟩ := Task.exec_bind_eq hdelete (by rw [if_pos (bne_iff_ne.2 hcount)]; rfl)
        rw [hrun]
        exact (.miscounted .nil hs hcount : DeletionRun ([] ++ [write]) _ ([] ++ [_]))

/-- The row of a record is deleted by one call. -/
theorem deleteRow_carries (hb : b.columns.bind = .ok b) :
    (deleteRow b : Task d Unit).Carries [.deleteRow b.record] fun _ => True := by
  have hstatement : (Write.deleteRow b.record).statement = b.deleteRow :=
    Bound.bind_record hb (·.deleteRow)
  refine .ofExcept_bind (fun e he => ⟨_, List.mem_cons_self, hstatement.trans he⟩) fun s hs => ?_
  exact deleteOne_carries (.row (hstatement.trans hs)) (Bound.deleteRow_table hs)

mutual

/-- Deleting what a field of a record holds carries out the plan for the field and uses up the links
that belong to it. -/
theorem deleteHeld_carries {f : Field c} {owner : Record c} {table : String} {t : ColumnType n} :
    (cell : Cell c t) → {links : List Statement} → (rest : List Statement) →
    List.Forall₂ (fun x s => (Write.deleteLink owner f x).statement = .ok s ∧ s.table = table)
      cell.records links →
    (deleteHeld f.descriptor.type.isOwnedRelation table cell (links ++ rest) :
      Task d (List Statement)).Carries (cell.deletions f owner) (· = rest)
  | .bool _, _, _, hlinks | .integer _ _, _, _, hlinks | .float _, _, _, hlinks
  | .double _, _, _, hlinks | .text _, _, _, hlinks | .dateTime _, _, _, hlinks
  | .raw _, _, _, hlinks | .absent, _, _, hlinks => by
      cases hlinks
      exact .pure rfl
  | .entity (k := k) columns, _, rest, hlinks => by
      obtain ⟨link, _, ⟨hlink, htable⟩, hnone, rfl⟩ := List.forall₂_cons_left_iff.1 hlinks
      cases hnone
      -- The link comes last, whether or not the record itself is deleted.
      have hlast : Task.Carries [.deleteLink owner f ⟨k, columns⟩] (· = rest) (do
          deleteOne table link
          return rest : Task d (List Statement)) :=
        (deleteOne_carries (.link hlink) htable).map fun _ _ => rfl
      rw [List.singleton_append, deleteHeld, Cell.deletions]
      split
      · refine .ofExcept_bind (fun e he => ⟨.deleteRow ⟨k, columns⟩, List.mem_cons_self, ?_⟩)
          fun b hb => ?_
        · rw [Write.statement, he]
          rfl
        · obtain ⟨hcolumns, -⟩ := Columns.bind_eq_ok_iff.1 hb
          have hrelated := deleteRelated_carries (hcolumns ▸ hb) columns b.descriptors
          subst hcolumns
          rw [EntityModel.descriptors_of_describe b.described]
          exact (deleteRow_carries hb).bind fun _ _ => hrelated.bind fun _ _ => hlast
      · exact hlast
  | .present inner, _, rest, hlinks => by
      rw [deleteHeld]
      exact deleteHeld_carries inner rest hlinks
  | .boxed inner, _, rest, hlinks => by
      rw [deleteHeld]
      exact deleteHeld_carries inner rest hlinks
  | .list items, _, rest, hlinks => by
      rw [deleteHeld]
      exact deleteItems_carries items rest hlinks

theorem deleteItems_carries {f : Field c} {owner : Record c} {table : String} {t : ColumnType n} :
    (items : Items c t) → {links : List Statement} → (rest : List Statement) →
    List.Forall₂ (fun x s => (Write.deleteLink owner f x).statement = .ok s ∧ s.table = table)
      items.records links →
    (deleteItems f.descriptor.type.isOwnedRelation table items (links ++ rest) :
      Task d (List Statement)).Carries (items.deletions f owner) (· = rest)
  | .nil, _, _, hlinks => by
      cases hlinks
      exact .pure rfl
  | .cons item items, _, rest, hlinks => by
      obtain ⟨links, links', rfl, hlinks, hlinks'⟩ := split_of_forall₂_append hlinks
      rw [deleteItems, List.append_assoc]
      refine (deleteHeld_carries item _ hlinks).bind ?_
      rintro _ rfl
      exact deleteItems_carries items rest hlinks'

/-- Deleting what the fields of a record hold carries out the plans for its relation fields. -/
theorem deleteRelated_carries {k : Fin n} {b : Bound c k} (hb : b.columns.bind = .ok b)
    {ts : List (ColumnType n)} : (columns : Columns c ts) → (ds : List (Descriptor n)) →
    (deleteRelated b columns ds : Task d Unit).Carries (columns.deletions b.record ds) fun _ => True
  | .nil, _ => .pure trivial
  | .cons cell cells, [] => .pure trivial
  | .cons (t := t) cell cells, descriptor :: ds => by
      have hstatement : ∀ x, (Write.deleteLink b.record ⟨descriptor, t, cell⟩ x).statement =
          b.deleteLink ⟨descriptor, t, cell⟩ x := fun x => Bound.bind_record hb (·.deleteLink _ x)
      rw [deleteRelated, Columns.deletions]
      dsimp only
      split
      · rename_i hrelation
        refine .ofExcept_bind (fun e he => ?_) fun links hlinks => ?_
        · obtain ⟨x, hx, hs⟩ := exists_of_mapM_eq_error he
          exact ⟨_, List.mem_append_left _ (Cell.mem_deletions hx), (hstatement x).trans hs⟩
        · obtain ⟨table, htable⟩ := b.linkTable_succeeds (f := ⟨descriptor, t, cell⟩) hrelation
          rw [htable]
          have hheld : List.Forall₂ (fun x s =>
              (Write.deleteLink b.record ⟨descriptor, t, cell⟩ x).statement = .ok s ∧
                s.table = table) cell.records links :=
            (mapM_eq_ok_iff.1 hlinks).imp fun x s hs =>
              ⟨(hstatement x).trans hs, Bound.deleteLink_table htable hs⟩
          have hcell := deleteHeld_carries cell [] hheld
          rw [List.append_nil] at hcell
          exact hcell.discard.bind fun _ _ => deleteRelated_carries hb cells ds
      · exact deleteRelated_carries hb cells ds

end

/-- Deleting a record carries out its plan. -/
theorem deleteRecord_carries (hb : b.columns.bind = .ok b) :
    (deleteRecord b : Task d Unit).Carries b.record.deletions fun _ => True := by
  have hplan : b.record.deletions
      = [.deleteRow b.record] ++ b.columns.deletions b.record b.descriptors := by
    rw [Record.deletions]
    show _ :: b.columns.deletions _ (c.model k).descriptors = _
    rw [EntityModel.descriptors_of_describe b.described]
    rfl
  rw [hplan]
  exact (deleteRow_carries hb).bind fun _ _ => deleteRelated_carries hb _ _

/-- What deleting a record comes to: it leaves the record as it is and carries out its plan, unless
it cannot be introspected. -/
theorem delete_run (r : Record c) (w : World σ) :
    let left := (delete (d := d) r).run w
    let made := left.journal.filterMap Entry.made?
    left.value.storage = r ∧ match r.introspect with
      | .error e => left.value.result = .error e ∧ made = []
      | .ok _ => DeletionRun r.deletions (failure? left.value.result) made := by
  rw [delete, Staged.run_operate]
  simp only [Staged.exec_bind, Staged.exec_ofExcept, Staged.exec_advance, Staged.exec_task]
  cases hintrospect : r.introspect with
  | error e => exact ⟨rfl, rfl, rfl⟩
  | ok bound =>
      obtain ⟨b, dependencies⟩ := bound
      obtain ⟨-, hb⟩ := Record.introspect_eq_ok_iff.1 hintrospect
      obtain ⟨hcolumns, -⟩ := Columns.bind_eq_ok_iff.1 hb
      have hrecord : b.record = r := congrArg (Record.mk r.model) hcolumns
      obtain ⟨hrun, -⟩ := deleteRecord_carries (d := d) (b := b) (hcolumns ▸ hb) w
      rw [hrecord] at hrun
      refine ⟨rfl, ?_⟩
      dsimp only
      obtain ⟨events, hclosing⟩ := Staged.closing_reports .delete (c.model r.model).name
        (((deleteRecord (d := d) b).exec w).value,
          (⟨.delete, (c.model r.model).name, .executing, r⟩ : Progress (Record c)))
      rw [hclosing, List.filterMap_cons]
      simp only [List.filterMap_append, made_reports, List.append_nil]
      exact hrun

/-- A deletion makes the calls of its plan, and no other, and leaves the record as it is. -/
theorem delete_attains (r : Record c) :
    (delete r : Action d (Attempt (Record c) Unit)).Attains w fun after journal =>
      after = r ∧ Deletes r.deletions journal := by
  intro h
  obtain ⟨hstorage, hrun⟩ := delete_run (d := d) r w
  rw [h] at hrun
  cases hintrospect : r.introspect with
  | error e =>
      rw [hintrospect] at hrun
      cases hrun.1
  | ok bound =>
      rw [hintrospect] at hrun
      exact ⟨hstorage, hrun.deleted⟩

/-- A deletion follows its plan. The calls it makes run the statements of the first deletions of the
plan. It succeeds where it has made all of them and each has affected one row, and only there. A
statement that affects another number of rows is the last one, and the deletion fails with its table
and that number. Nothing but a failure halts it: if the record can be introspected, all deletions
have statements and all calls affect one row, it succeeds. -/
theorem delete_follows_plan (r : Record c) (w : World σ) :
    let left := (delete (d := d) r).run w
    let made := left.journal.filterMap Entry.made?
    (∃ issued rest, r.deletions = issued ++ rest ∧ List.Forall₂ IssuedBy issued made) ∧
      (left.value.result = .ok () ↔ List.Forall₂ DeletedBy r.deletions made) ∧
      (∀ before after s count, made = before ++ ⟨.delete s, .ok count⟩ :: after →
        count ≠ (1 : UInt64) →
        after = [] ∧ left.value.result = .error (.rowCount s.table count)) ∧
      ((∃ bound, r.introspect = .ok bound) →
        (∀ write ∈ r.deletions, ∃ s, write.statement = .ok s) →
        (∀ call ∈ made, ∃ s, call = ⟨.delete s, .ok (1 : UInt64)⟩) →
        left.value.result = .ok ()) := by
  intro left made
  obtain ⟨-, hrun⟩ := delete_run (d := d) r w
  cases hintrospect : r.introspect with
  | error e =>
      rw [hintrospect] at hrun
      obtain ⟨hresult, hmade⟩ := hrun
      have hresult : left.value.result = .error e := hresult
      have hmade : made = [] := hmade
      rw [hresult, hmade, Record.deletions]
      refine ⟨⟨[], _, rfl, .nil⟩, ⟨?_, ?_⟩, ?_, ?_⟩
      · rintro ⟨⟩
      · rintro ⟨⟩
      · intro before after s count h
        cases before <;> cases h
      · rintro ⟨bound, h⟩
        cases h
  | ok bound =>
      rw [hintrospect] at hrun
      have hrun : DeletionRun r.deletions (failure? left.value.result) made := hrun
      have hok : left.value.result = .ok () ↔ failure? left.value.result = none :=
        ⟨fun h => by rw [h]; rfl, fun h => (eq_ok_of_failure? h).elim fun _ h => h⟩
      refine ⟨hrun.issues, hok.trans hrun.failure_eq_none_iff, ?_, ?_⟩
      · intro before after s count hmade hcount
        obtain ⟨hafter, hfailure⟩ := hrun.miscount hmade hcount
        exact ⟨hafter, eq_error_of_failure? hfailure⟩
      · intro _ hstated hone
        exact hok.2 (hrun.succeeds hstated hone)

end Session

/-- The deletion of a branch that is not linked to its parent goes no further than that link. -/
theorem Session.delete_follows_plan_branch :
    let row := Statement.deleteRow (forest.model 0).table ⟨"id", .integer 2⟩
    let link := Statement.deleteLink (forest.linkTable ⟨0, "parent", 0, true⟩) (.integer 2)
      (.integer 9)
    let left := (delete (d := Recorded.driver) (branch 2 1 (by decide) (by decide)).record).run
      ⟨(Recorded.fresh.pushDeleted 1).pushDeleted 0, forestCache⟩
    left.journal.filterMap Entry.made? =
        [⟨.delete row, .ok (1 : UInt64)⟩, ⟨.delete link, .ok (0 : UInt64)⟩] ∧
      left.value.result = .error (.rowCount link.table 0) := by
  intro row link left
  have hintrospect : (branch 2 1 (by decide) (by decide)).record.introspect
      = .ok (branch 2 1 (by decide) (by decide), []) := introspect_node
  have hmade : left.journal.filterMap Entry.made? =
      [⟨.delete row, .ok (1 : UInt64)⟩, ⟨.delete link, .ok (0 : UInt64)⟩] := by
    show ((delete _).run _).journal.filterMap _ = _
    rw [delete, Staged.run_operate]
    simp only [Staged.exec_bind, Staged.exec_ofExcept, hintrospect, Staged.exec_advance,
      Staged.exec_task]
    rfl
  obtain ⟨-, -, hcount, -⟩ := delete_follows_plan (d := Recorded.driver)
    (branch 2 1 (by decide) (by decide)).record
    ⟨(Recorded.fresh.pushDeleted 1).pushDeleted 0, forestCache⟩
  exact ⟨hmade, (hcount [_] [] link 0 hmade (by decide)).2⟩

end EntityMapper
