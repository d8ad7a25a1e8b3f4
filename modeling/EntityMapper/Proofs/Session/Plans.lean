import EntityMapper.Proofs.Session.Schema
import EntityMapper.Proofs.Storage.Family
import EntityMapper.Session.Write

/-!
# Plans of writes

What an operation is to issue for a record is a plan: a list of writes, each of which stands for a
statement. A journal follows a plan when the calls that count for it are those of the plan, in order
(`Follows`). A record is inserted by its family, one member after the other, each with its links
(`Record.insertions_eq`).
-/

namespace EntityMapper

open Sql

variable {n : Nat} {c : Catalog n} {k : Fin n} {σ α β γ : Type} {d : Driver σ}

/-! ## Writes -/

/-- A change of the row of a record or of its links. -/
inductive Write (c : Catalog n)
  | insertRow (r : Record c)
  | deleteRow (r : Record c)
  | insertLink (owner : Record c) (f : Field c) (related : Record c)
  | deleteLink (owner : Record c) (f : Field c) (related : Record c)
  | clearLinks (owner : Record c) (f : Field c)

/-- The statement of a write. -/
def Write.statement : Write c → Except MapperError Statement
  | insertRow r => do (← r.columns.bind).insertRow
  | deleteRow r => do (← r.columns.bind).deleteRow
  | insertLink owner f related => do (← owner.columns.bind).insertLink f related
  | deleteLink owner f related => do (← owner.columns.bind).deleteLink f related
  | clearLinks owner f => do (← owner.columns.bind).clearLinks f

/-- Once a record is bound, whatever its statements need of it is at hand. -/
theorem Bound.bind_record {b : Bound c k} (hb : b.columns.bind = .ok b)
    (render : Bound c k → Except MapperError β) :
    (b.record.columns.bind >>= render) = render b := by
  show (b.columns.bind >>= render) = render b
  rw [hb]
  rfl

/-- Whether a record binds is a matter of its model. -/
theorem Bound.bind_of_bind {b b' : Bound c k} (hb : b.columns.bind = .ok b) :
    b'.columns.bind = .ok b' := by
  obtain ⟨-, hoffered⟩ := Columns.bind_eq_ok_iff.1 hb
  exact Columns.bind_eq_ok_iff.2 ⟨rfl, by rw [hoffered, Bound.descriptors_eq b' b]⟩

/-- The table of a record's row and the literal of its key. -/
def Record.address (r : Record c) : Except MapperError (String × Literal) := do
  let b ← r.columns.bind
  return (b.table, ← b.keyLiteral)

/-- The table of the links of a record's field and the literal they have on their left. -/
def Record.linkPlace (r : Record c) (f : Field c) : Except MapperError (String × Literal) := do
  let b ← r.columns.bind
  return (← b.linkTable f, ← b.keyLiteral)

/-- A row is deleted by its address. -/
theorem Write.statement_deleteRow {r : Record c} {s : Statement}
    (h : (Write.deleteRow r).statement = .ok s) :
    ∃ table column key, r.address = .ok (table, key) ∧ s = .deleteRow table ⟨column, key⟩ := by
  obtain ⟨b, hb, h⟩ := bind_eq_ok.1 h
  obtain ⟨clause, hclause, h⟩ := bind_eq_ok.1 h
  cases h
  obtain ⟨key, literal, -, -, hliteral, rfl⟩ := Bound.keyClause_eq_ok hclause
  exact ⟨b.table, _, literal, bind_eq_ok.2 ⟨b, hb, bind_eq_ok.2 ⟨literal, hliteral, rfl⟩⟩, rfl⟩

/-- A statement about one link is for the place of the field's links, with the key of the related
record on its right. -/
theorem Record.linkPlace_of_link {owner related : Record c} {f : Field c} {s : Statement}
    {link : String → Literal → Literal → Statement}
    (h : (do
      let b ← owner.columns.bind
      return link (← b.linkTable f) (← b.keyLiteral) (← related.keyLiteral)) = .ok s) :
    ∃ table left right, owner.linkPlace f = .ok (table, left) ∧ related.keyLiteral = .ok right ∧
      s = link table left right := by
  obtain ⟨b, hb, h⟩ := bind_eq_ok.1 h
  obtain ⟨table, htable, h⟩ := bind_eq_ok.1 h
  obtain ⟨left, hleft, h⟩ := bind_eq_ok.1 h
  obtain ⟨right, hright, h⟩ := bind_eq_ok.1 h
  cases h
  exact ⟨table, left, right, bind_eq_ok.2 ⟨b, hb, bind_eq_ok.2 ⟨table, htable, bind_eq_ok.2 ⟨left,
    hleft, rfl⟩⟩⟩, hright, rfl⟩

theorem Write.statement_insertLink {owner related : Record c} {f : Field c} {s : Statement}
    (h : (Write.insertLink owner f related).statement = .ok s) :
    ∃ table left right, owner.linkPlace f = .ok (table, left) ∧ related.keyLiteral = .ok right ∧
      s = .insertLink table left right :=
  Record.linkPlace_of_link h

theorem Write.statement_deleteLink {owner related : Record c} {f : Field c} {s : Statement}
    (h : (Write.deleteLink owner f related).statement = .ok s) :
    ∃ table left right, owner.linkPlace f = .ok (table, left) ∧ related.keyLiteral = .ok right ∧
      s = .deleteLink table left right :=
  Record.linkPlace_of_link h

/-- Links are cleared at the place of the field's links. -/
theorem Write.statement_clearLinks {owner : Record c} {f : Field c} {s : Statement}
    (h : (Write.clearLinks owner f).statement = .ok s) :
    ∃ table left, owner.linkPlace f = .ok (table, left) ∧ s = .clearLinks table left := by
  obtain ⟨b, hb, h⟩ := bind_eq_ok.1 h
  obtain ⟨table, htable, h⟩ := bind_eq_ok.1 h
  obtain ⟨left, hleft, h⟩ := bind_eq_ok.1 h
  cases h
  exact ⟨table, left, bind_eq_ok.2 ⟨b, hb, bind_eq_ok.2 ⟨table, htable, bind_eq_ok.2 ⟨left, hleft,
    rfl⟩⟩⟩, rfl⟩

namespace Record

/-- The insertions of the links of a record to the records it holds, field by field. -/
def linkInsertions (r : Record c) : List (Write c) :=
  r.relations.flatMap fun f => f.records.map (.insertLink r f)

/-- The insertion of the row of a record and those of its links. -/
def ownInsertions (r : Record c) : List (Write c) := .insertRow r :: r.linkInsertions

/-- The insertions of a record and of everything it owns, the record last, and of each one's links
after its row. -/
def insertions (r : Record c) : List (Write c) := r.family.flatMap ownInsertions

/-- A record is inserted after the records it owns, one after the other, and before its links. -/
theorem insertions_eq (r : Record c) :
    r.insertions = r.columns.owned.flatMap insertions ++ r.ownInsertions := by
  rw [insertions, r.family_eq, List.flatMap_append, List.flatMap_assoc, List.flatMap_singleton]
  rfl

/-- The removals of all links of a record, field by field, and the insertions of those to the
records that it holds. -/
def relinkings (r : Record c) : List (Write c) :=
  r.relations.map (.clearLinks r) ++ r.linkInsertions

end Record

/-! ## Journals that follow a plan -/

variable {pick : Entry → Option β} {R : α → β → Prop} {plan plan' : List α}
  {journal journal' : List Entry}

/-- Whether the lines that are picked out of a journal are those of a plan, in order. -/
def Follows (pick : Entry → Option β) (R : α → β → Prop) (plan : List α)
    (journal : List Entry) : Prop :=
  List.Forall₂ R plan (journal.filterMap pick)

namespace Follows

theorem empty : Follows pick R [] [] := List.Forall₂.nil

/-- A journal of which one line is picked follows the plan of that line. -/
theorem one {a : α} {line : β} (h : R a line) (hpicked : journal.filterMap pick = [line]) :
    Follows pick R [a] journal := by
  rw [Follows, hpicked]
  exact .cons h .nil

/-- A journal of which nothing is picked follows the empty plan. -/
theorem nil (h : ∀ entry ∈ journal, pick entry = none) : Follows pick R [] journal := by
  rw [Follows, List.filterMap_eq_nil_iff.2 h]
  exact .nil

theorem append (h : Follows pick R plan journal) (h' : Follows pick R plan' journal') :
    Follows pick R (plan ++ plan') (journal ++ journal') := by
  rw [Follows, List.filterMap_append]
  exact List.rel_append h h'

/-- Lines of which nothing is picked may stand around those of a plan. -/
theorem around {before after : List Entry} (hbefore : ∀ entry ∈ before, pick entry = none)
    (h : Follows pick R plan journal) (hafter : ∀ entry ∈ after, pick entry = none) :
    Follows pick R plan (before ++ (journal ++ after)) := by
  have hall := (nil hbefore).append (h.append (nil hafter))
  rwa [List.nil_append, List.append_nil] at hall

end Follows

namespace Task

variable {w : World σ} {t : Task d α}

/-- A task on a checked result runs only where the check succeeds. -/
theorem Leads.ofExcept_bind {result : Except MapperError α} {f : α → Task d γ}
    {post : γ → World σ → List Entry → Prop} (h : ∀ a, result = .ok a → (f a).Leads w post) :
    (Task.ofExcept result >>= f).Leads w post :=
  .bind (fun a w' journal => result = .ok a ∧ w' = w ∧ journal = [])
    (.ofExcept fun _ ha => ⟨ha, rfl, rfl⟩) fun a _ _ ⟨ha, hw, hjournal⟩ => by
      subst hw hjournal
      exact h a ha

/-- A task whose result is passed over leads to what the task leads to. -/
theorem Leads.discard {post : Unit → World σ → List Entry → Prop}
    (h : t.Leads w fun _ w' journal => post () w' journal) :
    Leads (discard t : Task d Unit) w post := by
  have hbind : (Functor.discard t : Task d Unit) = t >>= fun _ => Pure.pure () := rfl
  rw [hbind]
  exact .bind _ h fun _ _ journal hpost => .pure (by rwa [List.append_nil])

/-- A call that is reported first leaves the report and the call in the journal. -/
theorem Leads.reported (e : Event) (call : Call) :
    (Task.report e >>= fun _ => Task.call call : Task d call.Answer).Leads w fun answer _ journal =>
      journal = [.event e, .call call (.ok answer)] :=
  .bind (fun _ _ journal => journal = [.event e]) (.report rfl) fun _ _ journal hreport =>
    .call fun answer _ => by rw [hreport]; rfl

variable {plan : List γ} {R : γ → β → Prop}

/-- Two tasks in a row follow one plan after the other. -/
theorem Leads.follows_bind {f : α → Task d Unit} {plan plan' : List γ}
    (ht : t.Leads w fun _ _ journal => Follows pick R plan journal)
    (hf : ∀ a w', (f a).Leads w' fun _ _ journal => Follows pick R plan' journal) :
    (t >>= f).Leads w fun _ _ journal => Follows pick R (plan ++ plan') journal :=
  .bind _ ht fun a w' _ hfirst b hb => hfirst.append (hf a w' b hb)

/-- A task for every item of a list follows the plans of the items. -/
theorem Leads.follows_forM {g : α → Task d Unit} {plan : α → List γ} : (xs : List α) →
    (∀ x ∈ xs, ∀ w, (g x).Leads w fun _ _ journal => Follows pick R (plan x) journal) →
    (w : World σ) → (xs.forM g).Leads w fun _ _ journal => Follows pick R (xs.flatMap plan) journal
  | [], _, _ => .pure .empty
  | x :: xs, h, w => by
      rw [List.flatMap_cons]
      exact Leads.follows_bind (f := fun _ => xs.forM g) (h x List.mem_cons_self w) fun _ w' =>
        Leads.follows_forM xs (fun y hy => h y (List.mem_cons_of_mem _ hy)) w'

end Task

namespace Session

/-- Where an operation succeeds that first introspects a record and ensures its tables, it has done
the rest of its work on a record that binds, between events and work on the schema. -/
theorem operate_prepared {operation : Operation} {r : Record c} {w : World σ}
    {next : Bound c r.model × List (Fin n) → Staged d (Record c) Unit}
    (work : Bound c r.model → Staged d (Record c) Unit)
    (hnext : ∀ b dependencies, next (b, dependencies) = do
      Staged.advance .schemaEnsuring
      Staged.task (ensureSchema c r.model dependencies)
      Staged.advance .executing
      work b)
    (h : ((Staged.operate operation (c.model r.model).name r
      (Staged.ofExcept r.introspect >>= next)).run w).value.result = .ok ()) :
    ∃ b p w' before after, r.columns.bind = .ok b ∧ p.storage = r ∧
      (∀ entry ∈ before, Entry.IsSchemaWork entry) ∧ (∀ entry ∈ after, Entry.IsSchemaWork entry) ∧
      ((work b).exec p w').value.1 = .ok () ∧
      ((Staged.operate operation (c.model r.model).name r
        (Staged.ofExcept r.introspect >>= next)).run w).value.storage
          = ((work b).exec p w').value.2.storage ∧
      ((Staged.operate operation (c.model r.model).name r
        (Staged.ofExcept r.introspect >>= next)).run w).journal
          = before ++ (((work b).exec p w').journal ++ after) := by
  have hleads : (Staged.ofExcept r.introspect >>= next).Leads
      ⟨operation, (c.model r.model).name, .introspecting, r⟩ w fun _ left _ journal =>
        ∃ b p w' before, r.columns.bind = .ok b ∧ p.storage = r ∧
          (∀ entry ∈ before, Entry.IsSchemaWork entry) ∧ ((work b).exec p w').value.1 = .ok () ∧
          left.storage = ((work b).exec p w').value.2.storage ∧
          journal = before ++ ((work b).exec p w').journal := by
    refine .bind (fun bound p _ journal => r.introspect = .ok bound ∧ p.storage = r ∧ journal = [])
      (.ofExcept fun bound hbound => ⟨hbound, rfl, rfl⟩) ?_
    rintro ⟨b, dependencies⟩ p w _ ⟨hbound, hp, rfl⟩
    obtain ⟨-, hb⟩ := Record.introspect_eq_ok_iff.1 hbound
    rw [hnext]
    refine .bind (fun _ p _ journal => p.storage = r ∧ ∀ entry ∈ journal, Entry.IsSchemaWork entry)
      (.advance ⟨hp, by simp [Entry.IsSchemaWork]⟩) ?_
    rintro _ p w began ⟨hp, hbegan⟩
    refine .bind (fun _ p _ journal => p.storage = r ∧ ∀ entry ∈ journal, Entry.IsSchemaWork entry)
      (.task (fun _ _ => ensureSchema_journals _ _ w) fun _ _ _ hensured => ⟨hp, hensured⟩) ?_
    rintro _ p w ensured ⟨hp, hensured⟩
    refine .bind (fun _ p _ journal => p.storage = r ∧ ∀ entry ∈ journal, Entry.IsSchemaWork entry)
      (.advance ⟨hp, by simp [Entry.IsSchemaWork]⟩) ?_
    rintro _ p w executing ⟨hp, hexecuting⟩
    intro a ha
    refine ⟨b, p, w, began ++ (ensured ++ executing), hb, hp, ?_, ha, rfl, by simp⟩
    simp only [List.mem_append]
    rintro entry (hentry | hentry | hentry)
    exacts [hbegan entry hentry, hensured entry hentry, hexecuting entry hentry]
  obtain ⟨_, left, journal, final, hvalue, hjournal, b, p, w', before, hb, hp, hbefore, hwork,
    hleft, rfl⟩ := hleads.operate ⟨(), h⟩
  refine ⟨b, p, w', .event (.began operation (c.model r.model).name) :: before, [.event final], hb,
    hp, ?_, ?_, hwork, ?_, ?_⟩
  · exact List.forall_mem_cons.2 ⟨trivial, hbefore⟩
  · exact List.forall_mem_singleton.2 trivial
  · rw [hvalue, hleft]
  · rw [hjournal, List.append_assoc, List.cons_append]

section Known

variable {operation : Operation} {r : Record c} {w : World σ} {b : Bound c r.model}
  {dependencies : List (Fin n)} {next : Bound c r.model × List (Fin n) → Staged d (Record c) Unit}
  (work : Bound c r.model → Staged d (Record c) Unit)
  (hnext : ∀ b dependencies, next (b, dependencies) = do
    Staged.advance .schemaEnsuring
    Staged.task (ensureSchema c r.model dependencies)
    Staged.advance .executing
    work b)
  (hintrospect : r.introspect = .ok (b, dependencies))
  (hensure : (ensureSchema (d := d) c r.model dependencies).exec w = ⟨.ok (), w, []⟩)

include hnext hintrospect hensure

/-- Where the tables are known, such an operation does what the rest of its work does, and reports
its stages. -/
theorem operate_known_run {left : Outcome σ (Except MapperError Unit × Progress (Record c))}
    (hleft : (work b).exec ⟨operation, (c.model r.model).name, .executing, r⟩ w = left) :
    (Staged.operate operation (c.model r.model).name r
      (Staged.ofExcept r.introspect >>= next)).run w =
        let entity := (c.model r.model).name
        { value := ⟨left.value.2.storage, left.value.1⟩
          world := left.world
          journal := .event (.began operation entity) ::
            .event (.advanced operation entity .introspecting .schemaEnsuring) ::
            .event (.advanced operation entity .schemaEnsuring .executing) ::
            (left.journal ++ Staged.closing operation entity left.value) } := by
  subst hleft
  rw [Staged.run_operate]
  simp only [Staged.exec_bind, Staged.exec_ofExcept, hintrospect, hnext, Staged.exec_advance,
    Staged.exec_task, hensure, List.nil_append, List.cons_append]

/-- What such an operation answers and leaves where the tables are known is what the rest of its
work does. -/
theorem operate_known :
    ((Staged.operate operation (c.model r.model).name r
      (Staged.ofExcept r.introspect >>= next)).run w).value =
        let left := (work b).exec ⟨operation, (c.model r.model).name, .executing, r⟩ w
        ⟨left.value.2.storage, left.value.1⟩ :=
  congrArg Outcome.value (operate_known_run work hnext hintrospect hensure rfl)

end Known

variable {R : Write c → β → Prop}

/-- The links of a record are inserted by one call each. -/
theorem insertLinks_leads {b : Bound c k} (hb : b.columns.bind = .ok b)
    (hlink : ∀ f related s id, (Write.insertLink b.record f related).statement = .ok s →
      Follows pick R [.insertLink b.record f related]
        [.event (.statement .insert s), .call (.insert s) (.ok id)]) (w : World σ) :
    (insertLinks b : Task d Unit).Leads w fun _ _ journal =>
      Follows pick R b.record.linkInsertions journal := by
  rw [Record.linkInsertions, b.relations_record]
  refine .follows_forM b.relations (fun f _ w => ?_) w
  rw [List.map_eq_flatMap]
  refine .follows_forM f.records (fun related _ w => ?_) w
  refine .ofExcept_bind fun s hs => .discard ?_
  intro id hid
  have hstatement : (Write.insertLink b.record f related).statement = .ok s :=
    (Bound.bind_record hb (·.insertLink f related)).trans hs
  have hjournal : ((Task.insert s : Task d UInt64).exec w).journal = _ :=
    Task.Leads.reported (.statement .insert s) (.insert s) id hid
  rw [hjournal]
  exact hlink f related s id hstatement

end Session

end EntityMapper
