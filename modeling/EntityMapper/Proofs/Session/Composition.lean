import EntityMapper.Proofs.Session.Faults
import EntityMapper.Proofs.Session.Pieces

/-!
# What operations are made of

Every operation is put together from pieces that serve the models of its closure: ensuring and
dropping are about the tables of the listed models, and the traversals of a record, written one
lemma for each function, run statements on the rows and links of the models that the record is
built on. The errors that a traversal may fail with of its own accord are carried along, so that
what is asked of them is asked in one place (`RowFaults`), and so are the pieces that insertions and
updates are made of (`RowPieces`).
-/

namespace EntityMapper.Session

variable {n : Nat} {c : Catalog n} {k root : Fin n} {σ : Type} {d : Driver σ} {ms : Models n}
  {E : MapperError → Prop}

/-! ## Tables -/

/-- The statement that creates the table of a model is about that table. -/
theorem createTable_creation {s : Sql.Statement} (h : ms.createTable k = .ok s) :
    s.IsCreation ∧ s.table = (ms.model k).table := by
  obtain ⟨ds, -, h⟩ := bind_eq_ok.1 h
  obtain ⟨columns, -, h⟩ := bind_eq_ok.1 h
  dsimp only at h
  split at h
  · cases h
  · cases h
    exact ⟨trivial, rfl⟩

/-- A model whose relations cannot be told cannot be given a table either. -/
theorem createTable_of_relations {e : MapperError} (h : ms.relations k = .error e) :
    ms.createTable k = .error e := by
  unfold Models.relations at h
  unfold Models.createTable
  cases hdescribe : (ms.model k).describe with
  | error e' =>
      rw [hdescribe] at h
      cases h
      rfl
  | ok ds =>
      rw [hdescribe] at h
      cases h

section Tables

variable (hE : ∀ j ∈ ms.closure root, ∀ e, ms.createTable j = .error e → E e)

include hE

/-- Ensuring the table of a model has no fault of its own but that the model cannot be given a
table. -/
theorem ensureTable_assembled (hk : k ∈ ms.closure root) :
    (ensureTable ms k : Task d Unit).Assembled (Piece.Within ms root .ensuring E) E :=
  .job (.ensure _ _ _) ⟨⟨rfl, k, hk, .table, rfl, fun _ => createTable_creation⟩, trivial, hE k hk⟩

omit hE in
/-- The link table of a relation can be created whenever the relation can be told, so ensuring it
has no fault of its own. -/
theorem ensureLinks_assembled (hk : k ∈ ms.closure root) {rs : List (Relation n)} {r : Relation n}
    (hrs : ms.relations k = .ok rs) (hr : r ∈ rs) :
    (ensureLinks ms r : Task d Unit).Assembled (Piece.Within ms root .ensuring E) E := by
  refine .job (.ensure _ _ _) ⟨⟨rfl, k, hk, .links hrs hr, ?_, ?_⟩, trivial, fun _ h => nomatch h⟩
  · rw [← Models.relations_owner hrs hr]
    rfl
  · rintro s ⟨⟩
    exact ⟨trivial, rfl⟩

/-- Ensuring the tables of models of a closure and those of their links. -/
theorem ensureSchema_assembled {dependencies : List (Fin n)}
    (h : ∀ j ∈ dependencies, j ∈ ms.closure root) (hk : k ∈ ms.closure root) :
    (ensureSchema ms k dependencies : Task d Unit).Assembled (Piece.Within ms root .ensuring E)
      E := by
  have hlisted : ∀ j ∈ dependencies ++ [k], j ∈ ms.closure root := by
    intro j hj
    rcases List.mem_append.1 hj with hj | hj
    · exact h j hj
    · exact List.mem_singleton.1 hj ▸ hk
  refine .bind (.forM _ fun j hj => ensureTable_assembled hE (hlisted j hj)) fun _ _ _ => ?_
  refine .forM _ fun j hj => .ofExcept_bind (fun e he => ?_) fun rs hrs =>
    .forM _ fun r hr => ensureLinks_assembled (hlisted j hj) hrs hr
  exact hE j (hlisted j hj) e (createTable_of_relations he)

omit hE in
/-- Dropping the table of a model never fails of its own accord. -/
theorem dropTable_assembled (hk : k ∈ ms.closure root) :
    (dropTable ms k : Task d Unit).Assembled (Piece.Within ms root .dropping E) E :=
  .job (.drop _ _ _ _) ⟨⟨rfl, k, hk, .table, rfl, rfl⟩, trivial⟩

omit hE in
/-- Dropping the link table of a relation never fails of its own accord. -/
theorem dropLinks_assembled (hk : k ∈ ms.closure root) {rs : List (Relation n)} {r : Relation n}
    (hrs : ms.relations k = .ok rs) (hr : r ∈ rs) :
    (dropLinks ms r : Task d Unit).Assembled (Piece.Within ms root .dropping E) E := by
  refine .job (.drop _ _ _ _) ⟨⟨rfl, k, hk, .links hrs hr, ?_, rfl⟩, trivial⟩
  rw [← Models.relations_owner hrs hr]

/-- Dropping the tables of models of a closure and those of their links. -/
theorem dropSchema_assembled {dependencies : List (Fin n)}
    (h : ∀ j ∈ dependencies, j ∈ ms.closure root) (hk : k ∈ ms.closure root) :
    (dropSchema ms k dependencies : Task d Unit).Assembled (Piece.Within ms root .dropping E)
      E := by
  have hlisted : ∀ j ∈ k :: dependencies, j ∈ ms.closure root := by
    intro j hj
    rcases List.mem_cons.1 hj with rfl | hj
    · exact hk
    · exact h j hj
  refine .bind (.forM _ fun j hj => dropTable_assembled (hlisted j hj)) fun _ _ _ => ?_
  refine .forM _ fun j hj => .ofExcept_bind (fun e he => ?_) fun rs hrs =>
    .forM _ fun r hr => dropLinks_assembled (hlisted j hj) hrs hr
  exact hE j (hlisted j hj) e (createTable_of_relations he)

end Tables

/-! ## Inserting -/

-- The lemmas on contents are mutual, as the traversals are: a content, the items of a list and the
-- columns of a record. What they carry along is that every record is one of a model of the closure.

section Records

variable {b : Bound c k}

/-- A relation field stands under one of the record's descriptors. -/
theorem relations_descriptor {f : Field c} (hf : f ∈ b.relations) : f.descriptor ∈ b.descriptors :=
  b.descriptor_mem (List.mem_filter.1 hf).1

theorem relations_isRelation {f : Field c} (hf : f ∈ b.relations) : f.descriptor.type.isRelation :=
  (List.mem_filter.1 hf).2

/-- Whether certain pieces are enough to insert and update records of a closure with. -/
structure RowPieces (c : Catalog n) (root : Fin n) (P : Piece → Prop) : Prop where
  insertRow : ∀ k ∈ c.closure root, ∀ (b : Bound c k) s, b.insertRow = .ok s → P (.job (.insert s))
  insertLink : ∀ k ∈ c.closure root, ∀ b : Bound c k, ∀ f ∈ b.relations, ∀ related ∈ f.records, ∀ s,
    b.insertLink f related = .ok s → P (.job (.insert s))
  updateRow : ∀ k ∈ c.closure root, ∀ (b : Bound c k) s, b.updateRow = .ok s →
    P (.counted b.table s)
  clearLinks : ∀ k ∈ c.closure root, ∀ b : Bound c k, ∀ f ∈ b.relations, ∀ s,
    b.clearLinks f = .ok s → P (.job (.delete s))
  notice : ∀ e : Event, e.IsNotice → P (.report e)

/-- Pieces on the rows of a closure are enough. -/
theorem RowPieces.within : RowPieces c root (Piece.Within c root .onRows E) where
  insertRow k hk _ _ hs := ⟨⟨rfl, k, hk, Bound.uses_insertRow hs⟩, Bound.insertRow_inserts hs⟩
  insertLink k hk b _ hf _ _ _ hs :=
    ⟨⟨rfl, k, hk, b.uses_insertLink (relations_descriptor hf) hs⟩, Bound.insertLink_inserts hs⟩
  updateRow k hk _ _ hs := ⟨⟨rfl, k, hk, Bound.uses_updateRow hs⟩, Bound.updateRow_updates hs⟩
  clearLinks k hk b _ hf _ hs :=
    ⟨⟨rfl, k, hk, b.uses_clearLinks (relations_descriptor hf) hs⟩, Bound.clearLinks_deletes hs⟩
  notice _ he := he

variable {P : Piece → Prop}

/-- Inserting the links of a record: one piece for each record in each relation field. -/
theorem insertLinks_assembled (hE : RowFaults c root E) (hP : RowPieces c root P)
    (hk : k ∈ c.closure root) : (insertLinks b : Task d Unit).Assembled P E := by
  refine .forM _ fun f hf => .forM _ fun related hrelated =>
    .ofExcept_bind (fun e he => ?_) fun s hs => ?_
  · exact hE.blameless e (b.insertLink_blameless (relations_isRelation hf) related e he)
  · exact .discard (.job (.insert s) (hP.insertLink k hk b f hf related hrelated s hs))

/-- Inserting the row of a record is one piece. A literal that cannot be written blames no model. -/
theorem insertRow_assembled (hE : RowFaults c root E) (hP : RowPieces c root P)
    (hk : k ∈ c.closure root) : (insertRow b : Task d UInt64).Assembled P E := by
  refine .ofExcept_bind (fun e he => hE.blameless e (b.insertRow_blameless e he)) fun s hs => ?_
  exact .job (.insert s) (hP.insertRow k hk b s hs)

/-- Inserting a record alone: its row, and its links once the generated key is captured. -/
theorem insertSelf_assembled (hE : RowFaults c root E) (hP : RowPieces c root P)
    (hk : k ∈ c.closure root) :
    (insertSelf b : Action d _).Assembled P E Attempt.failure? := by
  refine .after (insertRow_assembled hE hP hk) (fun id => ?_) fun e => ⟨_, rfl⟩
  dsimp only
  split
  · rename_i e he
    exact .ended fun e' he' => by
      cases he'
      exact hE.blameless e (captureKey_blameless b id e he)
  · exact .ofTask _ (insertLinks_assembled hE hP hk)

mutual

/-- Inserting the records of a content. One that cannot be bound has a model at fault. -/
theorem insertHeld_assembled (hE : RowFaults c root E) (hP : RowPieces c root P)
    {t : ColumnType n} : (cell : Cell c t) →
    (∀ j, t.base? = some j → j ∈ c.closure root) →
    (insertHeld cell : Action d _).Assembled P E Attempt.failure?
  | .entity (k := k) columns, h => by
      have hk : k ∈ c.closure root := h k rfl
      rw [insertHeld]
      split
      · rename_i e he
        exact .ended fun e' he' => by
          cases he'
          exact hE.unbound k hk columns e he
      · have hbase := fun t ht j => Models.base?_mem_closure (t := t) (j := j) hk ht
        refine .attempt (insertOwned_assembled hE hP columns hbase) (fun x _ => ?_)
          fun x e => ⟨_, rfl⟩
        exact .wrap (insertSelf_assembled hE hP hk)
  | .present inner, h => by
      rw [insertHeld]
      exact .wrap (insertHeld_assembled hE hP inner h)
  | .boxed inner, h => by
      rw [insertHeld]
      exact .wrap (insertHeld_assembled hE hP inner h)
  | .list items, h => by
      rw [insertHeld]
      exact .wrap (insertItems_assembled hE hP items h)
  | .bool _, _ | .integer _ _, _ | .float _, _ | .double _, _ | .text _, _ | .dateTime _, _
  | .raw _, _ | .absent, _ => .reached

/-- Inserting the records in the items of a list, up to the first that fails. -/
theorem insertItems_assembled (hE : RowFaults c root E) (hP : RowPieces c root P)
    {t : ColumnType n} : (items : Items c t) →
    (∀ j, t.base? = some j → j ∈ c.closure root) →
    (insertItems items : Action d _).Assembled P E Attempt.failure?
  | .nil, _ => .reached
  | .cons item items, h => by
      rw [insertItems]
      refine .attempt (insertHeld_assembled hE hP item h) (fun x _ => ?_) fun x e => ⟨_, rfl⟩
      exact .wrap (insertItems_assembled hE hP items h)

/-- Inserting the records that a record owns; those behind pointers are passed over. -/
theorem insertOwned_assembled (hE : RowFaults c root E) (hP : RowPieces c root P)
    {ts : List (ColumnType n)} : (columns : Columns c ts) →
    (∀ t ∈ ts, ∀ j, t.base? = some j → j ∈ c.closure root) →
    (insertOwned columns : Action d _).Assembled P E Attempt.failure?
  | .nil, _ => .reached
  | .cons cell cells, h => by
      have hcells := insertOwned_assembled hE hP cells fun t ht => h t (List.mem_cons_of_mem _ ht)
      rw [insertOwned]
      split
      · refine .attempt (insertHeld_assembled hE hP cell (h _ List.mem_cons_self)) (fun x _ => ?_)
          fun x e => ⟨_, rfl⟩
        exact .wrap hcells
      · exact .wrap hcells

end

/-! ## Updating -/

/-- Updating the row of a record is one counted statement, or a notice where every column is nil.
The guard leaves one fault that blames a model, an update with nothing to set. -/
theorem updateRow_assembled (hE : RowFaults c root E) (hP : RowPieces c root P)
    (hk : k ∈ c.closure root) : (updateRow b : Task d Unit).Assembled P E := by
  rw [updateRow]
  split
  · rename_i hset
    refine .ofExcept_bind (fun e he => hE.unset k hk b e hset he) fun s hs => ?_
    exact .piece (.counted b.table s) (hP.updateRow k hk b s hs)
  · exact .report (hP.notice (.nothingToUpdate b.name) trivial)

/-- Clearing the links of a record: one piece for each relation field. -/
theorem clearLinks_assembled (hE : RowFaults c root E) (hP : RowPieces c root P)
    (hk : k ∈ c.closure root) : (clearLinks b : Task d Unit).Assembled P E := by
  refine .forM _ fun f hf => .ofExcept_bind (fun e he => ?_) fun s hs => ?_
  · exact hE.blameless e (b.clearLinks_blameless (relations_isRelation hf) e he)
  · exact .discard (.job (.delete s) (hP.clearLinks k hk b f hf s hs))

mutual

/-- Updating the records of a content. Each has its row written first and its links last. -/
theorem updateHeld_assembled (hE : RowFaults c root E) (hP : RowPieces c root P)
    {t : ColumnType n} : (cell : Cell c t) →
    (∀ j, t.base? = some j → j ∈ c.closure root) →
    (updateHeld cell : Task d Unit).Assembled P E
  | .entity (k := k) columns, h => by
      have hk : k ∈ c.closure root := h k rfl
      rw [updateHeld]
      refine .ofExcept_bind (hE.unbound k hk columns) fun b _ => ?_
      refine .bind (updateRow_assembled hE hP hk) fun _ _ _ => ?_
      have hbase := fun t ht j => Models.base?_mem_closure (t := t) (j := j) hk ht
      refine .bind (updateOwned_assembled hE hP columns hbase) fun _ _ _ => ?_
      exact .bind (clearLinks_assembled hE hP hk) fun _ _ _ => insertLinks_assembled hE hP hk
  | .present inner, h => by
      rw [updateHeld]
      exact updateHeld_assembled hE hP inner h
  | .boxed inner, h => by
      rw [updateHeld]
      exact updateHeld_assembled hE hP inner h
  | .list items, h => by
      rw [updateHeld]
      exact updateItems_assembled hE hP items h
  | .bool _, _ | .integer _ _, _ | .float _, _ | .double _, _ | .text _, _ | .dateTime _, _
  | .raw _, _ | .absent, _ => .pure ()

/-- Updating the records in the items of a list. -/
theorem updateItems_assembled (hE : RowFaults c root E) (hP : RowPieces c root P)
    {t : ColumnType n} : (items : Items c t) →
    (∀ j, t.base? = some j → j ∈ c.closure root) →
    (updateItems items : Task d Unit).Assembled P E
  | .nil, _ => .pure ()
  | .cons item items, h => by
      rw [updateItems]
      exact .bind (updateHeld_assembled hE hP item h) fun _ _ _ =>
        updateItems_assembled hE hP items h

/-- Updating the records that a record owns. -/
theorem updateOwned_assembled (hE : RowFaults c root E) (hP : RowPieces c root P)
    {ts : List (ColumnType n)} : (columns : Columns c ts) →
    (∀ t ∈ ts, ∀ j, t.base? = some j → j ∈ c.closure root) →
    (updateOwned columns : Task d Unit).Assembled P E
  | .nil, _ => .pure ()
  | .cons cell cells, h => by
      have hcells := updateOwned_assembled hE hP cells fun t ht => h t (List.mem_cons_of_mem _ ht)
      rw [updateOwned]
      split
      · exact .bind (updateHeld_assembled hE hP cell (h _ List.mem_cons_self)) fun _ _ _ => hcells
      · exact hcells

end

/-! ## Deleting -/

/-- A deletion that affects another number of rows than one is a fault that blames no model. -/
theorem deleteOne_assembled (hE : RowFaults c root E) {table : String} {s : Sql.Statement}
    {j : Fin n} (hj : j ∈ c.closure root) (hs : c.Uses j s) (hdeletes : s.Deletes) :
    (deleteOne table s : Task d Unit).Assembled (Piece.Within c root .onRows E) E := by
  refine .bind (.job (.delete s) ⟨⟨rfl, j, hj, hs⟩, hdeletes⟩) fun _ affected _ => ?_
  split
  · exact .throw (hE.blameless _ (by simp [MapperError.BlamesModel, MapperError.errorClass]))
  · exact .pure ()

/-- Deleting the row of a record is one piece. -/
theorem deleteRow_assembled (hE : RowFaults c root E) (hk : k ∈ c.closure root) :
    (deleteRow b : Task d Unit).Assembled (Piece.Within c root .onRows E) E :=
  .ofExcept_bind (fun e he => hE.blameless e (b.deleteRow_blameless e he)) fun _ hs =>
    deleteOne_assembled hE hk (Bound.uses_deleteRow hs) (Bound.deleteRow_deletes hs)

mutual

/-- The links that are left over when the records of a content are deleted are some of those that
were given. -/
theorem deleteHeld_leftover {owned : Bool} {table : String} {t : ColumnType n} :
    (cell : Cell c t) → (links : List Sql.Statement) → (w : World σ) →
    (deleteHeld owned table cell links : Task d _).Leads w fun left _ _ => ∀ s ∈ left, s ∈ links
  | .entity columns, [], w => .pure fun s hs => hs
  | .entity columns, link :: links, w => by
      have hrest : ∀ w' : World σ, (do deleteOne table link; return links : Task d _).Leads w'
          fun left _ _ => ∀ s ∈ left, s ∈ link :: links :=
        fun w' => .bind (fun _ _ _ => True) (fun _ _ => trivial) fun _ _ _ _ =>
          .pure fun s hs => List.mem_cons_of_mem _ hs
      rw [deleteHeld]
      split
      · refine .bind (fun _ _ _ => True) (fun _ _ => trivial) fun b _ _ _ => ?_
        refine .bind (fun _ _ _ => True) (fun _ _ => trivial) fun _ _ _ _ => ?_
        exact .bind (fun _ _ _ => True) (fun _ _ => trivial) fun _ w' _ _ => hrest w'
      · exact hrest w
  | .present inner, links, w => by
      rw [deleteHeld]
      exact deleteHeld_leftover inner links w
  | .boxed inner, links, w => by
      rw [deleteHeld]
      exact deleteHeld_leftover inner links w
  | .list items, links, w => by
      rw [deleteHeld]
      exact deleteItems_leftover items links w
  | .bool _, _, _ | .integer _ _, _, _ | .float _, _, _ | .double _, _, _ | .text _, _, _
  | .dateTime _, _, _ | .raw _, _, _ | .absent, _, _ => .pure fun s hs => hs

/-- What the items of a list leave of the links is left from those that were given. -/
theorem deleteItems_leftover {owned : Bool} {table : String} {t : ColumnType n} :
    (items : Items c t) → (links : List Sql.Statement) → (w : World σ) →
    (deleteItems owned table items links : Task d _).Leads w fun left _ _ => ∀ s ∈ left, s ∈ links
  | .nil, links, w => .pure fun s hs => hs
  | .cons item items, links, w => by
      rw [deleteItems]
      refine .bind _ (deleteHeld_leftover item links w) fun left w' _ hleft => ?_
      intro rest hrest s hs
      exact hleft s (deleteItems_leftover items left w' rest hrest s hs)

end

mutual

/-- Deleting the records of a content, each with its link; the given links are of the closure. -/
theorem deleteHeld_assembled (hE : RowFaults c root E) {owned : Bool} {table : String}
    {t : ColumnType n} : (cell : Cell c t) → (links : List Sql.Statement) →
    (∀ j, t.base? = some j → j ∈ c.closure root) →
    (∀ s ∈ links, (∃ j ∈ c.closure root, c.Uses j s) ∧ s.Deletes) →
    (deleteHeld owned table cell links : Task d _).Assembled (Piece.Within c root .onRows E) E
  | .entity columns, [], _, _ => .pure _
  | .entity (k := k) columns, link :: links, h, hlinks => by
      have hk : k ∈ c.closure root := h k rfl
      obtain ⟨⟨j, hj, hlink⟩, hdeletes⟩ := hlinks link List.mem_cons_self
      have hrest : (do deleteOne table link; return links : Task d _).Assembled
          (Piece.Within c root .onRows E) E :=
        .bind (deleteOne_assembled hE hj hlink hdeletes) fun _ _ _ => .pure _
      rw [deleteHeld]
      split
      · refine .ofExcept_bind (hE.unbound k hk columns) fun b _ => ?_
        refine .bind (deleteRow_assembled hE hk) fun _ _ _ => ?_
        refine .bind (deleteRelated_assembled hE hk columns b.descriptors ?_ fun d hd => hd)
          fun _ _ _ => hrest
        exact fun t ht j => Models.base?_mem_closure hk ht
      · exact hrest
  | .present inner, links, h, hlinks => by
      rw [deleteHeld]
      exact deleteHeld_assembled hE inner links h hlinks
  | .boxed inner, links, h, hlinks => by
      rw [deleteHeld]
      exact deleteHeld_assembled hE inner links h hlinks
  | .list items, links, h, hlinks => by
      rw [deleteHeld]
      exact deleteItems_assembled hE items links h hlinks
  | .bool _, _, _, _ | .integer _ _, _, _, _ | .float _, _, _, _ | .double _, _, _, _
  | .text _, _, _, _ | .dateTime _, _, _, _ | .raw _, _, _, _ | .absent, _, _, _ => .pure _

/-- Deleting the records in the items of a list, each with its link. -/
theorem deleteItems_assembled (hE : RowFaults c root E) {owned : Bool} {table : String}
    {t : ColumnType n} : (items : Items c t) → (links : List Sql.Statement) →
    (∀ j, t.base? = some j → j ∈ c.closure root) →
    (∀ s ∈ links, (∃ j ∈ c.closure root, c.Uses j s) ∧ s.Deletes) →
    (deleteItems owned table items links : Task d _).Assembled (Piece.Within c root .onRows E) E
  | .nil, _, _, _ => .pure _
  | .cons item items, links, h, hlinks => by
      rw [deleteItems]
      -- The other items are unlinked by the links that the first item has not used up.
      refine .bind (deleteHeld_assembled hE item links h hlinks) fun w left hleft => ?_
      exact deleteItems_assembled hE items left h fun s hs =>
        hlinks s (deleteHeld_leftover item links w left hleft s hs)

/-- Deleting what the relation fields of a record hold. The links come from the record's own fields,
so they are those of a model of the closure. -/
theorem deleteRelated_assembled (hE : RowFaults c root E) {k : Fin n} {b : Bound c k}
    (hk : k ∈ c.closure root) {ts : List (ColumnType n)} : (columns : Columns c ts) →
    (descriptors : List (Descriptor n)) → (∀ t ∈ ts, ∀ j, t.base? = some j → j ∈ c.closure root) →
    (∀ f ∈ descriptors, f ∈ b.descriptors) →
    (deleteRelated b columns descriptors : Task d Unit).Assembled (Piece.Within c root .onRows E) E
  | .nil, _, _, _ => by
      rw [deleteRelated]
      exact .pure ()
  | .cons _ _, [], _, _ => by
      rw [deleteRelated]
      exact .pure ()
  | .cons (t := t) cell cells, descriptor :: descriptors, h, hdescriptors => by
      have hcells := deleteRelated_assembled hE (b := b) hk cells descriptors
        (fun t ht => h t (List.mem_cons_of_mem _ ht))
        fun f hf => hdescriptors f (List.mem_cons_of_mem _ hf)
      have hdescriptor : descriptor ∈ b.descriptors := hdescriptors _ List.mem_cons_self
      rw [deleteRelated]
      split
      · rename_i hrelation
        refine .ofExcept_bind (fun e he => ?_) fun links hlinks => ?_
        · obtain ⟨related, -, he⟩ := exists_of_mapM_eq_error he
          exact hE.blameless e (b.deleteLink_blameless (f := ⟨descriptor, t, cell⟩) hrelation
            related e he)
        refine .ofExcept_bind (fun e he => ?_) fun table _ => ?_
        · exact hE.blameless e (b.linkTable_blameless (f := ⟨descriptor, t, cell⟩) hrelation e he)
        have huses : ∀ s ∈ links, (∃ j ∈ c.closure root, c.Uses j s) ∧ s.Deletes := by
          intro s hs
          obtain ⟨related, -, hrelated⟩ := mem_of_mapM_eq_ok hlinks hs
          exact ⟨⟨k, hk, b.uses_deleteLink (f := ⟨descriptor, t, cell⟩) hdescriptor hrelated⟩,
            Bound.deleteLink_deletes hrelated⟩
        refine .bind (.discard ?_) fun _ _ _ => hcells
        exact deleteHeld_assembled hE cell links (h t List.mem_cons_self) huses
      · exact hcells

end

/-- Deleting a record: its row, and then what its relation fields hold. -/
theorem deleteRecord_assembled (hE : RowFaults c root E) (hk : k ∈ c.closure root) :
    (deleteRecord b : Task d Unit).Assembled (Piece.Within c root .onRows E) E :=
  .bind (deleteRow_assembled hE hk) fun _ _ _ =>
    deleteRelated_assembled hE hk b.columns b.descriptors
      (fun _ ht _ => Models.base?_mem_closure hk ht) fun _ hf => hf

/-! ## Loading -/

/-- Fetching the row of a record is one piece. That there is no such row blames no model. -/
theorem fetchRow_assembled (hE : RowFaults c root E) (hk : k ∈ c.closure root) :
    (fetchRow b : Task d (List Value)).Assembled (Piece.Loads c root E) E := by
  refine .ofExcept_bind (fun e he => hE.blameless e (b.selectRow_blameless e he)) fun s hs => ?_
  refine .bind (.job (.fetchRow s _) ⟨⟨⟨rfl, k, hk, Bound.uses_selectRow hs⟩,
    Bound.selectRow_selects hs⟩, trivial⟩) fun _ row _ => ?_
  split
  · exact .pure _
  · refine .ofExcept_bind (fun e he => hE.blameless e (b.keyLiteral_blameless e he)) fun key _ => ?_
    exact .throw (hE.blameless _ (by simp [MapperError.BlamesModel, MapperError.errorClass]))

/-- Loading the row of a record: a value that does not fit blames no model. -/
theorem loadRow_assembled (hE : RowFaults c root E) (hk : k ∈ c.closure root)
    (columns : Columns c (c.model k).columnTypes) :
    (loadRow columns : Action d _).Assembled (Piece.Loads c root E) E Attempt.failure? := by
  refine .after (.ofExcept_bind (hE.unbound k hk columns) fun b _ => fetchRow_assembled hE hk)
    (fun row => .done fun e he => ?_) fun e => ⟨_, rfl⟩
  exact hE.blameless e (hydrate_blameless columns row e (eq_error_of_failure? he))

mutual

/-- Loading the row of every record in a content. -/
theorem loadHeld_assembled (hE : RowFaults c root E) {t : ColumnType n} : (cell : Cell c t) →
    (∀ j, t.base? = some j → j ∈ c.closure root) →
    (loadHeld cell : Action d _).Assembled (Piece.Loads c root E) E Attempt.failure?
  | .entity (k := k) columns, h => by
      rw [loadHeld]
      exact .wrap (loadRow_assembled hE (h k rfl) columns)
  | .present inner, h => by
      rw [loadHeld]
      exact .wrap (loadHeld_assembled hE inner h)
  | .boxed inner, h => by
      rw [loadHeld]
      exact .wrap (loadHeld_assembled hE inner h)
  | .list items, h => by
      rw [loadHeld]
      exact .wrap (loadItems_assembled hE items h)
  | .bool _, _ | .integer _ _, _ | .float _, _ | .double _, _ | .text _, _ | .dateTime _, _
  | .raw _, _ | .absent, _ => .reached

/-- Loading the rows of the records in the items of a list, up to the first that fails. -/
theorem loadItems_assembled (hE : RowFaults c root E) {t : ColumnType n} : (items : Items c t) →
    (∀ j, t.base? = some j → j ∈ c.closure root) →
    (loadItems items : Action d _).Assembled (Piece.Loads c root E) E Attempt.failure?
  | .nil, _ => .reached
  | .cons item items, h => by
      rw [loadItems]
      refine .attempt (loadHeld_assembled hE item h) (fun x _ => ?_) fun x e => ⟨_, rfl⟩
      exact .wrap (loadItems_assembled hE items h)

end

/-- Loading a relation field: one piece fetches the linked keys, and the records that are made of
them are loaded. -/
theorem loadRelation_assembled (hE : RowFaults c root E) (hk : k ∈ c.closure root)
    {descriptor : Descriptor n} (hdescriptor : descriptor ∈ b.descriptors)
    (hrelation : descriptor.type.isRelation) {t : ColumnType n} (cell : Cell c t)
    (h : ∀ j, t.base? = some j → j ∈ c.closure root) :
    (loadRelation b descriptor cell : Action d _).Assembled (Piece.Loads c root E) E
      Attempt.failure? := by
  refine .after (.ofExcept_bind (fun e he => ?_) fun s hs => ?_) (fun keys => ?_) fun e => ⟨_, rfl⟩
  · exact hE.blameless e (b.selectLinks_blameless (f := ⟨descriptor, t, cell⟩) hrelation e he)
  · have huses := b.uses_selectLinks (f := ⟨descriptor, t, cell⟩) hdescriptor hs
    exact .job (.fetchColumn s (.int 0)) ⟨⟨⟨rfl, k, hk, huses⟩, Bound.selectLinks_selects hs⟩,
      trivial⟩
  · dsimp only
    split
    · exact .reached
    · split
      · rename_i e _
        exact .ended fun e' he' => by
          cases he'
          exact hE.blameless _ (Blameless.value (.error e : Except _ Unit) _ rfl)
      · exact loadHeld_assembled hE _ h

/-- Loading the relation fields of a record, in order. -/
theorem loadRelations_assembled (hE : RowFaults c root E) (hk : k ∈ c.closure root)
    {ts : List (ColumnType n)} : (columns : Columns c ts) → (descriptors : List (Descriptor n)) →
    (∀ t ∈ ts, ∀ j, t.base? = some j → j ∈ c.closure root) →
    (∀ f ∈ descriptors, f ∈ b.descriptors) →
    (loadRelations b columns descriptors : Action d _).Assembled (Piece.Loads c root E) E
      Attempt.failure?
  | .nil, _, _, _ => by
      rw [loadRelations]
      exact .reached
  | .cons _ _, [], _, _ => by
      rw [loadRelations]
      exact .reached
  | .cons cell cells, descriptor :: descriptors, h, hdescriptors => by
      have hcells := loadRelations_assembled hE hk cells descriptors
        (fun t ht => h t (List.mem_cons_of_mem _ ht))
        fun f hf => hdescriptors f (List.mem_cons_of_mem _ hf)
      rw [loadRelations]
      split
      · rename_i hrelation
        refine .attempt (loadRelation_assembled hE hk (hdescriptors _ List.mem_cons_self) hrelation
          cell (h _ List.mem_cons_self)) (fun x _ => ?_) fun x e => ⟨_, rfl⟩
        exact .wrap hcells
      · exact .attempt .reached (fun x _ => .wrap hcells) fun x e => ⟨_, rfl⟩

/-- Loading a record from its row. Its relations are those of the record with the row's values in
it, which has the same descriptors. -/
theorem loadRecord_assembled (hE : RowFaults c root E) (hk : k ∈ c.closure root)
    (row : List Value) :
    (loadRecord b row : Action d _).Assembled (Piece.Loads c root E) E Attempt.failure? := by
  rw [loadRecord]
  split
  · rename_i e he
    exact .ended fun e' he' => by
      cases he'
      exact hE.blameless e (hydrate_blameless b.columns row e he)
  · exact loadRelations_assembled hE (b := { b with columns := _ }) hk _ _
      (fun _ ht _ => Models.base?_mem_closure hk ht) fun _ hf => hf

end Records

/-! ## The jobs of operations

Where only the statements matter and not the faults, what is put together from pieces is read as
made of the jobs of these pieces. -/

/-- Ensuring the table of a model is made of jobs on its closure's tables. -/
theorem ensureTable_composed (hk : k ∈ ms.closure root) :
    (ensureTable ms k : Task d Unit).Composed (Job.Within ms root .ensuring) :=
  (ensureTable_assembled (E := fun _ => True) (fun _ _ _ _ => trivial) hk).composed
    fun _ h _ => h.job

/-- Ensuring a link table is made of jobs on its closure's tables. -/
theorem ensureLinks_composed (hk : k ∈ ms.closure root) {rs : List (Relation n)} {r : Relation n}
    (hrs : ms.relations k = .ok rs) (hr : r ∈ rs) :
    (ensureLinks ms r : Task d Unit).Composed (Job.Within ms root .ensuring) :=
  (ensureLinks_assembled (E := fun _ => True) hk hrs hr).composed fun _ h _ => h.job

/-- Ensuring all tables of a closure is made of jobs on these tables. -/
theorem ensureSchema_composed {dependencies : List (Fin n)}
    (h : ∀ j ∈ dependencies, j ∈ ms.closure root) (hk : k ∈ ms.closure root) :
    (ensureSchema ms k dependencies : Task d Unit).Composed (Job.Within ms root .ensuring) :=
  (ensureSchema_assembled (E := fun _ => True) (fun _ _ _ _ => trivial) h hk).composed
    fun _ h _ => h.job

/-- Dropping all tables of a closure is made of jobs on these tables. -/
theorem dropSchema_composed {dependencies : List (Fin n)}
    (h : ∀ j ∈ dependencies, j ∈ ms.closure root) (hk : k ∈ ms.closure root) :
    (dropSchema ms k dependencies : Task d Unit).Composed (Job.Within ms root .dropping) :=
  (dropSchema_assembled (E := fun _ => True) (fun _ _ _ _ => trivial) h hk).composed
    fun _ h _ => h.job

/-- Updating the records of a content is made of jobs on the rows of their closure. -/
theorem updateHeld_composed {t : ColumnType n} (cell : Cell c t)
    (h : ∀ j, t.base? = some j → j ∈ c.closure root) :
    (updateHeld cell : Task d Unit).Composed (Job.Within c root .onRows) :=
  (updateHeld_assembled .any (.within (E := fun _ => True)) cell h).composed fun _ h _ => h.job

/-- Deleting a record is made of jobs on the rows of its closure. -/
theorem deleteRecord_composed {b : Bound c k} (hk : k ∈ c.closure root) :
    (deleteRecord b : Task d Unit).Composed (Job.Within c root .onRows) :=
  (deleteRecord_assembled .any hk).composed fun _ h _ => h.job

/-- Fetching a row is a job on the rows of the closure. -/
theorem fetchRow_composed {b : Bound c k} (hk : k ∈ c.closure root) :
    (fetchRow b : Task d (List Value)).Composed (Job.Within c root .onRows) :=
  (fetchRow_assembled .any hk).composed fun _ h _ => h.1.job

/-- Loading a record is made of jobs on the rows of its closure. -/
theorem loadRecord_composed {b : Bound c k} (hk : k ∈ c.closure root) (row : List Value) :
    (loadRecord b row : Action d _).Composed (Job.Within c root .onRows) Attempt.failure? :=
  (loadRecord_assembled .any hk row).composed fun _ h _ => h.1.job

end EntityMapper.Session
