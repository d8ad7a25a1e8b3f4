import EntityMapper.Proofs.Session.Insertion
import EntityMapper.Proofs.Session.Selections
import EntityMapper.Proofs.Storage.Related

/-!
# What a query loads

A query selects the row of its record, and for each relation field the linked keys and then the row
of every record that the field holds for them (`Session.query_loads`). Each record gets its stored
columns from its own row; related records are assigned their keys first, and their own relations are
left as they are.
-/

namespace EntityMapper

open Sql

variable {n : Nat} {c : Catalog n} {k : Fin n} {σ : Type} {d : Driver σ}

/-! ## Stored fields and relations -/

namespace Columns

variable {t : ColumnType n} {ts : List (ColumnType n)} {cell : Cell c t} {cells : Columns c ts}
  {descriptor : Descriptor n} {ds : List (Descriptor n)}

/-- The fields of columns that are stored with the record. -/
def stored (columns : Columns c ts) (ds : List (Descriptor n)) : List (Field c) :=
  (columns.fields ds).filter (·.descriptor.isColumn)

/-- The fields of columns that are stored through links. -/
def relations (columns : Columns c ts) (ds : List (Descriptor n)) : List (Field c) :=
  (columns.fields ds).filter (·.descriptor.type.isRelation)

theorem stored_cons_of_relation (h : descriptor.type.isRelation = true) :
    (cons cell cells).stored (descriptor :: ds) = cells.stored ds := by
  rw [stored, fields, List.filter_cons, if_neg (by simp [Descriptor.isColumn, h]), stored]

theorem stored_cons_of_column (h : descriptor.type.isRelation = false) :
    (cons cell cells).stored (descriptor :: ds) = ⟨descriptor, t, cell⟩ :: cells.stored ds := by
  rw [stored, fields, List.filter_cons, if_pos (by simp [Descriptor.isColumn, h]), stored]

theorem relations_cons_of_relation (h : descriptor.type.isRelation = true) :
    (cons cell cells).relations (descriptor :: ds)
      = ⟨descriptor, t, cell⟩ :: cells.relations ds := by
  rw [relations, fields, List.filter_cons, if_pos h, relations]

theorem relations_cons_of_column (h : descriptor.type.isRelation = false) :
    (cons cell cells).relations (descriptor :: ds) = cells.relations ds := by
  rw [relations, fields, List.filter_cons, if_neg (Bool.eq_false_iff.1 h), relations]

end Columns

/-! ## Rows -/

/-- Whether a record is another one with the values of a row assigned to its stored columns, one
after the other. -/
structure Bound.Hydrates (row : List Value) (b b' : Bound c k) : Prop where
  length : row.length = b.stored.length
  stored : List.Forall₂ (fun slot g => slot.1.Becomes slot.2 g) (b.stored.zip row) b'.stored
  relations : b'.relations = b.relations

/-- Whether a record is another one after its row is loaded by a selection with its key. -/
inductive Record.RowLoaded : Record c → Record c → Selection → Prop
  | mk {k : Fin n} {b b' : Bound c k} {key : Field c} {literal : Literal} {row : List Value}
      (hb : b.columns.bind = .ok b) (hkey : b.key? = some key)
      (hliteral : key.literal? = .ok (some literal)) (hrow : b.Hydrates row b') :
      RowLoaded b.record b'.record
        ⟨.selectRow b.table (b.stored.map (·.column)) ⟨key.column, literal⟩, [row]⟩

/-- Whether a record is another one after it is loaded for a linked key: the key is assigned to it,
and its row is loaded. -/
def Record.KeyLoaded (key : Value) (x : Record c) (load : Record c × Selection) : Prop :=
  ∃ y, x.Keyed key.key y ∧ y.RowLoaded load.1 load.2

/-- A record that takes a key, and whose row is loaded then, is loaded for the key. -/
theorem Record.TakesKey.keyLoaded {key : Value} {x y : Record c} {load : Record c × Selection}
    (h : TakesKey key x y) (hrow : y.RowLoaded load.1 load.2) : x.KeyLoaded key load := by
  obtain ⟨z, made⟩ := load
  cases hrow with
  | @mk k b b' key literal row hb hkey hliteral hrow =>
      exact ⟨_, h.keyed b, .mk hb hkey hliteral hrow⟩

/-- Records that take keys, and whose rows are loaded then, are loaded for the keys. -/
theorem Record.keyLoaded_of_forall₂ {x : Record c} {keys : List Value} {ys : List (Record c)}
    {loads : List (Record c × Selection)} (hkeys : List.Forall₂ (TakesKey · x ·) keys ys)
    (hrows : List.Forall₂ (fun y load => y.RowLoaded load.1 load.2) ys loads) :
    List.Forall₂ (fun key load => x.KeyLoaded key load) keys loads := by
  induction hkeys generalizing loads with
  | nil =>
      cases hrows
      exact .nil
  | cons htakes _ ih =>
      cases hrows with
      | cons hrow hrows => exact .cons (htakes.keyLoaded hrow) (ih hrows)

/-- What a relation field is after linked keys are loaded into it, and the selections of rows that
this takes. -/
inductive Field.Loaded (f : Field c) : List Value → Field c → List Selection → Prop
  /-- Nothing is linked, and the field always holds a record. -/
  | kept (hkind : f.descriptor.type.kind ≠ .recordList)
      (hnullable : f.descriptor.type.isNullable = false) : Loaded f [] f []
  /-- Nothing is linked, and the field holds no record. -/
  | emptied {cell : Cell c f.type} (hkind : f.descriptor.type.kind ≠ .recordList)
      (hnullable : f.descriptor.type.isNullable = true) (hrecords : cell.records = [])
      (hvalue : cell.value = .nil) : Loaded f [] { f with cell } []
  /-- The field holds one record, which is the one it held, or else a blank one, loaded for the
  first key. -/
  | single {relation : RelationType n} {key : Value} {keys : List Value} {cell : Cell c f.type}
      {load : Record c × Selection} (hkind : f.descriptor.type.kind ≠ .recordList)
      (hrelation : f.descriptor.type.relation = some relation)
      (hload : (f.records.headD (c.blankRecord relation.model)).KeyLoaded key load)
      (hrecords : cell.records = [load.1]) : Loaded f (key :: keys) { f with cell } [load.2]
  /-- The field holds a blank record loaded for each key. -/
  | list {relation : RelationType n} {keys : List Value} {cell : Cell c f.type}
      {loads : List (Record c × Selection)} (hkind : f.descriptor.type.kind = .recordList)
      (hrelation : f.descriptor.type.relation = some relation)
      (hloads : List.Forall₂ (fun key load => (c.blankRecord relation.model).KeyLoaded key load)
        keys loads)
      (hrecords : cell.records = loads.map (·.1)) :
      Loaded f keys { f with cell } (loads.map (·.2))

/-- A relational kind that is no list is that of single records. -/
theorem FieldKind.eq_record {kind : FieldKind} (h : kind.isRelation = true)
    (hne : kind ≠ .recordList) : kind = .record := by
  cases kind with
  | record => rfl
  | recordList => exact absurd rfl hne
  | _ => cases h

/-- Whether loading a relation field of a record leaves a field and makes selections: the linked
keys are selected by the key of the record, and then the rows of the records that are linked. -/
def Bound.RelationLoaded (b : Bound c k) (f : Field c) (load : Field c × List Selection) : Prop :=
  ∃ table left keys rows, b.linkTable f = .ok table ∧ b.keyLiteral = .ok left ∧
    f.Loaded keys load.1 rows ∧
    load.2 = ⟨.selectLinks table left, keys.map ([·])⟩ :: rows

/-- Whether a record is another one after its relation fields are loaded, in order. -/
structure Bound.RelationsLoaded (b b' : Bound c k) (loads : List (Field c × List Selection)) :
    Prop where
  stored : b'.stored = b.stored
  loaded : List.Forall₂ b.RelationLoaded b.relations loads
  relations : b'.relations = loads.map (·.1)

namespace Session

variable {b : Bound c k} {w : World σ} {row : List Value}

/-- A column of a relation is passed over. -/
theorem hydrate_relation {t : ColumnType n} {ts : List (ColumnType n)} {cell : Cell c t}
    {cells : Columns c ts} (h : t.classify.isRelation = true) :
    hydrate (.cons cell cells) row
      = ⟨.cons cell (hydrate cells row).storage, (hydrate cells row).result⟩ :=
  if_pos h

/-- A stored column is assigned the value that comes next. -/
theorem hydrate_stored {t : ColumnType n} {ts : List (ColumnType n)} {cell assigned : Cell c t}
    {cells : Columns c ts} {v : Value} (h : t.classify.isRelation = false)
    (hassign : cell.assign v = .ok assigned) :
    hydrate (.cons cell cells) (v :: row)
      = ⟨.cons assigned (hydrate cells row).storage, (hydrate cells row).result⟩ := by
  refine (if_neg (Bool.eq_false_iff.1 h)).trans ?_
  dsimp only
  rw [hassign]

/-- A value that cannot be assigned fails the row, and nothing is assigned any more. -/
theorem hydrate_failed {t : ColumnType n} {ts : List (ColumnType n)} {cell : Cell c t}
    {cells : Columns c ts} {v : Value} {e : ValueError} (h : t.classify.isRelation = false)
    (hassign : cell.assign v = .error e) :
    hydrate (.cons cell cells) (v :: row) = ⟨.cons cell cells, .error (.value e)⟩ := by
  refine (if_neg (Bool.eq_false_iff.1 h)).trans ?_
  dsimp only
  rw [hassign]

/-- A row that fits is assigned to the stored columns, in order, and leaves relations alone. -/
theorem hydrate_fields {ts : List (ColumnType n)} (columns : Columns c ts)
    {ds : List (Descriptor n)} (htypes : ds.map (·.type) = ts.map (·.classify))
    (hlength : row.length = (columns.stored ds).length)
    (h : (hydrate columns row).result = .ok ()) :
    List.Forall₂ (fun slot g => slot.1.Becomes slot.2 g) ((columns.stored ds).zip row)
        ((hydrate columns row).storage.stored ds) ∧
      (hydrate columns row).storage.relations ds = columns.relations ds := by
  induction ts generalizing ds row with
  | nil =>
      cases columns
      exact ⟨.nil, rfl⟩
  | cons t ts ih =>
      cases columns with
      | cons cell cells =>
          cases ds with
          | nil => cases htypes
          | cons descriptor ds =>
              obtain ⟨htype, htypes⟩ := List.cons.inj htypes
              have htype : descriptor.type = t.classify := htype
              cases hrelation : t.classify.isRelation with
              | true =>
                  have hfield : descriptor.type.isRelation = true := by rw [htype, hrelation]
                  rw [Columns.stored_cons_of_relation hfield] at hlength ⊢
                  rw [hydrate_relation hrelation] at h ⊢
                  obtain ⟨hstored, hrelations⟩ := ih cells htypes hlength h
                  rw [Columns.stored_cons_of_relation hfield,
                    Columns.relations_cons_of_relation hfield,
                    Columns.relations_cons_of_relation hfield, hrelations]
                  exact ⟨hstored, rfl⟩
              | false =>
                  have hfield : descriptor.type.isRelation = false := by rw [htype, hrelation]
                  rw [Columns.stored_cons_of_column hfield] at hlength ⊢
                  cases row with
                  | nil => cases hlength
                  | cons v row =>
                      cases hassign : cell.assign v with
                      | error e =>
                          rw [hydrate_failed hrelation hassign] at h
                          cases h
                      | ok assigned =>
                          rw [hydrate_stored hrelation hassign] at h ⊢
                          obtain ⟨hstored, hrelations⟩ := ih cells htypes (Nat.succ.inj hlength) h
                          rw [Columns.stored_cons_of_column hfield,
                            Columns.relations_cons_of_column hfield,
                            Columns.relations_cons_of_column hfield]
                          exact ⟨.cons ⟨assigned, hassign, rfl⟩ hstored, hrelations⟩

/-- A record that a row fits is hydrated from it. -/
theorem hydrate_hydrates (hlength : row.length = b.stored.length)
    (h : (hydrate b.columns row).result = .ok ()) :
    b.Hydrates row { b with columns := (hydrate b.columns row).storage } :=
  let ⟨hstored, hrelations⟩ := hydrate_fields b.columns b.types_eq hlength h
  ⟨hlength, hstored, hrelations⟩

/-- A row is selected by the literal of the key field. -/
theorem selectRow_address {s : Statement} (h : b.selectRow = .ok s) :
    ∃ key literal, b.key? = some key ∧ key.literal? = .ok (some literal) ∧
      s = .selectRow b.table (b.stored.map (·.column)) ⟨key.column, literal⟩ := by
  obtain ⟨clause, hclause, h⟩ := bind_eq_ok.1 h
  cases h
  obtain ⟨key, literal, hkey, hfound, -, rfl⟩ := Bound.keyClause_eq_ok hclause
  exact ⟨key, literal, hkey, hfound, rfl⟩

/-- Loading the row of a record selects it by its key and hydrates the record from it. -/
theorem loadRow_attains (columns : Columns c (c.model k).columnTypes) (w : World σ) :
    (loadRow columns : Action d (Attempt (Columns c (c.model k).columnTypes) Unit)).Attains w
      fun after journal => ∃ made, Record.RowLoaded ⟨k, columns⟩ ⟨k, after⟩ made ∧
        Selects [made] journal := by
  have hfetch : (do fetchRow (← Task.ofExcept columns.bind) : Task d (List Value)).Leads w
      fun row _ journal => ∃ b : Bound c k, ∃ s, columns.bind = .ok b ∧ b.selectRow = .ok s ∧
        row.length = b.stored.length ∧ Selects [⟨s, [row]⟩] journal :=
    .ofExcept_bind fun b hb row hrow =>
      let ⟨s, hs, hlength, hselects⟩ := fetchRow_leads row hrow
      ⟨b, s, hb, hs, hlength, hselects⟩
  rw [loadRow]
  refine .after hfetch (fun e w' h => by cases h) ?_
  rintro row w' journal ⟨b, s, hb, hs, hlength, hselects⟩ hresult
  obtain ⟨rfl, -⟩ := Columns.bind_eq_ok_iff.1 hb
  obtain ⟨key, literal, hkey, hliteral, rfl⟩ := selectRow_address hs
  have hrow := hydrate_hydrates hlength hresult
  exact ⟨_, .mk hb hkey hliteral hrow, hselects.append .empty⟩

mutual

/-- Loading the records that a content holds loads the row of each, in order. -/
theorem loadHeld_attains {t : ColumnType n} : (cell : Cell c t) → (w : World σ) →
    (loadHeld cell : Action d (Attempt (Cell c t) Unit)).Attains w fun after journal =>
      (cell.records = [] → after = cell) ∧ ∃ loads : List (Record c × Selection),
        List.Forall₂ (fun x load => x.RowLoaded load.1 load.2) cell.records loads ∧
          after.records = loads.map (·.1) ∧ Selects (loads.map (·.2)) journal
  | .bool _, _ | .integer _ _, _ | .float _, _ | .double _, _ | .text _, _ | .dateTime _, _
  | .raw _, _ | .absent, _ => .pure ⟨fun _ => rfl, [], .nil, rfl, .empty⟩
  | .entity columns, w => by
      rw [loadHeld]
      refine .wrap fun hresult => ?_
      obtain ⟨made, hloaded, hselects⟩ := loadRow_attains columns w hresult
      exact ⟨fun h => (List.cons_ne_nil _ _ h).elim, [(⟨_, _⟩, made)], .cons hloaded .nil, rfl,
        hselects⟩
  | .present inner, w => by
      rw [loadHeld]
      refine .wrap fun hresult => ?_
      obtain ⟨hsame, hloads⟩ := loadHeld_attains inner w hresult
      exact ⟨fun h => congrArg Cell.present (hsame h), hloads⟩
  | .boxed inner, w => by
      rw [loadHeld]
      refine .wrap fun hresult => ?_
      obtain ⟨hsame, hloads⟩ := loadHeld_attains inner w hresult
      exact ⟨fun h => congrArg Cell.boxed (hsame h), hloads⟩
  | .list items, w => by
      rw [loadHeld]
      refine .wrap fun hresult => ?_
      obtain ⟨hsame, hloads⟩ := loadItems_attains items w hresult
      exact ⟨fun h => congrArg Cell.list (hsame h), hloads⟩

theorem loadItems_attains {t : ColumnType n} : (items : Items c t) → (w : World σ) →
    (loadItems items : Action d (Attempt (Items c t) Unit)).Attains w fun after journal =>
      (items.records = [] → after = items) ∧ ∃ loads : List (Record c × Selection),
        List.Forall₂ (fun x load => x.RowLoaded load.1 load.2) items.records loads ∧
          after.records = loads.map (·.1) ∧ Selects (loads.map (·.2)) journal
  | .nil, _ => .pure ⟨fun _ => rfl, [], .nil, rfl, .empty⟩
  | .cons item items, w => by
      rw [loadItems]
      refine .bind (loadHeld_attains item w) (fun x e w' h => by cases h) ?_
      rintro first w' journal ⟨hsame, loads, hloads, hfirst, hselects⟩
      refine .wrap fun hresult => ?_
      obtain ⟨hsames, rest, hrest, hlast, hselected⟩ := loadItems_attains items w' hresult
      refine ⟨fun h => ?_, loads ++ rest, List.rel_append hloads hrest, ?_, ?_⟩
      · obtain ⟨hitem, hitems⟩ := List.append_eq_nil_iff.1 h
        rw [hsame hitem, hsames hitems]
      · rw [Items.records, hfirst, hlast, List.map_append]
      · rw [List.map_append]
        exact hselects.append hselected

end

/-- Selecting linked keys makes one selection, by the key of the record. -/
theorem fetchKeys_leads {f : Field c} : (do
    fetch (← Task.ofExcept (b.selectLinks f)) (scanColumn d (.int 0)) : Task d (List Value)).Leads w
      fun keys _ journal => ∃ table left, b.linkTable f = .ok table ∧ b.keyLiteral = .ok left ∧
        Selects [⟨.selectLinks table left, keys.map ([·])⟩] journal := by
  refine .ofExcept_bind fun s hs keys hkeys => ?_
  obtain ⟨table, htable, hs⟩ := bind_eq_ok.1 hs
  obtain ⟨left, hleft, hs⟩ := bind_eq_ok.1 hs
  cases hs
  exact ⟨table, left, htable, hleft, fetchColumn_leads keys hkeys⟩

/-- Loading a relation field selects the linked keys and then the rows of the linked records. -/
theorem loadRelation_attains {descriptor : Descriptor n} {t : ColumnType n} (cell : Cell c t)
    (htype : descriptor.type = t.classify) (hrelation : descriptor.type.isRelation = true) :
    (loadRelation b descriptor cell : Action d (Attempt (Cell c t) Unit)).Attains w
      fun after journal => ∃ made,
        b.RelationLoaded ⟨descriptor, t, cell⟩ (⟨descriptor, t, after⟩, made) ∧
          Selects made journal := by
  rw [loadRelation]
  refine .after fetchKeys_leads (fun e w' h => by cases h) ?_
  rintro keys w' journal ⟨table, left, htable, hleft, hselects⟩
  obtain ⟨relation, hrelation⟩ := Option.isSome_iff_exists.1 hrelation
  have hrelation' : t.classify.relation = some relation := htype ▸ hrelation
  dsimp only
  by_cases hkind : descriptor.type.kind = .recordList
  · have hlinked : linkedValue descriptor.type.kind keys = .list (keys.map .reference) :=
      if_pos hkind
    rw [hlinked, if_neg (by simp [Value.isNil])]
    cases hassign : cell.assign (.list (keys.map .reference)) with
    | error e =>
        intro hresult
        cases hresult
    | ok assigned =>
        have htakes := Cell.records_assign_references hrelation' (htype ▸ hkind) hassign
        intro hresult
        obtain ⟨-, loads, hloads, hrecords, hmade⟩ := loadHeld_attains assigned w' hresult
        have hloaded := Record.keyLoaded_of_forall₂ htakes hloads
        exact ⟨_, ⟨table, left, keys, _, htable, hleft,
          .list hkind hrelation hloaded hrecords, rfl⟩, hselects.append hmade⟩
  · cases keys with
    | nil =>
        have hlinked : linkedValue descriptor.type.kind [] = .nil := if_neg hkind
        rw [hlinked]
        cases hnullable : descriptor.type.isNullable with
        | false =>
            exact .pure ⟨_, ⟨table, left, [], _, htable, hleft, .kept hkind hnullable, rfl⟩,
              by rwa [List.append_nil]⟩
        | true =>
            rw [if_neg (by simp)]
            cases hassign : cell.assign .nil with
            | error e =>
                intro hresult
                cases hresult
            | ok assigned =>
                obtain ⟨hrecords, hvalue⟩ := Cell.assign_nil (htype ▸ hnullable) hassign
                intro hresult
                obtain ⟨hsame, loads, hloads, -, hmade⟩ := loadHeld_attains assigned w' hresult
                rw [hrecords] at hloads
                cases hloads
                refine ⟨_, ⟨table, left, [], [], htable, hleft, ?_, rfl⟩, hselects.append hmade⟩
                rw [hsame hrecords]
                exact .emptied hkind hnullable hrecords hvalue
    | cons key keys =>
        have hlinked : linkedValue descriptor.type.kind (key :: keys) = .reference key :=
          if_neg hkind
        rw [hlinked, if_neg (by simp [Value.isNil])]
        cases hassign : cell.assign (.reference key) with
        | error e =>
            intro hresult
            cases hresult
        | ok assigned =>
            have hsingle : t.classify.kind = .record :=
              FieldKind.eq_record (ColumnType.isRelation_kind hrelation') (htype ▸ hkind)
            obtain ⟨x, hx, htakes⟩ := Cell.records_assign_reference hrelation' hsingle hassign
            intro hresult
            obtain ⟨-, loads, hloads, hrecords, hmade⟩ := loadHeld_attains assigned w' hresult
            rw [hx] at hloads
            obtain ⟨load, _, hload, hnone, rfl⟩ := List.forall₂_cons_left_iff.1 hloads
            cases hnone
            exact ⟨_, ⟨table, left, key :: keys, _, htable, hleft,
              .single hkind hrelation (htakes.keyLoaded hload) hrecords, rfl⟩,
              hselects.append hmade⟩

/-- Loading the relation fields of a record loads each of them, in order, and leaves its stored
columns alone. -/
theorem loadRelations_attains {ts : List (ColumnType n)} (columns : Columns c ts)
    {ds : List (Descriptor n)} (htypes : ds.map (·.type) = ts.map (·.classify)) (w : World σ) :
    (loadRelations b columns ds : Action d (Attempt (Columns c ts) Unit)).Attains w
      fun after journal => after.stored ds = columns.stored ds ∧
        ∃ loads : List (Field c × List Selection),
          List.Forall₂ b.RelationLoaded (columns.relations ds) loads ∧
            after.relations ds = loads.map (·.1) ∧ Selects (loads.flatMap (·.2)) journal := by
  induction ts generalizing ds w with
  | nil =>
      cases columns
      cases ds with
      | nil => exact .pure ⟨rfl, [], .nil, rfl, .empty⟩
      | cons descriptor ds => cases htypes
  | cons t ts ih =>
      cases columns with
      | cons cell cells =>
          cases ds with
          | nil => cases htypes
          | cons descriptor ds =>
              obtain ⟨htype, htypes⟩ := List.cons.inj htypes
              have htype : descriptor.type = t.classify := htype
              rw [loadRelations]
              cases hrelation : descriptor.type.isRelation with
              | true =>
                  rw [if_pos rfl]
                  refine .bind (loadRelation_attains cell htype hrelation)
                    (fun x e w' h => by cases h) ?_
                  rintro first w' journal ⟨made, hloaded, hselects⟩
                  refine .wrap fun hresult => ?_
                  obtain ⟨hstored, loads, hloads, hrelations, hmade⟩ := ih cells htypes w' hresult
                  rw [Columns.stored_cons_of_relation hrelation,
                    Columns.stored_cons_of_relation hrelation,
                    Columns.relations_cons_of_relation hrelation,
                    Columns.relations_cons_of_relation hrelation]
                  refine ⟨hstored, _, .cons hloaded hloads, ?_, ?_⟩
                  · rw [hrelations]
                    rfl
                  · exact hselects.append hmade
              | false =>
                  rw [if_neg Bool.false_ne_true]
                  refine .bind (P := fun x journal => x = cell ∧ journal = []) (.pure ⟨rfl, rfl⟩)
                    (fun x e w' h => by cases h) ?_
                  rintro _ w' _ ⟨rfl, rfl⟩
                  refine .wrap fun hresult => ?_
                  obtain ⟨hstored, loads, hloads, hrelations, hmade⟩ := ih cells htypes w' hresult
                  rw [Columns.stored_cons_of_column hrelation,
                    Columns.stored_cons_of_column hrelation,
                    Columns.relations_cons_of_column hrelation,
                    Columns.relations_cons_of_column hrelation, hstored]
                  exact ⟨rfl, loads, hloads, hrelations, hmade⟩

/-! ## Queries -/

/-- Loading a record from its row hydrates it and loads its relation fields. -/
theorem loadRecord_attains (hlength : row.length = b.stored.length) :
    (loadRecord b row : Action d (Attempt (Columns c (c.model k).columnTypes) Unit)).Attains w
      fun after journal => ∃ (hydrated loaded : Bound c k)
        (loads : List (Field c × List Selection)), b.Hydrates row hydrated ∧
          hydrated.RelationsLoaded loaded loads ∧ loaded.columns = after ∧
          Selects (loads.flatMap (·.2)) journal := by
  rw [loadRecord]
  cases hrow : (hydrate b.columns row).result with
  | error e =>
      intro hresult
      cases hresult
  | ok =>
      let hydrated : Bound c k := { b with columns := (hydrate b.columns row).storage }
      intro hresult
      obtain ⟨hstored, loads, hloads, hrelations, hselects⟩ :=
        loadRelations_attains (b := hydrated) hydrated.columns b.types_eq w hresult
      exact ⟨hydrated, { b with columns := _ }, loads, hydrate_hydrates hlength hrow,
        ⟨hstored, hloads, hrelations⟩, rfl, hselects⟩

/-- A query that succeeds selects the row of the record, by its key, and hydrates the record from
it; then it loads each relation field, in order, by the key that was read: the linked keys are
selected, and the row of each record that the field holds for them. -/
theorem query_loads (r : Record c) (w : World σ)
    (h : ((query (d := d) r).run w).value.result = .ok ()) :
    ∃ (hydrated loaded : Bound c r.model) (made : Selection)
      (loads : List (Field c × List Selection)),
      r.RowLoaded hydrated.record made ∧ hydrated.RelationsLoaded loaded loads ∧
        ((query (d := d) r).run w).value.storage = loaded.record ∧
        selections ((query (d := d) r).run w).journal = made :: loads.flatMap (·.2) := by
  let work (b : Bound c r.model) : Staged d (Record c) Unit := do
    let row ← Staged.task (fetchRow b)
    Staged.advance .hydrating
    Staged.attempt fun _ => do
      let left ← loadRecord b row
      return ⟨⟨r.model, left.storage⟩, left.result⟩
  obtain ⟨b, p, w', before, after, hb, -, hbefore, hafter, hresult, hstorage, hjournal⟩ :=
    operate_prepared work (fun _ _ => rfl) h
  have hwork : (work b).Leads p w' fun _ left _ journal =>
      ∃ (hydrated loaded : Bound c r.model) (made : Selection)
        (loads : List (Field c × List Selection)), r.RowLoaded hydrated.record made ∧
          hydrated.RelationsLoaded loaded loads ∧ left.storage = loaded.record ∧
          Selects (made :: loads.flatMap (·.2)) journal := by
    refine .bind (fun row _ _ journal => ∃ s, b.selectRow = .ok s ∧ row.length = b.stored.length ∧
      Selects [⟨s, [row]⟩] journal) (.task fetchRow_leads fun _ _ _ hrow => hrow) ?_
    rintro row p w journal ⟨s, hs, hlength, hselects⟩
    obtain ⟨key, literal, hkey, hliteral, rfl⟩ := selectRow_address hs
    refine .bind (fun _ _ _ journal => Selects [] journal) (.advance fun _ => rfl) ?_
    intro _ p w hydrating hhydrating
    have hload : (do
        let left ← loadRecord b row
        return ⟨⟨r.model, left.storage⟩, left.result⟩ :
          Action d (Attempt (Record c) Unit)).Attains w fun storage journal =>
            ∃ (hydrated loaded : Bound c r.model) (loads : List (Field c × List Selection)),
              b.Hydrates row hydrated ∧ hydrated.RelationsLoaded loaded loads ∧
                loaded.record = storage ∧ Selects (loads.flatMap (·.2)) journal := by
      refine .wrap fun hresult => ?_
      obtain ⟨hydrated, loaded, loads, hrow, hloads, hcolumns, hmade⟩ :=
        loadRecord_attains hlength hresult
      exact ⟨hydrated, loaded, loads, hrow, hloads, congrArg (Record.mk r.model) hcolumns, hmade⟩
    refine .attempt fun _ hresult => ?_
    obtain ⟨hydrated, loaded, loads, hrow, hloads, hstorage, hmade⟩ := hload hresult
    obtain ⟨hcolumns, -⟩ := Columns.bind_eq_ok_iff.1 hb
    have hrecord : b.record = r := congrArg (Record.mk r.model) hcolumns
    have hloadedRow := Record.RowLoaded.mk (hcolumns.symm ▸ hb) hkey hliteral hrow
    rw [hrecord] at hloadedRow
    exact ⟨hydrated, loaded, _, loads, hloadedRow, hloads, hstorage.symm,
      hselects.append (hhydrating.append hmade)⟩
  obtain ⟨hydrated, loaded, made, loads, hrow, hloads, hleft, hselects⟩ := hwork () hresult
  refine ⟨hydrated, loaded, made, loads, hrow, hloads, hstorage.trans hleft, ?_⟩
  have hall := hselects.around (fun entry hentry => (hbefore entry hentry).select)
    fun entry hentry => (hafter entry hentry).select
  rw [query, hjournal]
  exact hall.selections_eq

end Session

/-! ## A branch -/

/-- A database in which every query has one row, and every value that is read is 3. -/
def echo : Driver Nat where
  step
    | .query _, _ => (.ok (), 1)
    | .next, 0 => (.ok false, 0)
    | .next, rows + 1 => (.ok true, rows)
    | .read slots, rows => (.ok ⟨slots.map fun _ => .int 3, List.length_map ..⟩, rows)
    | .finish, _ => (.ok (), 0)
    | .insert _, rows | .update _, rows | .delete _, rows => (.ok (1 : UInt64), rows)
    | .tableExists _, rows => (.ok true, rows)
    | .release, rows | .begin, rows | .commit, rows | .rollback, rows | .execute _, rows =>
        (.ok (), rows)
  remaining rows := rows
  remaining_next rows h := by
    cases rows with
    | zero => cases h
    | succ rows => exact Nat.lt_succ_self rows
  remaining_read _ _ := Nat.le_refl _

/-- A leaf with the key of the echo. -/
def echoedLeaf : Bound forest 0 := node 3 (by decide) .absent .nil

/-- A branch that is loaded from the echo. -/
def echoedBranch : Bound forest 0 :=
  node 3 (by decide) (.present (.boxed (.entity echoedLeaf.columns)))
    (.cons (.entity echoedLeaf.columns) .nil)

section Node

variable {id : Int} {holds : IntegerKind.int64.Holds id}
  {parent : Cell forest (.nullable (.boxed (.entity 0)))} {children : Items forest (.entity 0)}

/-- A node takes a key. -/
theorem assign_node {v : Value} {x : Int} (hx : IntegerKind.int64.Holds x)
    (hv : v.key.toInteger (.integer .int64) = .ok x) :
    (.entity (node id holds parent children).columns : Cell forest (.entity 0)).assign v
      = .ok (.entity (node x hx parent children).columns) := by
  rw [Cell.assign_entity]
  exact bind_eq_ok.2 ⟨_, bind_eq_ok.2 ⟨_, Catalog.build_integer hx hv, rfl⟩, rfl⟩

/-- A parent takes a key in place. -/
theorem assign_parent : (.present (.boxed (.entity (node id holds .absent .nil).columns)) :
    Cell forest (.nullable (.boxed (.entity 0)))).assign (.reference (.int 3))
      = .ok (.present (.boxed (.entity echoedLeaf.columns))) :=
  bind_eq_ok.2 ⟨_, bind_eq_ok.2 ⟨_, assign_node _ rfl, rfl⟩, rfl⟩

theorem blankColumns_forest :
    forest.blankColumns 0 = (node 0 (by decide) .absent .nil).columns := by
  show Columns.cons (forest.blank _) (.cons (forest.blank _) (.cons (forest.blank _) .nil)) = _
  rw [Catalog.blank, Catalog.blank, Catalog.blank]
  rfl

/-- A list of nodes takes a key for a new node. -/
theorem assign_children :
    (.list children : Cell forest (.list (.entity 0))).assign (.list [.reference (.int 3)])
      = .ok (.list (.cons (.entity echoedLeaf.columns) .nil)) := by
  have hitem : forest.build (.entity 0) (.reference (.int 3))
      = .ok (.entity echoedLeaf.columns) := by
    rw [← Catalog.assign_blank, Catalog.blank_entity, blankColumns_forest]
    exact assign_node _ rfl
  have hbuild : (.list children : Cell forest (.list (.entity 0))).assign
      (.list [.reference (.int 3)])
        = forest.build (.list (.entity 0)) (.list [.reference (.int 3)]) := rfl
  rw [hbuild, Catalog.build]
  refine bind_eq_ok.2 ⟨[.reference (.int 3)], rfl, bind_eq_ok.2 ⟨[_], ?_, rfl⟩⟩
  rw [List.mapM_cons, hitem]
  rfl

namespace Session

theorem hydrate_node : hydrate (node id holds parent children).columns [.int 3]
    = ⟨(node 3 (by decide) parent children).columns, .ok ()⟩ := by
  have hassign : (Cell.integer id holds : Cell forest (.integer .int64)).assign (.int 3)
      = .ok (.integer 3 (by decide)) := Catalog.build_integer _ rfl
  exact (hydrate_stored rfl hassign).trans rfl

/-- The row of a node is the key of the echo. -/
theorem fetchRow_echo (w : World Nat) : ∃ journal,
    (fetchRow (node id holds parent children)).exec (d := echo) w
      = ⟨.ok [.int 3], ⟨0, w.cache⟩, journal⟩ :=
  ⟨_, rfl⟩

/-- The linked keys of a node are that of the echo. -/
theorem fetchKeys_echo {f : Field forest} {s : Statement} (w : World Nat)
    (hs : (node id holds parent children).selectLinks f = .ok s) : ∃ journal,
    (do fetch (← Task.ofExcept ((node id holds parent children).selectLinks f))
          (scanColumn echo (.int 0)) : Task echo (List Value)).exec w
      = ⟨.ok [.int 3], ⟨0, w.cache⟩, journal⟩ := by
  have hscan : scanColumn echo (.int 0) ⟨1, w.cache⟩ = ⟨.ok [.int 3], ⟨0, w.cache⟩,
      [.call .next (.ok true), .call (.read [.int 0]) (.ok ⟨[.int 3], rfl⟩),
        .call .next (.ok false)]⟩ := by
    rw [scanColumn]
    dsimp only [echo]
    rw [scanColumn]
    rfl
  have hfetch : (fetch s (scanColumn echo (.int 0)) : Task echo (List Value)).exec w = _ :=
    fetch_exec rfl hscan rfl
  rw [hs]
  exact ⟨_, Task.exec_bind_eq (Task.exec_ofExcept _) hfetch⟩

/-- Loading a node gives it the key of the echo. -/
theorem loadHeld_echo (w : World Nat) : ∃ journal,
    (loadHeld (.entity (node id holds parent children).columns : Cell forest (.entity 0))).run
        (d := echo) w
      = ⟨⟨.entity (node 3 (by decide) parent children).columns, .ok ()⟩, ⟨0, w.cache⟩,
        journal⟩ := by
  obtain ⟨journal, hfetch⟩ : ∃ journal, (fetchRow (node id holds parent children)).exec
      (d := echo) w = ⟨.ok [.int 3], ⟨0, w.cache⟩, journal⟩ := fetchRow_echo w
  have htask : (do fetchRow (← Task.ofExcept (node id holds parent children).columns.bind) :
      Task echo (List Value)).run.run w = ⟨.ok [.int 3], ⟨0, w.cache⟩, [] ++ journal⟩ := by
    rw [bind_node]
    exact Task.exec_bind_eq (Task.exec_ofExcept _) hfetch
  refine ⟨([] ++ journal ++ []) ++ [], ?_⟩
  rw [loadHeld, Action.run_bind, loadRow, Action.run_bind, htask]
  dsimp only
  rw [hydrate_node]
  rfl

/-- Loading a relation field of a node assigns it the key of the echo. -/
theorem loadRelation_echo {descriptor : Descriptor 1} {t : ColumnType 1}
    {cell assigned loaded : Cell forest t} {s : Statement}
    (hs : (node id holds parent children).selectLinks ⟨descriptor, t, cell⟩ = .ok s)
    (hlinked : (linkedValue descriptor.type.kind [.int 3]).isNil = false)
    (hassign : cell.assign (linkedValue descriptor.type.kind [.int 3]) = .ok assigned)
    (hload : ∀ w, ∃ journal, (loadHeld (d := echo) assigned).run w
      = ⟨⟨loaded, .ok ()⟩, ⟨0, w.cache⟩, journal⟩) (w : World Nat) : ∃ journal,
    (loadRelation (d := echo) (node id holds parent children) descriptor cell).run w
      = ⟨⟨loaded, .ok ()⟩, ⟨0, w.cache⟩, journal⟩ := by
  obtain ⟨journal, hfetch⟩ := fetchKeys_echo w hs
  have hfetch : (do fetch (← Task.ofExcept ((node id holds parent children).selectLinks
      ⟨descriptor, t, cell⟩)) (scanColumn echo (.int 0)) : Task echo (List Value)).run.run w
        = ⟨.ok [.int 3], ⟨0, w.cache⟩, journal⟩ := hfetch
  obtain ⟨later, hload⟩ := hload ⟨0, w.cache⟩
  refine ⟨journal ++ later, ?_⟩
  rw [loadRelation, Action.run_bind, hfetch]
  dsimp only
  rw [if_neg (by simp [hlinked]), hassign]
  dsimp only
  rw [hload]

end Session

end Node

namespace Session

/-- The parent and the child of a branch get the key of the echo. -/
theorem loadRelations_branch (w : World Nat) : ∃ journal,
    (loadRelations (d := echo) (branch 3 1 (by decide) (by decide))
        (branch 3 1 (by decide) (by decide)).columns
        (branch 3 1 (by decide) (by decide)).descriptors).run w
      = ⟨⟨echoedBranch.columns, .ok ()⟩, ⟨0, w.cache⟩, journal⟩ := by
  let b := branch 3 1 (by decide) (by decide)
  have hleaf (w : World Nat) : ∃ journal, (loadHeld (.entity echoedLeaf.columns :
      Cell forest (.entity 0))).run (d := echo) w
        = ⟨⟨.entity echoedLeaf.columns, .ok ()⟩, ⟨0, w.cache⟩, journal⟩ := loadHeld_echo w
  obtain ⟨first, hparent⟩ : ∃ journal, (loadRelation (d := echo) b
      ⟨1, "parent", ⟨"parent", false, false, by decide, by decide⟩,
        ⟨.record, true, true, some ⟨0, true⟩⟩⟩ (.present (.boxed (.entity
          (node 9 (by decide) .absent .nil).columns)) :
            Cell forest (.nullable (.boxed (.entity 0))))).run w
        = ⟨⟨.present (.boxed (.entity echoedLeaf.columns)), .ok ()⟩, ⟨0, w.cache⟩, journal⟩ := by
    refine loadRelation_echo (bind_eq_ok.2 ⟨_, rfl, bind_eq_ok.2 ⟨_, rfl, rfl⟩⟩) rfl
      assign_parent (fun w => ?_) w
    obtain ⟨journal, hleaf⟩ := hleaf w
    refine ⟨(journal ++ []) ++ [], ?_⟩
    rw [loadHeld, Action.run_bind, loadHeld, Action.run_bind, hleaf]
    rfl
  obtain ⟨later, hchildren⟩ : ∃ journal, (loadRelation (d := echo) b
      ⟨2, "children", ⟨"children", false, false, by decide, by decide⟩,
        ⟨.recordList, false, false, some ⟨0, false⟩⟩⟩ (.list (.cons (.entity
          (node 1 (by decide) .absent .nil).columns) .nil) :
            Cell forest (.list (.entity 0)))).run ⟨0, w.cache⟩
        = ⟨⟨.list (.cons (.entity echoedLeaf.columns) .nil), .ok ()⟩, ⟨0, w.cache⟩, journal⟩ := by
    refine loadRelation_echo (bind_eq_ok.2 ⟨_, rfl, bind_eq_ok.2 ⟨_, rfl, rfl⟩⟩) rfl
      assign_children (fun w => ?_) _
    obtain ⟨journal, hleaf⟩ := hleaf w
    refine ⟨(journal ++ ([] ++ [])) ++ [], ?_⟩
    rw [loadHeld, Action.run_bind, loadItems, Action.run_bind, hleaf, loadItems]
    rfl
  have hlast : (loadRelations (d := echo) b (.nil : Columns forest []) []).run ⟨0, w.cache⟩
      = ⟨⟨.nil, .ok ()⟩, ⟨0, w.cache⟩, []⟩ := by
    rw [loadRelations]
    rfl
  refine ⟨[] ++ ((first ++ ((later ++ ([] ++ [])) ++ [])) ++ []), ?_⟩
  show (loadRelations _ (.cons _ (.cons _ (.cons _ .nil))) [_, _, _]).run w = _
  rw [loadRelations, if_neg (by decide), Action.run_bind, Action.run_pure]
  dsimp only
  rw [Action.run_bind, loadRelations, if_pos (by decide), Action.run_bind, hparent]
  dsimp only
  rw [Action.run_bind, loadRelations, if_pos (by decide), Action.run_bind, hchildren]
  dsimp only
  rw [Action.run_bind, hlast]
  rfl

/-- Querying a branch of the echo gives every node the key of the echo. -/
theorem query_branch : ((query (d := echo) (branch 7 1 (by decide) (by decide)).record).run
    ⟨0, forestCache⟩).value = ⟨echoedBranch.record, .ok ()⟩ := by
  let b := branch 7 1 (by decide) (by decide)
  let work (b : Bound forest 0) : Staged echo (Record forest) Unit := do
    let row ← Staged.task (fetchRow b)
    Staged.advance .hydrating
    Staged.attempt fun _ => do
      let left ← loadRecord b row
      return ⟨⟨0, left.storage⟩, left.result⟩
  have hrow : hydrate b.columns [.int 3]
      = ⟨(branch 3 1 (by decide) (by decide)).columns, .ok ()⟩ := hydrate_node
  obtain ⟨before, hfetch⟩ : ∃ journal, (fetchRow b : Task echo (List Value)).exec
      ⟨0, forestCache⟩ = ⟨.ok [.int 3], ⟨0, forestCache⟩, journal⟩ := fetchRow_echo _
  obtain ⟨journal, hrelations⟩ := loadRelations_branch ⟨0, forestCache⟩
  have hloaded : (loadRecord b [.int 3]).run (d := echo) ⟨0, forestCache⟩
      = ⟨⟨echoedBranch.columns, .ok ()⟩, ⟨0, forestCache⟩, journal⟩ := by
    rw [loadRecord, hrow]
    exact hrelations
  have hrecord : (do
      let left ← loadRecord b [.int 3]
      return ⟨⟨0, left.storage⟩, left.result⟩ : Action echo (Attempt (Record forest) Unit)).run
        ⟨0, forestCache⟩
      = ⟨⟨echoedBranch.record, .ok ()⟩, ⟨0, forestCache⟩, journal ++ []⟩ := by
    rw [Action.run_bind, hloaded]
    rfl
  have hwork : ((work b).exec ⟨.query, (forest.model 0).name, .executing, b.record⟩
      ⟨0, forestCache⟩).value
      = (.ok (), ⟨.query, (forest.model 0).name, .hydrating, echoedBranch.record⟩) := by
    rw [Staged.exec_bind, Staged.exec_task, hfetch]
    dsimp only
    rw [Staged.exec_bind, Staged.exec_advance]
    dsimp only
    rw [Staged.exec_attempt]
    dsimp only
    rw [hrecord]
  refine (operate_known work (fun _ _ => rfl) introspect_node (ensureSchema_forest 0)).trans ?_
  exact congrArg (fun left : Except MapperError Unit × Progress (Record forest) =>
    Attempt.mk left.2.storage left.1) hwork

/-- The query of a branch of the echo loads its row, its parent and its child. -/
theorem query_branch_loads :
    ((query (d := echo) (branch 7 1 (by decide) (by decide)).record).run ⟨0, forestCache⟩).value
        = ⟨echoedBranch.record, .ok ()⟩ ∧
      ∃ (hydrated loaded : Bound forest 0) (made : Selection)
        (loads : List (Field forest × List Selection)),
        (branch 7 1 (by decide) (by decide)).record.RowLoaded hydrated.record made ∧
          hydrated.RelationsLoaded loaded loads ∧ echoedBranch.record = loaded.record ∧
          selections ((query (d := echo) (branch 7 1 (by decide) (by decide)).record).run
            ⟨0, forestCache⟩).journal = made :: loads.flatMap (·.2) := by
  obtain ⟨hydrated, loaded, made, loads, hrow, hloads, hleft, hselections⟩ :=
    query_loads (d := echo) (branch 7 1 (by decide) (by decide)).record ⟨0, forestCache⟩
      (by rw [query_branch])
  rw [query_branch] at hleft
  exact ⟨query_branch, hydrated, loaded, made, loads, hrow, hloads, hleft, hselections⟩

end Session

end EntityMapper
