import EntityMapper.Proofs.Storage.Related

/-!
# Assigning and building

A content that is assigned a value reads as one that is built from the value, and either both fail
or neither does, with the same error (`Cell.map_value_assign`). Where the type has no records, what
assigning answers is what is built (`Cell.assign_eq_build_of_base?`); a record that is assigned to
keeps every field but its key (`Columns.contents_assignAt`).

`Cell.store` assigns in place, part by part as a mutable content is written, and tells what is left
also where it fails: a failure is found before anything is written (`Cell.store_eq`).
-/

namespace EntityMapper

variable {n : Nat} {c : Catalog n} {k : Fin n} {t : ColumnType n} {ts : List (ColumnType n)}

namespace Columns

/-! ## One column of a record -/

/-- Assigning to the column at a position assigns to its content. -/
theorem assignAt_eq (columns : Columns c ts) {index : Nat} (typed : ts[index]? = some t) :
    ∃ cell : Cell c t, ∀ v, columns.assignAt index v = do
      let assigned ← cell.assign v
      return columns.replaceAt index typed assigned := by
  induction ts generalizing index with
  | nil => cases typed
  | cons u ts ih =>
      cases columns with
      | cons cell cells =>
          cases index with
          | zero =>
              obtain rfl := Option.some.inj typed
              exact ⟨cell, fun v => rfl⟩
          | succ index =>
              obtain ⟨held, hheld⟩ := ih cells typed
              refine ⟨held, fun v => ?_⟩
              rw [assignAt, hheld]
              cases held.assign v <;> rfl

/-- A content that was put at a position is read there. -/
theorem valueAt_replaceAt (columns : Columns c ts) {index : Nat} (typed : ts[index]? = some t)
    (cell : Cell c t) : (columns.replaceAt index typed cell).valueAt index = cell.value := by
  induction ts generalizing index with
  | nil => cases typed
  | cons u ts ih =>
      cases columns with
      | cons first cells =>
          cases index with
          | zero =>
              obtain rfl := Option.some.inj typed
              rfl
          | succ index => exact ih cells typed

/-- The contents of columns, each with its type. -/
def contents : {ts : List (ColumnType n)} → Columns c ts → List (Sigma (Cell c))
  | _, .nil => []
  | t :: _, .cons cell cells => ⟨t, cell⟩ :: cells.contents

/-- Assigning to the column at a position leaves the contents at all others. -/
theorem contents_assignAt {columns columns' : Columns c ts} {index : Nat} {v : Value}
    (h : columns.assignAt index v = .ok columns') {i : Nat} (hi : i ≠ index) :
    columns'.contents[i]? = columns.contents[i]? := by
  induction ts generalizing index i with
  | nil =>
      cases columns
      cases h
  | cons u ts ih =>
      cases columns with
      | cons cell cells =>
          cases index with
          | zero =>
              obtain ⟨assigned, -, h⟩ := bind_eq_ok.1 h
              cases h
              cases i with
              | zero => exact absurd rfl hi
              | succ i => rfl
          | succ index =>
              obtain ⟨cells', hcells, h⟩ := bind_eq_ok.1 h
              cases h
              cases i with
              | zero => rfl
              | succ i => exact ih hcells fun heq => hi (congrArg Nat.succ heq)

end Columns

namespace Cell

/-! ## What is read afterwards -/

/-- A record whose key is replaced reads as a reference to the new key. -/
theorem value_replaceAt {index : Nat} (hindex : (c.model k).offeredKey? = some index)
    {columns : Columns c (c.model k).columnTypes} {typed : (c.model k).columnTypes[index]? = some t}
    {cell : Cell c t} :
    (Cell.entity (columns.replaceAt index typed cell)).value = .reference cell.value := by
  rw [value, hindex]
  exact congrArg Value.reference (columns.valueAt_replaceAt typed cell)

/-- Contents that read alike, put where they are read, read alike. -/
theorem map_value_wrap {t u : ColumnType n} {x y : Except ValueError (Cell c t)}
    {wrap wrap' : Cell c t → Cell c u} (h : x.map value = y.map value)
    (hwrap : ∀ a b, a.value = b.value → (wrap a).value = (wrap' b).value) :
    (do return wrap (← x) : Except ValueError (Cell c u)).map value =
      (do return wrap' (← y) : Except ValueError (Cell c u)).map value := by
  cases x with
  | error e =>
      cases y with
      | error e' =>
          cases h
          rfl
      | ok b => cases h
  | ok a =>
      cases y with
      | error e => cases h
      | ok b => exact congrArg Except.ok (hwrap a b (Except.ok.inj h))

/-- What is read from a content that was assigned a value is what is read from one that was built
from it, and where one of the two fails, the other one does with the same error. -/
theorem map_value_assign : (t : ColumnType n) → (cell : Cell c t) → (v : Value) →
    (cell.assign v).map Cell.value = (c.build t v).map Cell.value
  | .bool, .bool _, _ | .integer _, .integer _ _, _ | .float, .float _, _ | .double, .double _, _
  | .text, .text _, _ | .dateTime, .dateTime _, _ | .raw, .raw _, _ | .nullable _, .absent, _
  | .list _, .list _, _ => rfl
  | .nullable t, .present inner, v => by
      rw [Cell.assign, Catalog.build]
      split
      · rfl
      · exact map_value_wrap (map_value_assign t inner v) fun _ _ h => h
  | .boxed t, .boxed inner, v => by
      rw [Cell.assign, Catalog.build]
      exact map_value_wrap (map_value_assign t inner v) fun _ _ h => h
  | .entity k, .entity columns, v => by
      rw [Cell.assign_entity, Catalog.build, EntityModel.offeredKey?_eq]
      cases hfound : (c.model k).offeredKeyField? with
      | none => rfl
      | some found =>
          obtain ⟨⟨index, f⟩, hf, hkey⟩ := found
          have typed := EntityModel.columnTypes_of_field hf
          obtain ⟨held, hheld⟩ := columns.assignAt_eq typed
          have hindex := EntityModel.offeredKey?_of_field hfound
          dsimp only [Option.map]
          rw [hheld, bind_assoc]
          simp only [pure_bind]
          refine map_value_wrap (map_value_assign f.type held v.key) fun a b h => ?_
          rw [value_replaceAt hindex, value_replaceAt hindex, h]
termination_by t => (c.baseRank t, t.depth)
decreasing_by
  · exact Prod.Lex.right _ (by simp [ColumnType.depth])
  · exact Prod.Lex.right _ (by simp [ColumnType.depth])
  · exact Prod.Lex.left _ _ (c.baseRank_key_lt (List.mem_of_getElem? hf) hkey)

end Cell

/-! ## What a record keeps -/

/-- Whether contents of a type hold one record at most: one of a model, under options and boxes
only. -/
def ColumnType.isSingle : ColumnType n → Bool
  | .entity _ => true
  | .nullable t | .boxed t => t.isSingle
  | _ => false

/-- The offered key is the primary key. -/
theorem EntityModel.keyIndex?_of_offeredKey? {m : EntityModel n} {index : Nat}
    (h : m.offeredKey? = some index) : m.keyIndex? = some index :=
  ((Option.filter_eq_some_iff).1 h).1

/-- A record that is assigned to keeps its model and every field but its primary key. -/
theorem Cell.keeps_of_assign (hsingle : t.isSingle = true) {cell stored : Cell c t} {v : Value}
    (h : cell.assign v = .ok stored) {x y : Record c} (hx : cell.records = [x])
    (hy : stored.records = [y]) : y.model = x.model ∧ ∀ i, (c.model x.model).keyIndex? ≠ some i →
      y.columns.contents[i]? = x.columns.contents[i]? := by
  induction t with
  | entity k =>
      cases cell with
      | entity columns =>
          obtain rfl := (List.cons.inj hx).1
          rw [assign_entity] at h
          split at h
          · rename_i index hindex
            obtain ⟨columns', hcolumns, h⟩ := bind_eq_ok.1 h
            cases h
            obtain rfl := (List.cons.inj hy).1
            refine ⟨rfl, fun i hi => Columns.contents_assignAt hcolumns ?_⟩
            rintro rfl
            exact hi (EntityModel.keyIndex?_of_offeredKey? hindex)
          · cases h
  | nullable t ih =>
      cases cell with
      | absent => cases hx
      | present inner =>
          rw [Cell.assign] at h
          split at h
          · cases h
            cases hy
          · obtain ⟨stored', hstored, h⟩ := bind_eq_ok.1 h
            cases h
            exact ih hsingle hstored hx hy
  | boxed t ih =>
      cases cell with
      | boxed inner =>
          obtain ⟨stored', hstored, h⟩ := bind_eq_ok.1 h
          cases h
          exact ih hsingle hstored hx hy
  | bool | integer | float | double | text | dateTime | raw | list => cases hsingle

/-! ## Assigning in place -/

/-- What is left of some storage, and whether a value was refused, where a new one is answered. -/
def leftBy {α : Type} (before : α) : Except ValueError α → α × Except ValueError Unit
  | .ok after => (after, .ok ())
  | .error e => (before, .error e)

/-- Storage that is put into place is left as it is inside. -/
theorem leftBy_wrap {α β : Type} (wrap : α → β) (before : α) (answer : Except ValueError α) :
    leftBy (wrap before) (do return wrap (← answer)) =
      (wrap (leftBy before answer).1, (leftBy before answer).2) := by
  cases answer <;> rfl

mutual

/-- Assigns a value to a content part by part, and tells what is left of the content and whether the
value was refused. -/
def Cell.store : {t : ColumnType n} → Cell c t → Value → Cell c t × Except ValueError Unit
  | .entity k, .entity columns, v =>
      match (c.model k).offeredKey? with
      | some index =>
          let left := columns.storeAt index v.key
          (.entity left.1, left.2)
      | none => (.entity columns, .error .missingPrimaryKey)
  | _, .present inner, v =>
      if v.isNil then (.absent, .ok ())
      else
        let left := inner.store v
        (.present left.1, left.2)
  | _, .boxed inner, v =>
      let left := inner.store v
      (.boxed left.1, left.2)
  | t, cell, v => leftBy cell (c.build t v)

/-- Assigns a value to the column at a position, in place. -/
def Columns.storeAt : {ts : List (ColumnType n)} → Columns c ts → Nat → Value →
    Columns c ts × Except ValueError Unit
  | _, .nil, _, _ => (.nil, .error .missingPrimaryKey)
  | _, .cons cell cells, 0, v =>
      let left := cell.store v
      (.cons left.1 cells, left.2)
  | _, .cons cell cells, index + 1, v =>
      let left := cells.storeAt index v
      (.cons cell left.1, left.2)

end

mutual

/-- Assigning in place leaves the content that assigning answers, or the content as it was. -/
theorem Cell.store_eq : {t : ColumnType n} → (cell : Cell c t) → (v : Value) →
    cell.store v = leftBy cell (cell.assign v)
  | .entity k, .entity columns, v => by
      rw [Cell.store, Cell.assign_entity]
      cases (c.model k).offeredKey? with
      | none => rfl
      | some index =>
          dsimp only
          rw [columns.storeAt_eq, leftBy_wrap]
  | _, .present inner, v => by
      rw [Cell.store, Cell.assign]
      split
      · rfl
      · rw [inner.store_eq, leftBy_wrap]
  | _, .boxed inner, v => by
      rw [Cell.store, Cell.assign, inner.store_eq, leftBy_wrap]
  | _, .bool _, _ | _, .integer _ _, _ | _, .float _, _ | _, .double _, _ | _, .text _, _
  | _, .dateTime _, _ | _, .raw _, _ | _, .absent, _ | _, .list _, _ => rfl

theorem Columns.storeAt_eq : {ts : List (ColumnType n)} → (columns : Columns c ts) →
    (index : Nat) → (v : Value) →
      columns.storeAt index v = leftBy columns (columns.assignAt index v)
  | _, .nil, _, _ => rfl
  | _, .cons cell cells, 0, v => by
      rw [Columns.storeAt, Columns.assignAt, cell.store_eq, leftBy_wrap (Columns.cons · cells)]
  | _, .cons cell cells, index + 1, v => by
      rw [Columns.storeAt, Columns.assignAt, cells.storeAt_eq, leftBy_wrap (Columns.cons cell)]

end

namespace Cell

/-- Assigning a value to a content in place and building a content from it agree. The one fails
exactly where the other one does, with the same error, and then leaves the content as it was, in
full. Otherwise both read alike; they are the same where the type has no records, and a record that
the content holds before and after, under options and boxes only, keeps every field but its primary
key. -/
theorem store_agrees (cell : Cell c t) (v : Value) :
    cell.store v = leftBy cell (cell.assign v) ∧
      (∀ e, (cell.store v).2 = .error e ↔ c.build t v = .error e) ∧
      (∀ e, (cell.store v).2 = .error e → (cell.store v).1 = cell) ∧
      (∀ built, c.build t v = .ok built →
        (cell.store v).2 = .ok () ∧ (cell.store v).1.value = built.value ∧
          (t.base? = none → (cell.store v).1 = built)) ∧
      (t.isSingle = true → ∀ x y, cell.records = [x] → (cell.store v).1.records = [y] →
        y.model = x.model ∧ ∀ i, (c.model x.model).keyIndex? ≠ some i →
          y.columns.contents[i]? = x.columns.contents[i]?) := by
  have hstore := cell.store_eq v
  have hvalue := map_value_assign t cell v
  cases hassign : cell.assign v with
  | error e =>
      rw [hassign] at hstore hvalue
      have hbuild : c.build t v = .error e := by
        cases hbuild : c.build t v with
        | ok built =>
            rw [hbuild] at hvalue
            cases hvalue
        | error e' =>
            rw [hbuild] at hvalue
            cases hvalue
            rfl
      rw [hstore, hbuild]
      refine ⟨rfl, fun e' => ?_, fun _ _ => rfl, fun built h => ?_, fun _ x y hx hy => ?_⟩
      · exact ⟨fun h => congrArg _ (Except.error.inj h), fun h => congrArg _ (Except.error.inj h)⟩
      · cases h
      · obtain rfl := (List.cons.inj (hx.symm.trans hy)).1
        exact ⟨rfl, fun _ _ => rfl⟩
  | ok stored =>
      rw [hassign] at hstore hvalue
      cases hbuild : c.build t v with
      | error e =>
          rw [hbuild] at hvalue
          cases hvalue
      | ok built =>
          rw [hbuild] at hvalue
          rw [hstore]
          refine ⟨rfl, fun e => ⟨nofun, nofun⟩, fun e h => ?_, ?_, ?_⟩
          · cases h
          · rintro _ ⟨⟩
            refine ⟨rfl, Except.ok.inj hvalue, fun hbase => ?_⟩
            exact Except.ok.inj (hassign.symm.trans
              ((assign_eq_build_of_base? hbase cell v).trans hbuild))
          · exact fun hsingle x y hx hy => keeps_of_assign hsingle hassign hx hy

end Cell

/-! ## A shelf of labels -/

/-- Labels, which have their code for a key. -/
def shelf : Catalog 1 where
  model _ :=
    { ident := "Label", path := "shelf", explicitName := some "test.Label"
      fields := [⟨"code", "code key", .text⟩, ⟨"text", "text", .text⟩]
      offered := none }
  rank _ := 0
  rank_lt := by decide +kernel

/-- The columns of a label. -/
def label (code text : String) : Columns shelf (shelf.model 0).columnTypes :=
  .cons (.text code) (.cons (.text text) .nil)

/-- A place that holds a label. -/
def labelled (code text : String) : Cell shelf (.nullable (.boxed (.entity 0))) :=
  .present (.boxed (.entity (label code text)))

/-- A label is assigned the code that a value leads to. -/
theorem assign_label (code text : String) (v : Value) :
    (.entity (label code text) : Cell shelf (.entity 0)).assign v = do
      let code ← v.key.toText
      return .entity (label code text) := by
  have hkey : (shelf.model 0).offeredKey? = some 0 := by decide +kernel
  have hassign : (label code text).assignAt 0 v.key = do
      let cell ← shelf.build .text v.key
      return Columns.cons cell (.cons (.text text) .nil) := rfl
  rw [Cell.assign_entity, hkey]
  dsimp only
  rw [hassign, Catalog.build]
  cases v.key.toText <;> rfl

/-- A label is built from the code that a value leads to. -/
theorem build_label (v : Value) : shelf.build (.entity 0) v = do
    let code ← v.key.toText
    return .entity (label code "") := by
  have hblank : shelf.blankColumns 0 = label "" "" := by
    show Columns.cons (shelf.blank .text) (.cons (shelf.blank .text) .nil) = _
    rw [Catalog.blank]
    rfl
  rw [← Catalog.assign_blank, Catalog.blank_entity, hblank, assign_label]

namespace Cell

/-- A number is no code and leaves the label as it is. A text becomes the code of the label, as of a
new one, and the label keeps its own text. -/
theorem store_labelled :
    let refused := (labelled "a" "red").store (.reference (.int 7))
    let accepted := (labelled "a" "red").store (.reference (.text "b"))
    refused.2 = .error (.typeMismatch .text .int) ∧ refused.1 = labelled "a" "red" ∧
      accepted.2 = .ok () ∧ accepted.1.value = (labelled "b" "").value ∧
        ∃ x, accepted.1.records = [x] ∧
          x.columns.contents[1]? = (label "a" "red").contents[1]? := by
  have hrefused : shelf.build (.nullable (.boxed (.entity 0))) (.reference (.int 7))
      = .error (.typeMismatch .text .int) := by
    rw [Catalog.build, Catalog.build, build_label]
    rfl
  have haccepted : shelf.build (.nullable (.boxed (.entity 0))) (.reference (.text "b"))
      = .ok (labelled "b" "") := by
    rw [Catalog.build, Catalog.build, build_label]
    rfl
  have hleft : ((labelled "a" "red").store (.reference (.text "b"))).1 = labelled "b" "red" := by
    rw [store_eq, labelled, assign, assign, assign_label]
    rfl
  have hrecords : ((labelled "a" "red").store (.reference (.text "b"))).1.records
      = [⟨0, label "b" "red"⟩] := by
    rw [hleft]
    rfl
  obtain ⟨-, hfails, hkept, -, -⟩ := store_agrees (labelled "a" "red") (.reference (.int 7))
  obtain ⟨-, -, -, hagrees, hkeeps⟩ := store_agrees (labelled "a" "red") (.reference (.text "b"))
  have herror := (hfails _).2 hrefused
  obtain ⟨hok, hvalue, -⟩ := hagrees _ haccepted
  obtain ⟨-, hfields⟩ := hkeeps rfl ⟨0, label "a" "red"⟩ _ rfl hrecords
  exact ⟨herror, hkept _ herror, hok, hvalue, _, hrecords, hfields 1 (by decide +kernel)⟩

end Cell

end EntityMapper
