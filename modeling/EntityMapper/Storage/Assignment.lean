import EntityMapper.Storage.Cell

/-! # Building and assigning contents

A blank content exists for every column type, a content can be built from a value, and a
value can be assigned to a content in place. Assigning keeps what the value does not say: the
other columns of a held record, and the record behind a pointer.
-/

namespace EntityMapper

variable {n : Nat} {c : Catalog n}

/-- The contents of all columns of a model, made one by one. -/
def Columns.tabulate : (fs : List (FieldModel n)) → ((f : FieldModel n) → f ∈ fs → Cell c f.type) →
    Columns c (fs.map (·.type))
  | [], _ => .nil
  | f :: fs, make =>
      .cons (make f List.mem_cons_self)
        (tabulate fs fun g mem => make g (List.mem_cons_of_mem _ mem))

/-- Puts a content at a position where the type is right. -/
def Columns.replaceAt : {ts : List (ColumnType n)} → Columns c ts → (index : Nat) →
    {t : ColumnType n} → (typed : ts[index]? = some t) → Cell c t → Columns c ts
  | _, .nil, _, _, _, _ => .nil
  | _ :: _, .cons cell cells, 0, _, typed, new =>
      .cons (by simp only [List.getElem?_cons_zero, Option.some.injEq] at typed; exact typed ▸ new)
        cells
  | _ :: _, .cons cell cells, index + 1, _, typed, new =>
      .cons cell (cells.replaceAt index (by simpa using typed) new)

/-- The type at the core of a blank content is the base of the whole type. -/
theorem ColumnType.base?_of_embedded? {t : ColumnType n} {k : Fin n}
    (h : t.embedded? = some k) : t.base? = some k := by
  induction t with
  | entity j => exact h
  | boxed t ih => exact ih h
  | _ => simp [embedded?] at h

/-- The offered key is a declared field that flags itself as the key. -/
theorem EntityModel.offeredKey?_declared {m : EntityModel n} {index : Nat}
    (offered : m.offeredKey? = some index) :
    ∃ f, m.fields[index]? = some f ∧ f.isKey := by
  simp only [offeredKey?, keyIndex?, Option.filter_eq_some_iff,
    List.findIdx?_eq_some_iff_getElem] at offered
  obtain ⟨⟨lt, key, _⟩, _⟩ := offered
  exact ⟨_, List.getElem?_eq_getElem lt, key⟩

/-- The primary key among the offered columns of a model, with its position. -/
def EntityModel.offeredKeyField? (m : EntityModel n) :
    Option { key : Nat × FieldModel n // m.fields[key.1]? = some key.2 ∧ key.2.isKey } :=
  match offered : m.offeredKey? with
  | none => none
  | some index =>
      match declared : m.fields[index]? with
      | none => none
      | some f =>
          some ⟨(index, f), declared, by
            obtain ⟨g, at_index, key⟩ := offeredKey?_declared offered
            rw [declared, Option.some.injEq] at at_index
            exact at_index ▸ key⟩

namespace Catalog

variable (c)

/-- How far up the ranks the records of a blank content reach. -/
def blankRank (t : ColumnType n) : Nat := (t.embedded?.map fun k => c.rank k + 1).getD 0

/-- How far up the ranks the records of a content of the type reach. -/
def baseRank (t : ColumnType n) : Nat := (t.base?.map fun k => c.rank k + 1).getD 0

/-- The fields of a model have blanks of lower ranks than the model itself. -/
theorem blankRank_field_lt {k : Fin n} {f : FieldModel n} (mem : f ∈ (c.model k).fields) :
    c.blankRank f.type < c.blankRank (.entity k) := by
  cases h : f.type.embedded? with
  | none => simp [blankRank, h, ColumnType.embedded?]
  | some j =>
    have anchor : j ∈ f.anchor? := by
      unfold FieldModel.anchor?
      split
      · exact ColumnType.base?_of_embedded? h
      · exact h
    simpa [blankRank, h, ColumnType.embedded?] using c.rank_lt k f mem j anchor

/-- The key field of a model holds records of lower ranks than the model itself. -/
theorem baseRank_key_lt {k : Fin n} {f : FieldModel n} (mem : f ∈ (c.model k).fields)
    (key : f.isKey) : c.baseRank f.type < c.baseRank (.entity k) := by
  cases h : f.type.base? with
  | none => simp [baseRank, h, ColumnType.base?]
  | some j =>
    have anchor : j ∈ f.anchor? := by simpa [FieldModel.anchor?, key] using h
    simpa [baseRank, h, ColumnType.base?] using c.rank_lt k f mem j anchor

/-- The content of a column before anything is assigned. -/
def blank : (t : ColumnType n) → Cell c t
  | .bool => .bool false
  | .integer kind => .integer 0 kind.holds_zero
  | .float => .float (.zero .single)
  | .double => .double (.zero .double)
  | .text => .text ""
  | .dateTime => .dateTime .epoch
  | .raw => .raw .nil
  | .entity k => .entity (.tabulate (c.model k).fields fun f _ => blank f.type)
  | .nullable _ => .absent
  | .boxed t => .boxed (blank t)
  | .list _ => .list .nil
termination_by t => (c.blankRank t, t.depth)
decreasing_by
  · exact Prod.Lex.left _ _ (c.blankRank_field_lt (by assumption))
  · exact Prod.Lex.right _ (by simp [ColumnType.depth])

/-- The columns of a record before anything is assigned. -/
def blankColumns (k : Fin n) : Columns c (c.model k).columnTypes :=
  .tabulate (c.model k).fields fun f _ => c.blank f.type

/-- Builds the content of a column from a value. A record is a blank one with the given key,
however deep inside references the key comes. -/
def build : (t : ColumnType n) → Value → Except ValueError (Cell c t)
  | .bool, v => do return .bool (← v.toBool)
  | .integer kind, v => do
      let x ← v.toIntegerOf kind
      return .integer x.val x.property
  | .float, v => do return .float ((← v.toFloat .float).convert .single)
  | .double, v => do return .double (← v.toFloat .double)
  | .text, v => do return .text (← v.toText)
  | .dateTime, v => do return .dateTime (← v.toDateTime)
  | .raw, v => .ok (.raw v)
  | .entity k, v =>
      match (c.model k).offeredKeyField? with
      | none => .error .missingPrimaryKey
      | some ⟨(index, f), declared⟩ => do
          let cell ← build f.type v.key
          have typed : (c.model k).columnTypes[index]? = some f.type := by
            have declared : (c.model k).fields[index]? = some f := declared.1
            simp [EntityModel.columnTypes, declared]
          return .entity ((c.blankColumns k).replaceAt index typed cell)
  | .nullable t, v => if v.isNil then .ok .absent else do return .present (← build t v)
  | .boxed t, v => do return .boxed (← build t v)
  | .list t, v => do
      let values ← v.toList (ColumnType.list t).classify.kind
      return .list (.ofList (← values.mapM (build t)))
termination_by t => (c.baseRank t, t.depth)
decreasing_by
  · exact Prod.Lex.left _ _ (c.baseRank_key_lt (List.mem_of_getElem? declared.1) declared.2)
  all_goals exact Prod.Lex.right _ (by simp [ColumnType.depth])

end Catalog

mutual

/-- Assigns a value to a content. A record is given a key, a present content is assigned in
place, and everything else is built anew; an error leaves no new content. -/
def Cell.assign : {t : ColumnType n} → Cell c t → Value → Except ValueError (Cell c t)
  | .entity k, .entity columns, v =>
      match (c.model k).offeredKey? with
      | some index => do return .entity (← columns.assignAt index v.key)
      | none => .error .missingPrimaryKey
  | _, .present inner, v =>
      if v.isNil then .ok .absent else do return .present (← inner.assign v)
  | _, .boxed inner, v => do return .boxed (← inner.assign v)
  | t, _, v => c.build t v

/-- Assigns a value to the column at a position. -/
def Columns.assignAt : {ts : List (ColumnType n)} → Columns c ts → Nat → Value →
    Except ValueError (Columns c ts)
  | _, .nil, _, _ => .error .missingPrimaryKey
  | _, .cons cell cells, 0, v => do return .cons (← cell.assign v) cells
  | _, .cons cell cells, index + 1, v => do return .cons cell (← cells.assignAt index v)

end

end EntityMapper
