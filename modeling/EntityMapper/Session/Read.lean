import EntityMapper.Session.Schema

/-! # Reading records

Loading a record by its key: its own row first, then for every relation the linked keys and
the row of each related record. Relations of related records are not followed. What has been
assigned before a failure stays.
-/

namespace EntityMapper

variable {n : Nat} {c : Catalog n} {k : Fin n} {σ : Type} {d : Driver σ}

namespace Session

/-! ## Cursors -/

/-- Scans the first row of the open cursor into slots; none when there is no row. -/
def scanFirst (slots : List Value) : Action d (Except DriverError (Option (List Value))) := do
  match ← Action.call .next with
  | .error e => return .error e
  | .ok false => return .ok none
  | .ok true => return (← Action.call (.read slots)).map fun values => some values.val

/-- Scans all remaining rows of the open cursor, one column each. -/
def scanColumn (d : Driver σ) (zero : Value) (w : World σ) :
    Outcome σ (Except DriverError (List Value)) :=
  match advanced : d.step .next w.driver with
  | (.error e, atEnd) => ⟨.error e, { w with driver := atEnd }, [.call .next (.error e)]⟩
  | (.ok false, atEnd) => ⟨.ok [], { w with driver := atEnd }, [.call .next (.ok false)]⟩
  | (.ok true, atRow) =>
      let entry : Entry := .call .next (.ok true)
      match scanned : d.step (.read [zero]) atRow with
      | (.error e, after) =>
          ⟨.error e, { w with driver := after }, [entry, .call (.read [zero]) (.error e)]⟩
      | (.ok values, after) =>
          have fewer : d.remaining after < d.remaining w.driver := by
            have next := d.remaining_next w.driver (by rw [advanced])
            have read := d.remaining_read [zero] atRow
            rw [advanced] at next
            rw [scanned] at read
            exact Nat.lt_of_le_of_lt read next
          let rest := scanColumn d zero { w with driver := after }
          { value := rest.value.map (values.val ++ ·)
            world := rest.world
            journal := entry :: .call (.read [zero]) (.ok values) :: rest.journal }
termination_by d.remaining w.driver

/-- Runs a query, scans its rows and finishes the cursor, whether the scan fails or not. The
first error counts. -/
def fetch {α : Type} (s : Sql.Statement) (scan : Action d (Except DriverError α)) : Task d α := do
  Task.report (.statement .query s)
  Task.call (.query s)
  let scanned ← ExceptT.lift scan
  let finished ← ExceptT.lift (Action.call .finish)
  let answer ← Task.ofExcept (scanned.mapError .driver)
  Task.ofExcept (finished.mapError .driver)
  return answer

/-- The row of a record, one value for each stored column. -/
def fetchRow (b : Bound c k) : Task d (List Value) := do
  let statement ← Task.ofExcept b.selectRow
  let slots := b.stored.map fun f => Value.zero f.descriptor.type.kind
  match ← fetch statement (scanFirst slots) with
  | some values => return values
  | none => throw (.notFound b.table (← Task.ofExcept b.keyLiteral))

/-! ## Hydrating -/

/-- Assigns the values of a row to the stored columns, in order, up to the first that does
not fit. -/
def hydrate : {ts : List (ColumnType n)} → Columns c ts → List Value → Attempt (Columns c ts) Unit
  | t :: _, .cons cell cells, values =>
      if t.classify.isRelation then
        let rest := hydrate cells values
        ⟨.cons cell rest.storage, rest.result⟩
      else match values with
        | [] => ⟨.cons cell cells, .ok ()⟩
        | v :: values =>
            match cell.assign v with
            | .error e => ⟨.cons cell cells, .error (.value e)⟩
            | .ok cell =>
                let rest := hydrate cells values
                ⟨.cons cell rest.storage, rest.result⟩
  | _, columns, _ => ⟨columns, .ok ()⟩

/-- Loads the row of one record. -/
def loadRow (columns : Columns c (c.model k).columnTypes) :
    Action d (Attempt (Columns c (c.model k).columnTypes) Unit) := do
  match ← (do fetchRow (← Task.ofExcept columns.bind)).run with
  | .error e => return ⟨columns, .error e⟩
  | .ok row => return hydrate columns row

mutual

/-- Loads the row of every record that a content holds. -/
def loadHeld : {t : ColumnType n} → Cell c t → Action d (Attempt (Cell c t) Unit)
  | .entity _, .entity columns => do
      let left ← loadRow columns
      return ⟨.entity left.storage, left.result⟩
  | _, .present inner => do
      let left ← loadHeld inner
      return ⟨.present left.storage, left.result⟩
  | _, .boxed inner => do
      let left ← loadHeld inner
      return ⟨.boxed left.storage, left.result⟩
  | _, .list items => do
      let left ← loadItems items
      return ⟨.list left.storage, left.result⟩
  | _, cell => return ⟨cell, .ok ()⟩

/-- Loads the row of every record that the items of a list hold. -/
def loadItems : {t : ColumnType n} → Items c t → Action d (Attempt (Items c t) Unit)
  | _, .nil => return ⟨.nil, .ok ()⟩
  | _, .cons item items => do
      let first ← loadHeld item
      match first.result with
      | .error e => return ⟨.cons first.storage items, .error e⟩
      | .ok () =>
          let rest ← loadItems items
          return ⟨.cons first.storage rest.storage, rest.result⟩

end

/-! ## Relations -/

/-- The value that the linked keys give a relation field: all of them for a list, the first
one for a single record, nil when there is none. -/
def linkedValue (kind : FieldKind) (keys : List Value) : Value :=
  if kind = .recordList then .list (keys.map .reference)
  else match keys with
    | key :: _ => .reference key
    | [] => .nil

/-- Loads one relation field. A field that takes no nil keeps its record when nothing is
linked. -/
def loadRelation (b : Bound c k) (descriptor : Descriptor n) {t : ColumnType n} (cell : Cell c t) :
    Action d (Attempt (Cell c t) Unit) := do
  let select := b.selectLinks ⟨descriptor, t, cell⟩
  match ← (do fetch (← Task.ofExcept select) (scanColumn d (.int 0))).run with
  | .error e => return ⟨cell, .error e⟩
  | .ok keys =>
      let linked := linkedValue descriptor.type.kind keys
      if linked.isNil && !descriptor.type.isNullable then return ⟨cell, .ok ()⟩
      else match cell.assign linked with
        | .error e => return ⟨cell, .error (.value e)⟩
        | .ok assigned => loadHeld assigned

/-- Loads the relation fields of a record, in order. -/
def loadRelations (b : Bound c k) : {ts : List (ColumnType n)} → Columns c ts →
    List (Descriptor n) → Action d (Attempt (Columns c ts) Unit)
  | _, .cons cell cells, descriptor :: descriptors => do
      let first ← if descriptor.type.isRelation then loadRelation b descriptor cell
        else pure ⟨cell, .ok ()⟩
      match first.result with
      | .error e => return ⟨.cons first.storage cells, .error e⟩
      | .ok () =>
          let rest ← loadRelations b cells descriptors
          return ⟨.cons first.storage rest.storage, rest.result⟩
  | _, .cons cell cells, [] => return ⟨.cons cell cells, .ok ()⟩
  | _, .nil, _ => return ⟨.nil, .ok ()⟩

/-- Assigns a row to a record and loads its relations. -/
def loadRecord (b : Bound c k) (row : List Value) :
    Action d (Attempt (Columns c (c.model k).columnTypes) Unit) := do
  let hydrated := hydrate b.columns row
  match hydrated.result with
  | .error e => return ⟨hydrated.storage, .error e⟩
  | .ok () =>
      loadRelations { b with columns := hydrated.storage } hydrated.storage b.descriptors

/-- Loads a record by its key. -/
def query (r : Record c) : Action d (Attempt (Record c) Unit) :=
  Staged.operate .query (c.model r.model).name r do
    let (b, dependencies) ← Staged.ofExcept r.introspect
    Staged.advance .schemaEnsuring
    Staged.task (ensureSchema c r.model dependencies)
    Staged.advance .executing
    let row ← Staged.task (fetchRow b)
    Staged.advance .hydrating
    Staged.attempt fun _ => do
      let left ← loadRecord b row
      return ⟨⟨r.model, left.storage⟩, left.result⟩

end Session

end EntityMapper
