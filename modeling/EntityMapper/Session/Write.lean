import EntityMapper.Session.Schema

/-! # Writing records

Inserting, updating and deleting a record with the records it owns and its links. Records
behind pointers are linked and never written. Every traversal is a recursion on the contents
of the record.
-/

namespace EntityMapper

variable {n : Nat} {c : Catalog n} {k : Fin n} {σ : Type} {d : Driver σ}

namespace Session

/-! ## Inserting -/

/-- Inserts the links of a record to all records it holds. -/
def insertLinks (b : Bound c k) : Task d Unit :=
  b.relations.forM fun f =>
    f.records.forM fun related => do
      let statement ← Task.ofExcept (b.insertLink f related)
      discard (Task.insert statement)

/-- Gives an auto-increment key the id that the database generated. -/
def captureKey (b : Bound c k) (id : UInt64) : Except MapperError (Bound c k) :=
  match b.key? with
  | some key =>
      if key.descriptor.tag.isAuto then
        (b.assignAt key.descriptor.index (.uint id)).mapError .value
      else .ok b
  | none => .ok b

/-- Inserts the row of a record. -/
def insertRow (b : Bound c k) : Task d UInt64 := do
  Task.insert (← Task.ofExcept b.insertRow)

/-- Inserts the row of a record, captures its key and inserts its links. -/
def insertSelf (b : Bound c k) :
    Action d (Attempt (Columns c (c.model k).columnTypes) Unit) := do
  match ← (insertRow b).run with
  | .error e => return ⟨b.columns, .error e⟩
  | .ok id =>
      match captureKey b id with
      | .error e => return ⟨b.columns, .error e⟩
      | .ok captured => return ⟨captured.columns, ← (insertLinks captured).run⟩

mutual

/-- Inserts the records that a content holds, one after the other. -/
def insertHeld : {t : ColumnType n} → Cell c t → Action d (Attempt (Cell c t) Unit)
  | .entity _, .entity columns => do
      match columns.bind with
      | .error e => return ⟨.entity columns, .error e⟩
      | .ok b =>
          let owned ← insertOwned columns
          match owned.result with
          | .error e => return ⟨.entity owned.storage, .error e⟩
          | .ok () =>
              let left ← insertSelf { b with columns := owned.storage }
              return ⟨.entity left.storage, left.result⟩
  | _, .present inner => do
      let left ← insertHeld inner
      return ⟨.present left.storage, left.result⟩
  | _, .boxed inner => do
      let left ← insertHeld inner
      return ⟨.boxed left.storage, left.result⟩
  | _, .list items => do
      let left ← insertItems items
      return ⟨.list left.storage, left.result⟩
  | _, cell => return ⟨cell, .ok ()⟩

/-- Inserts the records that the items of a list hold. -/
def insertItems : {t : ColumnType n} → Items c t → Action d (Attempt (Items c t) Unit)
  | _, .nil => return ⟨.nil, .ok ()⟩
  | _, .cons item items => do
      let first ← insertHeld item
      match first.result with
      | .error e => return ⟨.cons first.storage items, .error e⟩
      | .ok () =>
          let rest ← insertItems items
          return ⟨.cons first.storage rest.storage, rest.result⟩

/-- Inserts the records that the columns of a record own. -/
def insertOwned : {ts : List (ColumnType n)} → Columns c ts →
    Action d (Attempt (Columns c ts) Unit)
  | _, .nil => return ⟨.nil, .ok ()⟩
  | t :: _, .cons cell cells => do
      if t.classify.isOwnedRelation then
        let first ← insertHeld cell
        match first.result with
        | .error e => return ⟨.cons first.storage cells, .error e⟩
        | .ok () =>
            let rest ← insertOwned cells
            return ⟨.cons first.storage rest.storage, rest.result⟩
      else
        let rest ← insertOwned cells
        return ⟨.cons cell rest.storage, rest.result⟩

end

/-- Inserts a record after the records it owns. -/
def insertRecord (r : Record c) : Action d (Attempt (Record c) Unit) := do
  let left ← insertHeld (.entity r.columns : Cell c (.entity r.model))
  match left.storage with
  | .entity columns => return ⟨⟨r.model, columns⟩, left.result⟩

/-- Inserts a record, the records it owns and its links. -/
def insert (r : Record c) : Action d (Attempt (Record c) Unit) :=
  Staged.operate .insert (c.model r.model).name r do
    let (_, dependencies) ← Staged.ofExcept r.introspect
    Staged.advance .schemaEnsuring
    Staged.task (ensureSchema c r.model dependencies)
    Staged.advance .executing
    Staged.attempt insertRecord

/-! ## Updating -/

/-- Updates the row of a record, if some column has a value. -/
def updateRow (b : Bound c k) : Task d Unit := do
  if b.updatable.any (!·.isNil) then
    let statement ← Task.ofExcept b.updateRow
    let affected ← Task.update statement
    if affected != 1 then Task.report (.unexpectedCount b.table affected)
  else Task.report (.nothingToUpdate b.name)

/-- Removes the links of a record in every relation. -/
def clearLinks (b : Bound c k) : Task d Unit :=
  b.relations.forM fun f => do
    let statement ← Task.ofExcept (b.clearLinks f)
    discard (Task.delete statement)

mutual

/-- Updates the records that a content holds. -/
def updateHeld : {t : ColumnType n} → Cell c t → Task d Unit
  | .entity _, .entity columns => do
      let b ← Task.ofExcept columns.bind
      updateRow b
      updateOwned columns
      clearLinks b
      insertLinks b
  | _, .present inner => updateHeld inner
  | _, .boxed inner => updateHeld inner
  | _, .list items => updateItems items
  | _, _ => pure ()

/-- Updates the records that the items of a list hold. -/
def updateItems : {t : ColumnType n} → Items c t → Task d Unit
  | _, .nil => pure ()
  | _, .cons item items => do
      updateHeld item
      updateItems items

/-- Updates the records that the columns of a record own. -/
def updateOwned : {ts : List (ColumnType n)} → Columns c ts → Task d Unit
  | _, .nil => pure ()
  | t :: _, .cons cell cells => do
      if t.classify.isOwnedRelation then updateHeld cell
      updateOwned cells

end

/-- Updates a record and the records it owns, and replaces their links. -/
def update (r : Record c) : Action d (Attempt (Record c) Unit) :=
  Staged.operate .update (c.model r.model).name r do
    let (_, dependencies) ← Staged.ofExcept r.introspect
    Staged.advance .schemaEnsuring
    Staged.task (ensureSchema c r.model dependencies)
    Staged.advance .executing
    Staged.task (updateHeld (.entity r.columns : Cell c (.entity r.model)))

/-! ## Deleting -/

/-- Runs a deletion that has to affect one row. -/
def deleteOne (table : String) (statement : Sql.Statement) : Task d Unit := do
  let affected ← Task.delete statement
  if affected != 1 then throw (.rowCount table affected)

/-- Deletes the row of a record. -/
def deleteRow (b : Bound c k) : Task d Unit := do
  deleteOne b.table (← Task.ofExcept b.deleteRow)

mutual

/-- Deletes the records that a content holds, if they are owned, and the link to each. The
links are given in the order of the records; the ones left over are answered. -/
def deleteHeld (owned : Bool) (table : String) : {t : ColumnType n} → Cell c t →
    List Sql.Statement → Task d (List Sql.Statement)
  | .entity _, .entity columns, links =>
      match links with
      | [] => return []
      | link :: links => do
          if owned then
            let b ← Task.ofExcept columns.bind
            deleteRow b
            deleteRelated b columns b.descriptors
          deleteOne table link
          return links
  | _, .present inner, links => deleteHeld owned table inner links
  | _, .boxed inner, links => deleteHeld owned table inner links
  | _, .list items, links => deleteItems owned table items links
  | _, _, links => return links

/-- Deletes the records that the items of a list hold. -/
def deleteItems (owned : Bool) (table : String) : {t : ColumnType n} → Items c t →
    List Sql.Statement → Task d (List Sql.Statement)
  | _, .nil, links => return links
  | _, .cons item items, links => do
      deleteItems owned table items (← deleteHeld owned table item links)

/-- Deletes what the relation fields of a record hold. All links of a field are rendered
before any of its records is deleted. -/
def deleteRelated {k : Fin n} (b : Bound c k) : {ts : List (ColumnType n)} → Columns c ts →
    List (Descriptor n) → Task d Unit
  | _, .nil, _ => pure ()
  | t :: _, .cons cell cells, descriptors =>
      match descriptors with
      | [] => pure ()
      | descriptor :: descriptors => do
          if descriptor.type.isRelation then
            let f : Field c := ⟨descriptor, t, cell⟩
            let links ← Task.ofExcept (f.records.mapM (b.deleteLink f))
            let table ← Task.ofExcept (b.linkTable f)
            discard (deleteHeld descriptor.type.isOwnedRelation table cell links)
          deleteRelated b cells descriptors

end

/-- Deletes a bound record, the records it owns and its links. -/
def deleteRecord (b : Bound c k) : Task d Unit := do
  deleteRow b
  deleteRelated b b.columns b.descriptors

/-- Deletes a record, the records it owns and its links. -/
def delete (r : Record c) : Action d (Attempt (Record c) Unit) :=
  Staged.operate .delete (c.model r.model).name r do
    let (b, _) ← Staged.ofExcept r.introspect
    Staged.advance .executing
    Staged.task (deleteRecord b)

end Session

end EntityMapper
