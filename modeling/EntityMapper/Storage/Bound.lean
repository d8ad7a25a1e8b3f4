import EntityMapper.Model.Closure
import EntityMapper.Storage.Assignment

/-! # Bound records

A record together with the description of its model. Binding fails when the model cannot be
described or the record does not offer every declared column.
-/

namespace EntityMapper

variable {n : Nat} {c : Catalog n}

/-- A described field and its content. -/
structure Field (c : Catalog n) where
  descriptor : Descriptor n
  type : ColumnType n
  cell : Cell c type

namespace Field

variable (f : Field c)

/-- The name of the field. -/
def name : String := f.descriptor.name

/-- The name of the field's column. -/
def column : String := f.descriptor.column

/-- The value of the field. -/
def value : Value := f.cell.value

/-- The literal of the field's value; nil has none. -/
def literal? : Except MapperError (Option Sql.Literal) := f.value.literal?.mapError .value

/-- A nil pointer that nothing has been assigned to. -/
def isNil : Bool := f.descriptor.type.isNullable && f.value.isNil

/-- The records that the field holds. -/
def records : List (Record c) := f.cell.records

end Field

/-- Pairs the descriptors of fields with their contents. -/
def Columns.fields : {ts : List (ColumnType n)} → Columns c ts → List (Descriptor n) →
    List (Field c)
  | _, .cons cell cells, d :: ds => ⟨d, _, cell⟩ :: cells.fields ds
  | _, _, _ => []

/-- A record of a model that has been described. -/
structure Bound (c : Catalog n) (k : Fin n) where
  columns : Columns c (c.model k).columnTypes
  descriptors : List (Descriptor n)
  described : (c.model k).describe = .ok descriptors

/-- Binds the columns of a record to the description of its model. -/
def Columns.bind {k : Fin n} (columns : Columns c (c.model k).columnTypes) :
    Except MapperError (Bound c k) :=
  match described : (c.model k).describe with
  | .error e => .error e
  | .ok descriptors =>
      let offered := (c.model k).offeredCount
      if offered = descriptors.length then .ok ⟨columns, descriptors, described⟩
      else .error (.columnCount (c.model k).name offered descriptors.length)

/-- Describes a record and every model it reaches. -/
def Record.introspect (r : Record c) : Except MapperError (Bound c r.model × List (Fin n)) := do
  let dependencies ← c.dependencies r.model
  return (← r.columns.bind, dependencies)

namespace Bound

variable {k : Fin n} (b : Bound c k)

/-- The record without its description. -/
def record : Record c := ⟨k, b.columns⟩

/-- The name of the record's model. -/
def name (_ : Bound c k) : String := (c.model k).name

/-- The table of the record. -/
def table (_ : Bound c k) : String := (c.model k).table

/-- All fields, in declaration order. -/
def fields : List (Field c) := b.columns.fields b.descriptors

/-- The fields stored as columns. -/
def stored : List (Field c) := b.fields.filter (·.descriptor.isColumn)

/-- The fields stored through links. -/
def relations : List (Field c) := b.fields.filter (·.descriptor.type.isRelation)

/-- The columns that an update may set: all but the primary key. -/
def updatable : List (Field c) := b.stored.filter (!·.descriptor.tag.isKey)

/-- The primary key field. -/
def key? : Option (Field c) := b.fields.find? (·.descriptor.tag.isKey)

/-- The field with a name. -/
def field? (name : String) : Option (Field c) := b.fields.find? (·.name == name)

/-- The literal of the primary key. -/
def keyLiteral : Except MapperError Sql.Literal := do
  let missing := MapperError.missingKey .model b.name
  match b.key? with
  | none => throw missing
  | some key =>
      match ← key.literal? with
      | some literal => return literal
      | none => throw missing

/-- Assigns a value to the field at a position. -/
def assignAt (index : Nat) (v : Value) : Except ValueError (Bound c k) := do
  return { b with columns := ← b.columns.assignAt index v }

/-- Assigns a value to the field with a name. -/
def setField (name : String) (v : Value) : Except MapperError (Bound c k) :=
  match b.field? name with
  | none => .error (.unknownField b.name name)
  | some field => (b.assignAt field.descriptor.index v).mapError .value

end Bound

/-- Assigns a value to the field with a name. -/
def Record.setField (r : Record c) (name : String) (v : Value) :
    Except MapperError (Record c) := do
  return (← (← r.columns.bind).setField name v).record

/-- The literal of a related record's key. -/
def Record.keyLiteral (r : Record c) : Except MapperError Sql.Literal := do
  match ← r.key.literal?.mapError MapperError.value with
  | some literal => return literal
  | none => throw (.missingKey .builder (c.model r.model).name)

end EntityMapper
