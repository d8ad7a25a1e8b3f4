import EntityMapper.Model.Entity
import EntityMapper.Value.Coercion

/-! # Storage

The contents of columns, typed by their column types, and records: a content for every column
of a model. Reading, building and assigning values follow the type of a column.
-/

namespace EntityMapper

mutual

/-- The content of a column. -/
inductive Cell {n : Nat} (c : Catalog n) : ColumnType n → Type
  | bool (b : Bool) : Cell c .bool
  | integer {kind : IntegerKind} (x : Int) (holds : kind.Holds x) : Cell c (.integer kind)
  | float (x : Binary32) : Cell c .float
  | double (x : Binary64) : Cell c .double
  | text (s : String) : Cell c .text
  | dateTime (t : DateTime) : Cell c .dateTime
  | raw (v : Value) : Cell c .raw
  | entity {k : Fin n} (columns : Columns c (c.model k).columnTypes) : Cell c (.entity k)
  | absent {t : ColumnType n} : Cell c (.nullable t)
  | present {t : ColumnType n} (inner : Cell c t) : Cell c (.nullable t)
  | boxed {t : ColumnType n} (inner : Cell c t) : Cell c (.boxed t)
  | list {t : ColumnType n} (items : Items c t) : Cell c (.list t)

/-- The items of a list column. -/
inductive Items {n : Nat} (c : Catalog n) : ColumnType n → Type
  | nil {t : ColumnType n} : Items c t
  | cons {t : ColumnType n} (item : Cell c t) (items : Items c t) : Items c t

/-- The contents of the columns of a record. -/
inductive Columns {n : Nat} (c : Catalog n) : List (ColumnType n) → Type
  | nil : Columns c []
  | cons {t : ColumnType n} {ts : List (ColumnType n)} (cell : Cell c t) (cells : Columns c ts) :
      Columns c (t :: ts)

end

/-- A record of a model. -/
structure Record {n : Nat} (c : Catalog n) where
  model : Fin n
  columns : Columns c (c.model model).columnTypes

variable {n : Nat} {c : Catalog n}

/-- The cell of a list with the given items. -/
def Items.ofList {t : ColumnType n} : List (Cell c t) → Items c t
  | [] => .nil
  | item :: items => .cons item (ofList items)

/-- The items of a list column, as a list. -/
def Items.toList {t : ColumnType n} : Items c t → List (Cell c t)
  | .nil => []
  | .cons item items => item :: items.toList

/-! ## Reading -/

mutual

/-- The value of a content. A record reads as a reference to its key, which is nil where the
model offers none. -/
def Cell.value : {t : ColumnType n} → Cell c t → Value
  | _, .bool b => .bool b
  | .integer kind, .integer x _ =>
      if kind.signed then .int (Int64.ofInt x) else .uint (UInt64.ofNat x.toNat)
  | _, .float x => .float (x.convert .double)
  | _, .double x => .float x
  | _, .text s => .text s
  | _, .dateTime t => .dateTime t
  | _, .raw v => v
  | .entity k, .entity columns =>
      .reference (match (c.model k).offeredKey? with
        | some index => columns.valueAt index
        | none => .nil)
  | _, .absent => .nil
  | _, .present inner => inner.value
  | _, .boxed inner => inner.value
  | _, .list items => .list items.values

/-- The values of the items of a list. -/
def Items.values : {t : ColumnType n} → Items c t → List Value
  | _, .nil => []
  | _, .cons item items => item.value :: items.values

/-- The value of the column at a position. -/
def Columns.valueAt : {ts : List (ColumnType n)} → Columns c ts → Nat → Value
  | _, .nil, _ => .nil
  | _, .cons cell _, 0 => cell.value
  | _, .cons _ cells, index + 1 => cells.valueAt index

end

/-- The value of a record's primary key; nil where the model offers none. -/
def Record.key (r : Record c) : Value := (Cell.entity r.columns).value.key

/-- The values of the columns that a record offers. -/
def Record.offeredValues (r : Record c) : List Value :=
  (List.range (c.model r.model).offeredCount).map r.columns.valueAt

mutual

/-- The related records that a content holds. -/
def Cell.records : {t : ColumnType n} → Cell c t → List (Record c)
  | .entity k, .entity columns => [⟨k, columns⟩]
  | _, .present inner => inner.records
  | _, .boxed inner => inner.records
  | _, .list items => items.records
  | _, _ => []

/-- The related records that the items of a list hold. -/
def Items.records : {t : ColumnType n} → Items c t → List (Record c)
  | _, .nil => []
  | _, .cons item items => item.records ++ items.records

end

end EntityMapper
