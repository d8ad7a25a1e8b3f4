import EntityMapper.Model.Kind

/-! # Column types

The types of storage a field can have, over a catalog of `n` models, and their
classification: the kind of the field, whether it is a pointer, whether it takes nil, and the
model it relates to.
-/

namespace EntityMapper

/-- The type of the storage of a field. -/
inductive ColumnType (n : Nat)
  | bool
  | integer (kind : IntegerKind)
  | float
  | double
  | text
  | dateTime
  /-- Any value, stored as it is. -/
  | raw
  /-- A record of a model. -/
  | entity (model : Fin n)
  /-- Nothing, or something of the inner type. -/
  | nullable (inner : ColumnType n)
  /-- Something of the inner type, held by reference. -/
  | boxed (inner : ColumnType n)
  /-- Any number of items of the inner type. -/
  | list (item : ColumnType n)
  deriving DecidableEq

/-- A field's relation to the records of a model. Records behind a pointer are referred to
and never written through the field. -/
structure RelationType (n : Nat) where
  model : Fin n
  isPointer : Bool
  deriving DecidableEq

/-- The classification of a field. -/
structure FieldType (n : Nat) where
  kind : FieldKind
  isPointer : Bool
  isNullable : Bool
  relation : Option (RelationType n)
  deriving DecidableEq

namespace FieldType

variable {n : Nat}

/-- A plain field of a kind without relation. -/
def scalar (kind : FieldKind) : FieldType n := ⟨kind, false, false, none⟩

/-- The same classification behind a pointer. -/
def pointer (type : FieldType n) : FieldType n :=
  { type with
    isPointer := true
    relation := type.relation.map fun relation => { relation with isPointer := true } }

/-- The same classification behind a pointer that may be nil. -/
def nullable (type : FieldType n) : FieldType n := { type.pointer with isNullable := true }

/-- The classification of a list: related items make a relation, scalars a single column. -/
def list (item : FieldType n) : FieldType n :=
  match item.relation with
  | some relation => ⟨.recordList, false, false, some relation⟩
  | none => scalar .list

/-- Whether the field is stored through links. -/
def isRelation (type : FieldType n) : Bool := type.relation.isSome

/-- Whether the related records are only referred to. -/
def isPointerRelation (type : FieldType n) : Bool := type.relation.any (·.isPointer)

/-- Whether the related records are written together with their owner. -/
def isOwnedRelation (type : FieldType n) : Bool := type.relation.any (!·.isPointer)

end FieldType

namespace ColumnType

variable {n : Nat}

/-- The classification of a column type. -/
def classify : ColumnType n → FieldType n
  | bool => .scalar .bool
  | integer kind => .scalar (.integer kind)
  | float => .scalar .float
  | double => .scalar .double
  | text => .scalar .text
  | dateTime => .scalar .dateTime
  | raw => .scalar .record
  | entity model => ⟨.record, false, false, some ⟨model, false⟩⟩
  | nullable inner => inner.classify.nullable
  | boxed inner => inner.classify.pointer
  | list item => item.classify.list

/-- The model whose records the type is built on, under any wrappers. -/
def base? : ColumnType n → Option (Fin n)
  | entity model => some model
  | nullable inner | boxed inner | list inner => inner.base?
  | _ => none

/-- The model of the record that every content of the type holds. -/
def embedded? : ColumnType n → Option (Fin n)
  | entity model => some model
  | boxed inner => inner.embedded?
  | _ => none

/-- The number of wrappers of a type. -/
def depth : ColumnType n → Nat
  | nullable inner | boxed inner | list inner => inner.depth + 1
  | _ => 0

end ColumnType

end EntityMapper
