import EntityMapper.Error
import EntityMapper.Model.Entity

/-! # Described models

A model is described once every tag can be read and the declared columns fit together. The
first field that does not fit is reported, in declaration order.
-/

namespace EntityMapper

/-- A field whose declaration has been checked. -/
structure Descriptor (n : Nat) where
  index : Nat
  name : String
  tag : FieldTag
  type : FieldType n
  deriving DecidableEq

namespace Descriptor

variable {n : Nat} (d : Descriptor n)

/-- The name of the field's column. -/
def column : String := d.tag.name

/-- Whether the field is stored as a column of its owner's table. -/
def isColumn : Bool := !d.type.isRelation

end Descriptor

/-- What the fields before a field have taken: the column names, and the name of the field
that is the primary key. -/
structure Taken where
  columns : List String
  key : Option String

namespace EntityModel

variable {n : Nat}

/-- What is wrong with a field's flags or column, given the fields before it. -/
def fieldFault? (taken : Taken) (tag : FieldTag) (kind : FieldKind) : Option TagFault :=
  if tag.isAuto ∧ !kind.isInteger then some (.autoOnKind kind)
  else if tag.isKey ∧ kind.isComposite then some (.keyOnKind kind)
  else match if tag.isKey then taken.key else none with
    | some existing => some (.secondKey existing)
    | none => if tag.name ∈ taken.columns then some .duplicateColumn else none

/-- Checks one field against the fields before it. -/
def describeField (entity : String) (taken : Taken) (index : Nat) (f : FieldModel n) :
    Except MapperError (Descriptor n) :=
  match FieldTag.parse f.tag with
  | .error e => .error (.malformedTag entity f.tag (.unreadable e))
  | .ok tag =>
      match fieldFault? taken tag f.type.classify.kind with
      | some fault => .error (.malformedTag entity f.tag fault)
      | none => .ok ⟨index, f.name, tag, f.type.classify⟩

/-- What is taken after a field. -/
def Taken.add (taken : Taken) (d : Descriptor n) : Taken :=
  { columns := d.column :: taken.columns
    key := if d.tag.isKey then some d.name else taken.key }

/-- Checks the fields from a position on. -/
def describeFrom (entity : String) (taken : Taken) (index : Nat) :
    List (FieldModel n) → Except MapperError (List (Descriptor n))
  | [] => .ok []
  | f :: fs => do
      let d ← describeField entity taken index f
      return d :: (← describeFrom entity (Taken.add taken d) (index + 1) fs)

/-- The descriptors of all fields. -/
def describe (m : EntityModel n) : Except MapperError (List (Descriptor n)) :=
  if m.fields.isEmpty then .error (.noFields m.name)
  else describeFrom m.name ⟨[], none⟩ 0 m.fields

end EntityModel

/-- A relation field of a model. -/
structure Relation (n : Nat) where
  owner : Fin n
  field : String
  dependency : Fin n
  isPointer : Bool
  deriving DecidableEq

/-- The relation that a field of a model declares. -/
def Descriptor.relation? {n : Nat} (d : Descriptor n) (owner : Fin n) : Option (Relation n) :=
  d.type.relation.map fun relation => ⟨owner, d.name, relation.model, relation.isPointer⟩

namespace Models

variable {n : Nat} (ms : Models n)

/-- The relations that a model declares. -/
def relations (k : Fin n) : Except MapperError (List (Relation n)) := do
  return (← (ms.model k).describe).filterMap (·.relation? k)

/-- The table that holds the links of a relation. -/
def linkTable (relation : Relation n) : String :=
  (ms.model relation.owner).table ++ relation.field ++ "2" ++ (ms.model relation.dependency).table

end Models

end EntityMapper
