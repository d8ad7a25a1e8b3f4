import EntityMapper.Sql.Statement
import EntityMapper.Storage.Bound

/-! # Building statements

The statements for the tables of models and for the rows and links of records. Rows are
addressed by their primary key; a column whose value is nil is left out.
-/

namespace EntityMapper

open Sql

variable {n : Nat} {c : Catalog n}

namespace Models

variable (ms : Models n)

/-- The declaration of a stored field. -/
def declareField (k : Fin n) (d : Descriptor n) : Except MapperError ColumnDeclaration :=
  match SqlType.ofKind? d.type.kind with
  | some type => .ok ⟨d.column, type, d.tag.isAuto⟩
  | none => .error (.noColumnType (ms.model k).name d.name)

/-- The statement that creates the table of a model. -/
def createTable (k : Fin n) : Except MapperError Statement := do
  let descriptors ← (ms.model k).describe
  let columns ← (descriptors.filter (·.isColumn)).mapM (ms.declareField k)
  if columns.isEmpty then throw (.noStoredColumns (ms.model k).name)
  return .createTable (ms.model k).table columns
    ((descriptors.find? (·.tag.isKey)).map (·.column))

/-- The statement that creates the link table of a relation. -/
def createLinks (relation : Relation n) : Statement := .createLinks (ms.linkTable relation)

/-- The statement that drops the table of a model. -/
def dropTable (k : Fin n) : Statement := .dropTable (ms.model k).table

/-- The statement that drops the link table of a relation. -/
def dropLinks (relation : Relation n) : Statement := .dropTable (ms.linkTable relation)

end Models

namespace Bound

variable {k : Fin n} (b : Bound c k)

/-- The clause that addresses the record's row. -/
def keyClause : Except MapperError Assignment := do
  match b.key? with
  | none => throw (.missingKey .builder b.name)
  | some key => return ⟨key.column, ← b.keyLiteral⟩

/-- The assignments of the fields that have a literal. -/
def assignments : List (Field c) → Except MapperError (List Assignment)
  | [] => .ok []
  | f :: fs => do
      match ← f.literal? with
      | some literal => return ⟨f.column, literal⟩ :: (← assignments fs)
      | none => assignments fs

/-- The statement that inserts the record's row. Auto-increment columns are left to the
database. -/
def insertRow : Except MapperError Statement := do
  return .insertRow b.table (← assignments (b.stored.filter (!·.descriptor.tag.isAuto)))

/-- The statement that updates the record's row. -/
def updateRow : Except MapperError Statement := do
  let key ← b.keyClause
  let assignments ← assignments b.updatable
  if assignments.isEmpty then throw (.nothingToUpdate b.name)
  return .updateRow b.table assignments key

/-- The statement that deletes the record's row. -/
def deleteRow : Except MapperError Statement := do return .deleteRow b.table (← b.keyClause)

/-- The statement that selects the record's row. -/
def selectRow : Except MapperError Statement := do
  let key ← b.keyClause
  return .selectRow b.table (b.stored.map (·.column)) key

/-- The link table of a field of the record. -/
def linkTable (f : Field c) : Except MapperError String :=
  match f.descriptor.relation? k with
  | some relation => .ok (c.linkTable relation)
  | none => .error (.notRelation b.name f.name)

/-- The statement that links the record to a related one. -/
def insertLink (f : Field c) (related : Record c) : Except MapperError Statement := do
  return .insertLink (← b.linkTable f) (← b.keyLiteral) (← related.keyLiteral)

/-- The statement that removes the link of the record to a related one. -/
def deleteLink (f : Field c) (related : Record c) : Except MapperError Statement := do
  return .deleteLink (← b.linkTable f) (← b.keyLiteral) (← related.keyLiteral)

/-- The statement that removes all links of a field of the record. -/
def clearLinks (f : Field c) : Except MapperError Statement := do
  return .clearLinks (← b.linkTable f) (← b.keyLiteral)

/-- The statement that selects the keys linked through a field of the record. -/
def selectLinks (f : Field c) : Except MapperError Statement := do
  return .selectLinks (← b.linkTable f) (← b.keyLiteral)

end Bound

end EntityMapper
