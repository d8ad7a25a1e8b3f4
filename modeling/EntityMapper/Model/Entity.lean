import EntityMapper.Model.ColumnType
import EntityMapper.Model.Tag
import EntityMapper.Text.Diagnostic

/-! # Entity models

The description of a record type: its names, its fields with their tags and types, and
collections of models that refer to each other.
-/

namespace EntityMapper

/-- One declared field. -/
structure FieldModel (n : Nat) where
  name : String
  tag : String
  type : ColumnType n
  deriving DecidableEq

/-- Whether a tag can be read and flags its column as the primary key. -/
def FieldModel.isKey {n : Nat} (f : FieldModel n) : Bool :=
  match FieldTag.parse f.tag with
  | .ok tag => tag.isKey
  | .error _ => false

/-- A record type. Its records offer all their columns for storage unless a smaller number
of leading ones is given. -/
structure EntityModel (n : Nat) where
  ident : String
  path : String
  explicitName : Option String
  fields : List (FieldModel n)
  offered : Option Nat
  deriving DecidableEq

/-- The characters before the first pair of colons. -/
def untilColons : List Char → List Char
  | ':' :: ':' :: _ => []
  | c :: cs => c :: untilColons cs
  | [] => []

/-- The last segment of a module path. -/
def lastSegment (path : String) : String :=
  String.ofList (untilColons path.toList.reverse).reverse

namespace EntityModel

variable {n : Nat} (m : EntityModel n)

/-- The qualified name: the explicit one, or the module's name and the type's. -/
def name : String := m.explicitName.getD (lastSegment m.path ++ "." ++ m.ident)

/-- The table of the model: its name with underscores for dots. -/
def table : String := m.name.map fun c => if c = '.' then '_' else c

/-- What tells two types of one table apart. -/
def origin : String := m.path ++ "::" ++ m.ident

/-- Whether two models describe one type. -/
def isSame (other : EntityModel n) : Bool := m.path = other.path ∧ m.ident = other.ident

/-- The position of the primary key. -/
def keyIndex? : Option Nat := m.fields.findIdx? (·.isKey)

/-- The number of columns that the records of the model offer. -/
def offeredCount : Nat := (m.offered.getD m.fields.length).min m.fields.length

/-- The position of the primary key among the offered columns. -/
def offeredKey? : Option Nat := m.keyIndex?.filter (· < m.offeredCount)

/-- The types of the columns of a record. -/
def columnTypes : List (ColumnType n) := m.fields.map (·.type)

end EntityModel

/-- A finite collection of models that may refer to each other in cycles. -/
structure Models (n : Nat) where
  model : Fin n → EntityModel n

/-- The indices of a collection of one model can be written as numerals. -/
instance (priority := high) Models.neZero_one : @NeZero Nat Zero.ofOfNat0 1 := ⟨Nat.one_ne_zero⟩

/-- The indices of a collection of three models can be written as numerals. -/
instance (priority := high) Models.neZero_three : @NeZero Nat Zero.ofOfNat0 3 :=
  ⟨Nat.succ_ne_zero 2⟩

/-- The collection of the given models. -/
def Models.ofVector {n : Nat} (models : Vector (EntityModel n) n) : Models n :=
  ⟨fun k => models[k]⟩

/-- A relation as diagnostics write it. -/
def Models.relationText {n : Nat} (ms : Models n) (relation : RelationType n) : String :=
  diagnosticStruct "Depend"
    [("model", diagnosticQuote (ms.model relation.model).name),
     ("is_pointer", diagnosticBool relation.isPointer)]

/-- The model that a field needs before a blank record of its own model can be made and given
a key. -/
def FieldModel.anchor? {n : Nat} (f : FieldModel n) : Option (Fin n) :=
  if f.isKey then f.type.base? else f.type.embedded?

/-- Models whose records can be made. The references that a blank record with a key is made of
are free of cycles, as the ranks show. -/
structure Catalog (n : Nat) extends Models n where
  rank : Fin n → Nat
  rank_lt : ∀ k, ∀ f ∈ (model k).fields, ∀ j ∈ f.anchor?, rank j < rank k

namespace Catalog

instance {n : Nat} : Coe (Catalog n) (Models n) := ⟨toModels⟩

/-- The ranks of models after one more round: above the ranks of all anchors. -/
def raiseRanks {n : Nat} (ms : Models n) (ranks : Vector Nat n) : Vector Nat n :=
  .ofFn fun k =>
    ((ms.model k).fields.filterMap (·.anchor?)).foldl (fun rank j => max rank (ranks[j] + 1)) 0

/-- The ranks after as many rounds as there are models. -/
def ranks {n : Nat} (ms : Models n) : Vector Nat n :=
  Nat.repeat (raiseRanks ms) n (Vector.replicate n 0)

/-- The catalog of the given models with the given ranks, if these show what they have to. -/
def ofRanks? {n : Nat} (ms : Models n) (ranks : Vector Nat n) : Option (Catalog n) :=
  let rank (k : Fin n) := ranks[k]
  if rank_lt : ∀ k, ∀ f ∈ (ms.model k).fields, ∀ j ∈ f.anchor?, rank j < rank k then
    some { toModels := ms, rank, rank_lt }
  else none

/-- The catalog of the given models, unless some model cannot have a blank record. -/
def ofModels? {n : Nat} (ms : Models n) : Option (Catalog n) := ofRanks? ms (ranks ms)
end Catalog

end EntityMapper
