import EntityMapper.Text.Blank

/-! # Declarations

Record types as a source text declares them, with attributes that give names and tags, and
the models they describe. A field without an attribute is tagged with its own name.
-/

namespace EntityMapper

/-- One entry of an attribute. -/
inductive AttributeEntry
  | assign (key value : String)
  | literal (text : String)
  deriving DecidableEq

/-- An attribute of a declaration or of a field; those of others mean nothing here. -/
inductive Attribute
  | foreign
  | mapping (entries : List AttributeEntry)
  deriving DecidableEq

/-- A field as declared. -/
structure DeclaredField where
  name : String
  type : String
  attributes : List Attribute
  deriving DecidableEq

/-- The shape of a declared type. -/
inductive DeclarationShape
  | record (fields : List DeclaredField)
  | tuple
  | unit
  | choice
  | overlay
  deriving DecidableEq

/-- A declared type. -/
structure Declaration where
  ident : String
  parameters : List String
  attributes : List Attribute
  shape : DeclarationShape
  deriving DecidableEq

/-- Why a declaration describes no model. -/
inductive DeclarationError
  | generic
  | noNamedFields
  | emptyName
  | unsupportedKey
  | strayLiteral
  | duplicateTag
  | noTagLiteral
  | emptyTag
  deriving DecidableEq

/-- The reason in words. -/
def DeclarationError.message : DeclarationError → String
  | generic => "Entity cannot be derived for generic structs"
  | noNamedFields => "Entity can only be derived for structs with named fields"
  | emptyName => "orm name cannot be empty"
  | unsupportedKey => "unsupported orm attribute, expected `name = \"...\"`"
  | strayLiteral => "unexpected literal in nested attribute, expected ident"
  | duplicateTag => "duplicate orm tag"
  | noTagLiteral => "expected string literal"
  | emptyTag => "unexpected end of input, expected string literal"

/-- A field of a described model. -/
structure DescribedField where
  name : String
  tag : String
  type : String
  deriving DecidableEq

/-- The model that a declaration describes. -/
structure DescribedModel where
  ident : String
  name : Option String
  fields : List DescribedField
  deriving DecidableEq

/-- The interfaces that a described type gets, in order. -/
def DescribedModel.interfaces : List String := ["Entity", "Record", "Column", "Element"]

namespace Declaration

/-- The entries of the mapping attributes, in order. -/
def entries (attributes : List Attribute) : List AttributeEntry :=
  attributes.flatMap fun
    | .foreign => []
    | .mapping entries => entries

/-- The explicit name that entries give; the last one wins. -/
def explicitName : (name : Option String) → List AttributeEntry →
    Except DeclarationError (Option String)
  | name, [] => .ok name
  | _, .literal _ :: _ => .error .strayLiteral
  | _, .assign key value :: others =>
      if key ≠ "name" then .error .unsupportedKey
      else if allBlank value then .error .emptyName
      else explicitName (some value) others

/-- The tag that attributes give a field. -/
def explicitTag : (tag : Option String) → List Attribute → Except DeclarationError (Option String)
  | tag, [] => .ok tag
  | tag, .foreign :: others => explicitTag tag others
  | some _, .mapping _ :: _ => .error .duplicateTag
  | none, .mapping [.literal text] :: others => explicitTag (some text) others
  | none, .mapping [] :: _ => .error .emptyTag
  | none, .mapping _ :: _ => .error .noTagLiteral

/-- Describes a field; the text of its type is kept without blanks. -/
def describeField (f : DeclaredField) : Except DeclarationError DescribedField := do
  let tag ← explicitTag none f.attributes
  return { name := f.name
           tag := tag.getD f.name
           type := String.ofList (f.type.toList.filter (!isBlank ·)) }

/-- The model that a declaration describes. -/
def describe (d : Declaration) : Except DeclarationError DescribedModel := do
  if !d.parameters.isEmpty then throw .generic
  match d.shape with
  | .record fields =>
      let name ← explicitName none (entries d.attributes)
      return { ident := d.ident, name, fields := ← fields.mapM describeField }
  | _ => throw .noNamedFields

end Declaration

end EntityMapper
