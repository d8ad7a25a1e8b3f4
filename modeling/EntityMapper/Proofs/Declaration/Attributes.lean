import EntityMapper.Declaration
import EntityMapper.Proofs.Checked

/-!
# What attributes say

A declaration describes a model exactly when its attributes follow the rules
(`Declaration.WellFormed`): only names on the declaration, and at most one tag on each field. The
model then lists the fields in order, each with the tag that is written on it. A declaration may be
given several names, of which the model has the last, so all of them are kept exactly when they
agree (`Declaration.attributes_kept_iff`).
-/

namespace EntityMapper

/-! ## What is written -/

/-- The text of an entry that is nothing but a text. -/
def AttributeEntry.literal? : AttributeEntry → Option String
  | literal text => some text
  | assign _ _ => none

/-- The name that an entry gives. -/
def AttributeEntry.name? : AttributeEntry → Option String
  | assign key value => if key = "name" then some value else none
  | literal _ => none

/-- Whether an entry gives a name that is not blank. -/
def AttributeEntry.IsName (entry : AttributeEntry) : Prop :=
  ∃ name, entry = .assign "name" name ∧ allBlank name = false

/-- The entries of the attributes that are not foreign, attribute by attribute. -/
def mappings (attributes : List Attribute) : List (List AttributeEntry) :=
  attributes.filterMap fun
    | .foreign => none
    | .mapping entries => some entries

@[simp] theorem mappings_nil : mappings [] = [] := rfl

@[simp] theorem mappings_foreign (attributes : List Attribute) :
    mappings (.foreign :: attributes) = mappings attributes := rfl

@[simp] theorem mappings_mapping (entries : List AttributeEntry) (attributes : List Attribute) :
    mappings (.mapping entries :: attributes) = entries :: mappings attributes := rfl

namespace DeclaredField

/-- The tags written on a field, in whichever attribute. -/
def writtenTags (f : DeclaredField) : List String :=
  (mappings f.attributes).flatten.filterMap AttributeEntry.literal?

/-- Whether the attributes of a field give it a certain tag, or none. -/
inductive Tagged (f : DeclaredField) : Option String → Prop
  | bare (h : mappings f.attributes = []) : Tagged f none
  | written {tag : String} (h : mappings f.attributes = [[.literal tag]]) : Tagged f (some tag)

/-- Whether a field is described as another one. -/
structure DescribedAs (f : DeclaredField) (g : DescribedField) : Prop where
  name_eq : g.name = f.name
  tag_eq : ∃ tag, f.Tagged tag ∧ g.tag = tag.getD f.name
  type_eq : g.type = String.ofList (f.type.toList.filter (!isBlank ·))

end DeclaredField

namespace Declaration

/-- The fields of a declaration; only a record has any. -/
def fields (d : Declaration) : List DeclaredField :=
  match d.shape with
  | .record fields => fields
  | _ => []

/-- The names written on a declaration, in whichever attribute, in order. -/
def writtenNames (d : Declaration) : List String :=
  (entries d.attributes).filterMap AttributeEntry.name?

/-- The rules for a declaration. -/
structure WellFormed (d : Declaration) : Prop where
  concrete : d.parameters = []
  record : ∃ fields, d.shape = .record fields
  names : ∀ entry ∈ entries d.attributes, entry.IsName
  tags : ∀ f ∈ d.fields, ∃ tag, f.Tagged tag

/-- Whether a declaration describes a certain model. -/
structure DescribedAs (d : Declaration) (m : DescribedModel) : Prop where
  concrete : d.parameters = []
  record : ∃ fields, d.shape = .record fields
  names : ∀ entry ∈ entries d.attributes, entry.IsName
  ident_eq : m.ident = d.ident
  name_eq : m.name = d.writtenNames.getLast?
  fields : List.Forall₂ DeclaredField.DescribedAs d.fields m.fields

end Declaration

/-! ## Fields -/

namespace DeclaredField

variable {f : DeclaredField} {g : DescribedField} {tag : Option String}

/-- A tagged field has this one tag written on it. -/
theorem Tagged.writtenTags_eq (h : f.Tagged tag) : f.writtenTags = tag.toList := by
  cases h with
  | bare h => simp [writtenTags, h]
  | written h => simp [writtenTags, h, AttributeEntry.literal?]

/-- Behind a tag no further attribute is admitted. -/
theorem explicitTag_some {text : String} {attributes : List Attribute} :
    Declaration.explicitTag (some text) attributes = .ok tag ↔
      mappings attributes = [] ∧ tag = some text := by
  induction attributes with
  | nil => simp [Declaration.explicitTag, eq_comm]
  | cons a attributes ih =>
      cases a with
      | foreign => simpa [Declaration.explicitTag] using ih
      | mapping entries => simp [Declaration.explicitTag]

/-- A tag is read off attributes of which one at most is not foreign and holds the tag and nothing
else. -/
theorem explicitTag_none {attributes : List Attribute} :
    Declaration.explicitTag none attributes = .ok tag ↔ mappings attributes = [] ∧ tag = none ∨
      ∃ text, mappings attributes = [[.literal text]] ∧ tag = some text := by
  induction attributes with
  | nil => simp [Declaration.explicitTag, eq_comm]
  | cons a attributes ih =>
      cases a with
      | foreign => simpa [Declaration.explicitTag] using ih
      | mapping entries =>
          rcases entries with _ | ⟨⟨key, value⟩ | text, _ | ⟨entry, entries⟩⟩ <;>
            simp [Declaration.explicitTag, explicitTag_some]

/-- The tag of a field is the one that its attributes give it. -/
theorem explicitTag_eq_ok_iff :
    Declaration.explicitTag none f.attributes = .ok tag ↔ f.Tagged tag := by
  rw [explicitTag_none]
  constructor
  · rintro (⟨h, rfl⟩ | ⟨text, h, rfl⟩)
    · exact .bare h
    · exact .written h
  · rintro (h | h)
    · exact .inl ⟨h, rfl⟩
    · exact .inr ⟨_, h, rfl⟩

/-- What a field is described as. -/
theorem describeField_eq_ok_iff : Declaration.describeField f = .ok g ↔ f.DescribedAs g := by
  rw [Declaration.describeField, bind_eq_ok]
  constructor
  · rintro ⟨tag, htag, h⟩
    cases h
    exact ⟨rfl, ⟨tag, explicitTag_eq_ok_iff.1 htag, rfl⟩, rfl⟩
  · rintro ⟨hname, ⟨tag, htag, heq⟩, htype⟩
    refine ⟨tag, explicitTag_eq_ok_iff.2 htag, ?_⟩
    rw [← heq, ← hname, ← htype]
    rfl

end DeclaredField

/-! ## Declarations -/

namespace Declaration

variable {d : Declaration} {m : DescribedModel} {name : Option String}

/-- Names are read off entries that are all names, and the last one counts. -/
theorem explicitName_eq_ok_iff {start : Option String} {es : List AttributeEntry} :
    explicitName start es = .ok name ↔ (∀ entry ∈ es, entry.IsName) ∧
      name = (es.filterMap AttributeEntry.name?).getLast?.or start := by
  induction es generalizing start with
  | nil => simp [explicitName, eq_comm]
  | cons entry es ih =>
      cases entry with
      | literal text => simp [explicitName, AttributeEntry.IsName]
      | assign key value =>
          by_cases hkey : key = "name"
          · by_cases hblank : allBlank value = true
            · simp [explicitName, AttributeEntry.IsName, hkey, hblank]
            · have hlast : ∀ values : List String,
                  (value :: values).getLast?.or start = values.getLast?.or (some value) := by
                intro values
                rw [List.getLast?_cons]
                cases values.getLast? <;> rfl
              simp [explicitName, AttributeEntry.IsName, AttributeEntry.name?, hkey, hblank, ih,
                hlast]
          · simp [explicitName, AttributeEntry.IsName, hkey]

/-- What a declaration is described as. -/
theorem describe_eq_ok_iff : d.describe = .ok m ↔ d.DescribedAs m := by
  obtain ⟨ident, parameters, attributes, shape⟩ := d
  have hfields : ∀ {fs gs}, fs.mapM describeField = .ok gs ↔
      List.Forall₂ DeclaredField.DescribedAs fs gs := by
    intro fs gs
    rw [mapM_eq_ok_iff]
    exact ⟨fun h => h.imp fun _ _ => DeclaredField.describeField_eq_ok_iff.1,
      fun h => h.imp fun _ _ => DeclaredField.describeField_eq_ok_iff.2⟩
  cases parameters with
  | cons parameter parameters => exact ⟨fun h => (nomatch h), fun h => (nomatch h.concrete)⟩
  | nil =>
      cases shape with
      | record fs =>
          constructor
          · intro h
            obtain ⟨name, hname, h⟩ := bind_eq_ok.1 h
            obtain ⟨gs, hgs, h⟩ := bind_eq_ok.1 h
            cases h
            obtain ⟨hnames, rfl⟩ := explicitName_eq_ok_iff.1 hname
            exact ⟨rfl, ⟨fs, rfl⟩, hnames, rfl, Option.or_none, hfields.1 hgs⟩
          · rintro ⟨-, -, hnames, hident, hname, hdescribed⟩
            have hlast : explicitName none (entries attributes) = .ok m.name :=
              explicitName_eq_ok_iff.2 ⟨hnames, hname.trans Option.or_none.symm⟩
            refine bind_eq_ok.2 ⟨m.name, hlast, bind_eq_ok.2 ⟨m.fields, hfields.2 hdescribed, ?_⟩⟩
            cases m
            cases hident
            rfl
      | _ =>
          refine ⟨fun h => (nomatch h), fun h => ?_⟩
          obtain ⟨fs, hfs⟩ := h.record
          cases hfs

/-- A declaration describes a model exactly when it follows the rules. -/
theorem describes_iff : (∃ m, d.describe = .ok m) ↔ d.WellFormed := by
  constructor
  · rintro ⟨m, hm⟩
    obtain ⟨hconcrete, hrecord, hnames, -, -, hfields⟩ := describe_eq_ok_iff.1 hm
    refine ⟨hconcrete, hrecord, hnames, fun f hf => ?_⟩
    obtain ⟨g, -, hg⟩ := exists_of_forall₂ hfields.flip hf
    obtain ⟨tag, htag, -⟩ := hg.tag_eq
    exact ⟨tag, htag⟩
  · rintro ⟨hconcrete, hrecord, hnames, htags⟩
    obtain ⟨gs, hgs⟩ : ∃ gs, d.fields.mapM describeField = .ok gs := by
      refine mapM_succeeds fun f hf => ?_
      obtain ⟨tag, htag⟩ := htags f hf
      exact ⟨⟨f.name, tag.getD f.name, _⟩,
        DeclaredField.describeField_eq_ok_iff.2 ⟨rfl, ⟨tag, htag, rfl⟩, rfl⟩⟩
    refine ⟨⟨d.ident, d.writtenNames.getLast?, gs⟩, describe_eq_ok_iff.2
      ⟨hconcrete, hrecord, hnames, rfl, rfl, ?_⟩⟩
    exact (mapM_eq_ok_iff.1 hgs).imp fun _ _ => DeclaredField.describeField_eq_ok_iff.1

/-- What is written on a declaration is not lost but for names. A declaration that breaks a rule
describes no model, such as one with two tags on one field. Any other describes a model that lists
the fields in order, each with the tag that is written on it; its name is the last one written, so
it is each of the written names exactly when they agree. -/
theorem attributes_kept_iff (d : Declaration) :
    ((∃ m, d.describe = .ok m) ↔ d.WellFormed) ∧
    (∀ f ∈ d.fields, 2 ≤ f.writtenTags.length → ∃ e, d.describe = .error e) ∧
    ∀ m, d.describe = .ok m →
      List.Forall₂ (fun f g => g.name = f.name ∧ ∀ tag ∈ f.writtenTags, g.tag = tag)
        d.fields m.fields ∧
      m.name = d.writtenNames.getLast? ∧
      ((∀ name ∈ d.writtenNames, m.name = some name) ↔
        ∀ name ∈ d.writtenNames, ∀ other ∈ d.writtenNames, name = other) := by
  refine ⟨describes_iff, fun f hf htwo => ?_, fun m hm => ?_⟩
  · cases hd : d.describe with
    | error e => exact ⟨e, rfl⟩
    | ok m =>
        obtain ⟨tag, htag⟩ := (describes_iff.1 ⟨m, hd⟩).tags f hf
        rw [htag.writtenTags_eq] at htwo
        cases tag <;> simp at htwo
  · have hdescribed := describe_eq_ok_iff.1 hm
    refine ⟨hdescribed.fields.imp fun f g hg => ?_, hdescribed.name_eq, ?_⟩
    · obtain ⟨tag, htag, heq⟩ := hg.tag_eq
      refine ⟨hg.name_eq, fun text htext => ?_⟩
      rw [htag.writtenTags_eq, Option.mem_toList] at htext
      rw [heq, htext]
      rfl
    · rw [hdescribed.name_eq]
      constructor
      · intro hall name hname other hother
        exact Option.some.inj ((hall name hname).symm.trans (hall other hother))
      · intro hagree name hname
        cases hlast : d.writtenNames.getLast? with
        | none => exact absurd (List.getLast?_eq_none_iff.1 hlast) (List.ne_nil_of_mem hname)
        | some last => rw [hagree name hname last (List.mem_of_getLast? hlast)]

/-- A declaration with its name written twice and a tag on its first field. -/
def post : Declaration where
  ident := "Post"
  parameters := []
  attributes := [.mapping [.assign "name" "shop.Post"], .foreign,
    .mapping [.assign "name" "shop.Post"]]
  shape := .record [⟨"id", "u64", [.foreign, .mapping [.literal "post_id key auto"]]⟩,
    ⟨"title", "String", [.foreign]⟩]

/-- The same declaration with two tags on its only field. -/
def taggedTwice : Declaration :=
  { post with
    shape := .record [⟨"id", "u64", [.mapping [.literal "id"], .mapping [.literal "id key"]]⟩] }

/-- Of a declaration whose names agree all is kept, and two tags on a field are refused. -/
theorem post_attributes_kept :
    (∃ e, taggedTwice.describe = .error e) ∧
    post.describe = .ok ⟨"Post", some "shop.Post",
      [⟨"id", "post_id key auto", "u64"⟩, ⟨"title", "title", "String"⟩]⟩ ∧
    post.writtenNames = ["shop.Post", "shop.Post"] ∧
    ∀ name ∈ post.writtenNames, some "shop.Post" = some name := by
  have hpost : post.describe = .ok ⟨"Post", some "shop.Post",
      [⟨"id", "post_id key auto", "u64"⟩, ⟨"title", "title", "String"⟩]⟩ := by decide +kernel
  have hnames : post.writtenNames = ["shop.Post", "shop.Post"] := by decide +kernel
  refine ⟨?_, hpost, hnames, ?_⟩
  · exact (attributes_kept_iff taggedTwice).2.1 _ (List.mem_singleton_self _) (by decide +kernel)
  · refine ((attributes_kept_iff post).2.2 _ hpost).2.2.2 ?_
    simp [hnames]

/-- The same declaration with two names. -/
def renamedPost : Declaration :=
  { post with
    attributes := [.mapping [.assign "name" "shop.Post"], .mapping [.assign "name" "blog.Post"]] }

/-- A declaration with two names is not refused, and the first name is lost. -/
theorem renamedPost_name_lost :
    ∃ m, renamedPost.describe = .ok m ∧ "shop.Post" ∈ renamedPost.writtenNames ∧
      m.name = some "blog.Post" := by
  refine ⟨⟨"Post", some "blog.Post",
    [⟨"id", "post_id key auto", "u64"⟩, ⟨"title", "title", "String"⟩]⟩, ?_, ?_, rfl⟩
  · decide +kernel
  · decide +kernel

end Declaration

end EntityMapper
