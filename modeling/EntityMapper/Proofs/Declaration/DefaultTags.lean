import EntityMapper.Proofs.Declaration.Attributes
import EntityMapper.Proofs.Model.Tag
import EntityMapper.Proofs.Model.Verdict

/-!
# Default tags

A field without an attribute of its own is tagged with its name. Where the name is a plain
identifier the tag names a column exactly when the name is written in ASCII, so a declaration
without attributes, all of whose names are plain, yields a model that can be described exactly when
they are all written in ASCII (`Declaration.default_tags`). Names with characters beyond ASCII are
admitted in declarations but not for columns: they need a tag. Raw identifiers are not plain, and
nothing is said of them here.
-/

namespace EntityMapper

variable {n : Nat}

/-! ## Identifiers -/

/-- Whether a name is written like an identifier that is not raw: with letters, digits and
underscores of ASCII and with characters beyond ASCII. A raw identifier begins with `r#`. -/
def IsPlainIdentifier (name : String) : Prop :=
  name ≠ "" ∧ ∀ c ∈ name.toList, isNameChar c = true ∨ 0x80 ≤ c.toNat

/-- Whether a text is written in ASCII. -/
def InAscii (text : String) : Prop := ∀ c ∈ text.toList, c.toNat < 0x80

instance (name : String) : Decidable (IsPlainIdentifier name) :=
  decidable_of_iff (name ≠ "" ∧ name.toList.all (fun c => isNameChar c || 0x80 ≤ c.toNat) = true)
    (by simp [IsPlainIdentifier])

instance (text : String) : Decidable (InAscii text) :=
  decidable_of_iff (text.toList.all (·.toNat < 0x80) = true) (by simp [InAscii])

example : IsPlainIdentifier "größe" ∧ ¬ IsPlainIdentifier "r#type" := by decide +kernel

/-- A plain identifier is one word. -/
theorem IsPlainIdentifier.space_not_mem {name : String} (h : IsPlainIdentifier name) :
    ' ' ∉ name.toList := by
  intro hspace
  have hchar : isNameChar ' ' = true ∨ 0x80 ≤ ' '.toNat := h.2 ' ' hspace
  revert hchar
  decide

/-- Columns can have a plain identifier for a name exactly when it is written in ASCII. -/
theorem IsPlainIdentifier.isColumnName_iff {name : String} (h : IsPlainIdentifier name) :
    IsColumnName name ↔ InAscii name := by
  constructor
  · exact fun hname c hc => hname.toNat_lt hc
  · intro hascii
    refine ⟨h.1, List.all_eq_true.2 fun c hc => ?_⟩
    exact (h.2 c hc).resolve_right (Nat.not_le_of_lt (hascii c hc))

/-- A plain identifier with a character beyond ASCII is refused as a tag. -/
theorem IsPlainIdentifier.parse_eq_error {name : String} (h : IsPlainIdentifier name)
    (hascii : ¬ InAscii name) : FieldTag.parse name = .error (.invalidName name) :=
  FieldTag.parse_word h.1 h.space_not_mem fun hname => hascii (h.isColumnName_iff.1 hname)

/-! ## Models without explicit tags -/

/-- The model of a description, in a module and with its types resolved. -/
def DescribedModel.entity (m : DescribedModel) (path : String) (types : String → ColumnType n) :
    EntityModel n where
  ident := m.ident
  path := path
  explicitName := m.name
  fields := m.fields.map fun f => ⟨f.name, f.tag, types f.type⟩
  offered := none

/-- Fields whose tags are different column names do not offend. -/
theorem not_offendsAt_of_columnNames {fields : List (FieldModel n)}
    (hnames : ∀ f ∈ fields, IsColumnName f.tag) (hdiffer : (fields.map (·.tag)).Nodup)
    (index : Nat) (fault : TagFault) : ¬ OffendsAt fields index fault := by
  have hparse : ∀ f ∈ fields, ∃ tag, FieldTag.parse f.tag = .ok tag ∧ tag.name = f.tag ∧
      tag.isKey = false ∧ tag.isAuto = false := fun f hf =>
    ⟨_, FieldTag.parse_columnName (hnames f hf), rfl, rfl, rfl⟩
  rintro ⟨f, hf, hoffends⟩
  obtain ⟨tag, htag, hname, hkey, hauto⟩ := hparse f (List.mem_of_getElem? hf)
  cases hoffends with
  | unreadable hfailed => cases htag.symm.trans hfailed
  | autoOnKind hparsed hflag =>
      cases htag.symm.trans hparsed
      exact absurd hflag (by simp [hauto])
  | keyOnKind hparsed hflag =>
      cases htag.symm.trans hparsed
      exact absurd hflag (by simp [hkey])
  | secondKey hflag =>
      rw [FieldModel.isKey_of_parse htag] at hflag
      exact absurd hflag (by simp [hkey])
  | @duplicateColumn g name hcolumn hg hearlier =>
      obtain ⟨tag', htag', hname', -⟩ := hparse g (List.mem_of_mem_take hg)
      rw [FieldModel.column?_of_parse htag, hname] at hcolumn
      rw [FieldModel.column?_of_parse htag', hname'] at hearlier
      have hsame : g.tag = f.tag := Option.some.inj (hearlier.trans hcolumn.symm)
      exact pairwise_iff_take.1 (List.pairwise_map.1 hdiffer) index f hf g hg hsame

/-- A model whose tags are different column names can be described. -/
theorem EntityModel.describe_of_columnNames {m : EntityModel n} (hne : m.fields ≠ [])
    (hnames : ∀ f ∈ m.fields, IsColumnName f.tag) (hdiffer : (m.fields.map (·.tag)).Nodup) :
    ∃ ds, m.describe = .ok ds := by
  have hverdict := verdict_of_describe hne
  cases hds : m.describe with
  | ok ds => exact ⟨ds, rfl⟩
  | error e =>
      rw [hds] at hverdict
      obtain ⟨index, -, fault, -, -, hoffends, -⟩ := hverdict
      exact absurd hoffends (not_offendsAt_of_columnNames hnames hdiffer index fault)

/-- Whether a field has no attribute of its own, only foreign ones. -/
def DeclaredField.IsBare (f : DeclaredField) : Prop := ∀ a ∈ f.attributes, a = .foreign

instance (f : DeclaredField) : Decidable f.IsBare := by
  unfold DeclaredField.IsBare; infer_instance

/-- A field without an attribute is tagged with its name. -/
theorem DeclaredField.IsBare.tag_eq {f : DeclaredField} (hbare : f.IsBare) {g : DescribedField}
    (h : f.DescribedAs g) : g.tag = f.name := by
  have hmappings : mappings f.attributes = [] := by
    refine List.filterMap_eq_nil_iff.2 fun a ha => ?_
    rw [hbare a ha]
  obtain ⟨tag, htag, heq⟩ := h.tag_eq
  cases htag with
  | bare => exact heq
  | written hwritten => cases hmappings.symm.trans hwritten

namespace Declaration

variable {d : Declaration} {m : DescribedModel}

/-- A declared field is described at its own position. -/
theorem exists_described (h : d.describe = .ok m) {i : Nat} {f : DeclaredField}
    (hf : d.fields[i]? = some f) : ∃ g, m.fields[i]? = some g ∧ f.DescribedAs g := by
  have hdescribed := (describe_eq_ok_iff.1 h).fields
  obtain ⟨hi, rfl⟩ := List.getElem?_eq_some_iff.1 hf
  have hj : i < m.fields.length := hdescribed.length_eq ▸ hi
  exact ⟨m.fields[i], List.getElem?_eq_getElem hj, hdescribed.get hi hj⟩

/-- The tags of a model without attributes on its fields are the names of the fields. -/
theorem entity_tags_eq (h : d.describe = .ok m) (hbare : ∀ f ∈ d.fields, f.IsBare)
    (path : String) (types : String → ColumnType n) :
    (m.entity path types).fields.map (·.tag) = d.fields.map (·.name) := by
  have hdescribed := (describe_eq_ok_iff.1 h).fields
  show (m.fields.map _).map _ = _
  rw [List.map_map]
  generalize d.fields = fs at hbare hdescribed
  generalize m.fields = gs at hdescribed
  induction hdescribed with
  | nil => rfl
  | @cons f g fs gs hfield _ ih =>
      rw [List.forall_mem_cons] at hbare
      rw [List.map_cons, List.map_cons, ih hbare.2]
      exact congrArg (· :: _) (hbare.1.tag_eq hfield)

/-- The tag of a field without an attribute whose name is a plain identifier is a column of that
name, without flags, when the name is written in ASCII, and it is refused otherwise. So a
declaration with fields, without attributes on them, and with different plain identifiers for their
names yields a model that can be described exactly when these are all written in ASCII, whatever its
types are. -/
theorem default_tags (h : d.describe = .ok m) :
    (∀ (i : Nat) (f : DeclaredField), d.fields[i]? = some f → f.IsBare → IsPlainIdentifier f.name →
      ∃ g : DescribedField, m.fields[i]? = some g ∧ g.name = f.name ∧
      (InAscii f.name → ∃ tag, FieldTag.parse g.tag = .ok tag ∧ tag.name = f.name ∧
        tag.isKey = false ∧ tag.isAuto = false) ∧
      (¬ InAscii f.name → FieldTag.parse g.tag = .error (.invalidName f.name))) ∧
    (d.fields ≠ [] → (∀ f ∈ d.fields, f.IsBare ∧ IsPlainIdentifier f.name) →
      (d.fields.map (·.name)).Nodup → ∀ (n : Nat) (path : String) (types : String → ColumnType n),
        (∃ ds, (m.entity path types).describe = .ok ds) ↔ ∀ f ∈ d.fields, InAscii f.name) := by
  refine ⟨fun i f hf hbare hplain => ?_, fun hne hall hnodup n path types => ?_⟩
  · obtain ⟨g, hg, hfield⟩ := exists_described h hf
    refine ⟨g, hg, hfield.name_eq, fun hascii => ?_, fun hascii => ?_⟩
    · rw [hbare.tag_eq hfield]
      exact ⟨_, FieldTag.parse_columnName (hplain.isColumnName_iff.2 hascii), rfl, rfl, rfl⟩
    · rw [hbare.tag_eq hfield]
      exact hplain.parse_eq_error hascii
  · have htags : (m.entity path types).fields.map (·.tag) = d.fields.map (·.name) :=
      entity_tags_eq h (fun f hf => (hall f hf).1) path types
    constructor
    · intro hdescribed f hf
      have hreadable := ((m.entity path types).describe_verdict.1.1 hdescribed).readable
      obtain ⟨g, hg, htag⟩ := List.mem_map.1 (htags ▸ List.mem_map_of_mem hf)
      obtain ⟨tag, hparse⟩ := hreadable g hg
      rw [htag] at hparse
      by_contra hascii
      cases hparse.symm.trans ((hall f hf).2.parse_eq_error hascii)
    · intro hascii
      have hlength : (m.entity path types).fields.length = d.fields.length := by
        simpa using congrArg List.length htags
      refine EntityModel.describe_of_columnNames (fun hempty => ?_) (fun g hg => ?_)
        (htags ▸ hnodup)
      · rw [hempty] at hlength
        exact hne (List.eq_nil_of_length_eq_zero hlength.symm)
      · have htag : g.tag ∈ d.fields.map (·.name) := htags ▸ List.mem_map_of_mem hg
        obtain ⟨f, hf, hname⟩ := List.mem_map.1 htag
        exact hname ▸ (hall f hf).2.isColumnName_iff.2 (hascii f hf)

/-- A declaration without attributes of its own. -/
def pear : Declaration where
  ident := "Pear"
  parameters := []
  attributes := []
  shape := .record [⟨"id", "u64", [.foreign]⟩, ⟨"grower_id", "u64", []⟩, ⟨"Sort2", "String", []⟩]

/-- A declaration of a field with a letter beyond ASCII. -/
def garment : Declaration where
  ident := "Garment"
  parameters := []
  attributes := []
  shape := .record [⟨"größe", "i64", []⟩]

/-- The model of the one declaration can be described and has the columns of the fields' names; the
tag of the other one is refused, and so is its model. -/
theorem pear_garment_default_tags :
    (∃ m g, pear.describe = .ok m ∧ m.fields[1]? = some g ∧
      (∃ tag, FieldTag.parse g.tag = .ok tag ∧ tag.name = "grower_id" ∧ tag.isKey = false ∧
        tag.isAuto = false) ∧
      ∃ ds, (m.entity "shop" fun _ => .integer .int64 : EntityModel 0).describe = .ok ds) ∧
    ∃ m g, garment.describe = .ok m ∧ m.fields[0]? = some g ∧
      FieldTag.parse g.tag = .error (.invalidName "größe") ∧
      ¬ ∃ ds, (m.entity "shop" fun _ => .integer .int64 : EntityModel 0).describe = .ok ds := by
  constructor
  · have hpear : pear.describe = .ok ⟨"Pear", none, [⟨"id", "id", "u64"⟩,
        ⟨"grower_id", "grower_id", "u64"⟩, ⟨"Sort2", "Sort2", "String"⟩]⟩ := by decide +kernel
    obtain ⟨htags, hdescribe⟩ := default_tags hpear
    obtain ⟨g, hg, -, hcolumn, -⟩ :=
      htags 1 ⟨"grower_id", "u64", []⟩ rfl (by decide) (by decide +kernel)
    have hmodel := hdescribe (by decide) (by decide +kernel) (by decide) 0 "shop"
      fun _ => .integer .int64
    exact ⟨_, g, hpear, hg, hcolumn (by decide +kernel), hmodel.2 (by decide +kernel)⟩
  · have hgarment : garment.describe = .ok ⟨"Garment", none, [⟨"größe", "größe", "i64"⟩]⟩ := by
      decide +kernel
    obtain ⟨htags, hdescribe⟩ := default_tags hgarment
    obtain ⟨g, hg, -, -, hrefused⟩ :=
      htags 0 ⟨"größe", "i64", []⟩ rfl (by decide) (by decide +kernel)
    have hmodel := hdescribe (by decide) (by decide +kernel) (by decide) 0 "shop"
      fun _ => .integer .int64
    refine ⟨_, g, hgarment, hg, hrefused (by decide +kernel), fun hdescribed => ?_⟩
    have hascii : ¬ ∀ f ∈ garment.fields, InAscii f.name := by decide +kernel
    exact hascii (hmodel.1 hdescribed)

/-- A declaration without attributes can yield a model that is refused for the tag of a field. -/
theorem garment_default_tag_refused :
    ∃ m, garment.describe = .ok m ∧ (∀ f ∈ garment.fields, f.IsBare) ∧
      FieldTag.parse "größe" = .error (.invalidName "größe") ∧
      (m.entity "shop" fun _ => .integer .int64 : EntityModel 0).describe =
        .error (.malformedTag "shop.Garment" "größe" (.unreadable (.invalidName "größe"))) :=
  ⟨⟨"Garment", none, [⟨"größe", "größe", "i64"⟩]⟩, by decide +kernel, by decide +kernel,
    by decide +kernel, by decide +kernel⟩

end Declaration

end EntityMapper
