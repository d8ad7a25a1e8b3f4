import EntityMapper.Proofs.Model.Description

/-!
# Which models can be described

A field offends where its tag cannot be read, where its flags do not fit its kind, and where it
claims a key or a column name that an earlier field has (`FieldModel.Offends`). A model is described
exactly when it has fields and none of them offends, which is told in terms of the whole model by
`EntityModel.WellDeclared`. Otherwise the error is that of the first field that offends
(`EntityModel.describe_verdict`).
-/

namespace EntityMapper

variable {n : Nat}

/-- The column that a field's tag names; none where the tag cannot be read. -/
def FieldModel.column? (f : FieldModel n) : Option String :=
  match FieldTag.parse f.tag with
  | .ok tag => some tag.name
  | .error _ => none

/-- What is wrong with a field that stands after the given ones. -/
inductive FieldModel.Offends (earlier : List (FieldModel n)) (f : FieldModel n) : TagFault → Prop
  | unreadable {e : TagError} (hparse : FieldTag.parse f.tag = .error e) :
      Offends earlier f (.unreadable e)
  | autoOnKind {tag : FieldTag} (hparse : FieldTag.parse f.tag = .ok tag)
      (hauto : tag.isAuto = true) (hkind : ∀ kind, f.type.classify.kind ≠ .integer kind) :
      Offends earlier f (.autoOnKind f.type.classify.kind)
  | keyOnKind {tag : FieldTag} (hparse : FieldTag.parse f.tag = .ok tag) (hkey : tag.isKey = true)
      (hkind : f.type.classify.kind ∈ [FieldKind.record, .list, .recordList]) :
      Offends earlier f (.keyOnKind f.type.classify.kind)
  | secondKey {g : FieldModel n} (hkey : f.isKey = true) (hg : g ∈ earlier)
      (hearlier : g.isKey = true) : Offends earlier f (.secondKey g.name)
  | duplicateColumn {g : FieldModel n} {name : String} (hname : f.column? = some name)
      (hg : g ∈ earlier) (hearlier : g.column? = some name) : Offends earlier f .duplicateColumn

/-- The place of a fault among the faults that one field may have. -/
def TagFault.rank : TagFault → Nat
  | unreadable _ => 0
  | autoOnKind _ => 1
  | keyOnKind _ => 2
  | secondKey _ => 3
  | duplicateColumn => 4

/-- Whether the field at a position offends against the rules in a certain way. -/
def OffendsAt (fields : List (FieldModel n)) (index : Nat) (fault : TagFault) : Prop :=
  ∃ f, fields[index]? = some f ∧ f.Offends (fields.take index) fault

/-- The rules for the declaration of a model. -/
structure EntityModel.WellDeclared (m : EntityModel n) : Prop where
  nonempty : m.fields ≠ []
  readable : ∀ f ∈ m.fields, ∃ tag, FieldTag.parse f.tag = .ok tag
  auto_integer : ∀ f ∈ m.fields, ∀ tag, FieldTag.parse f.tag = .ok tag → tag.isAuto = true →
    ∃ kind, f.type.classify.kind = .integer kind
  key_scalar : ∀ f ∈ m.fields, ∀ tag, FieldTag.parse f.tag = .ok tag → tag.isKey = true →
    f.type.classify.kind ∉ [FieldKind.record, .list, .recordList]
  one_key : m.fields.Pairwise fun f g => ¬ (f.isKey = true ∧ g.isKey = true)
  columns_differ : m.fields.Pairwise fun f g =>
    ∀ name, ¬ (f.column? = some name ∧ g.column? = some name)

/-- A relation holds between the elements of a list in order when it holds between each element and
those before it. -/
theorem pairwise_iff_take {α : Type} {R : α → α → Prop} {xs : List α} :
    xs.Pairwise R ↔ ∀ i x, xs[i]? = some x → ∀ y ∈ xs.take i, R y x := by
  rw [List.pairwise_iff_getElem]
  constructor
  · intro h i x hx y hy
    obtain ⟨hi, rfl⟩ := List.getElem?_eq_some_iff.1 hx
    obtain ⟨j, hj, rfl⟩ := List.mem_take_iff_getElem.1 hy
    exact h j i _ hi (Nat.lt_of_lt_of_le hj (Nat.min_le_left _ _))
  · intro h i j hi hj hij
    refine h j _ (List.getElem?_eq_getElem hj) _ (List.mem_take_iff_getElem.2 ⟨i, ?_, rfl⟩)
    exact Nat.lt_min.2 ⟨hij, hi⟩

/-- A model is well declared exactly when it has fields and none of them offends. -/
theorem EntityModel.wellDeclared_iff {m : EntityModel n} :
    m.WellDeclared ↔ m.fields ≠ [] ∧ ∀ index fault, ¬ OffendsAt m.fields index fault := by
  constructor
  · refine fun h => ⟨h.nonempty, ?_⟩
    rintro index fault ⟨f, hf, hoffends⟩
    have hmem : f ∈ m.fields := List.mem_of_getElem? hf
    cases hoffends with
    | unreadable hparse =>
        obtain ⟨tag, htag⟩ := h.readable f hmem
        cases hparse.symm.trans htag
    | autoOnKind hparse hauto hkind =>
        exact (h.auto_integer f hmem _ hparse hauto).elim hkind
    | keyOnKind hparse hkey hkind => exact h.key_scalar f hmem _ hparse hkey hkind
    | secondKey hkey hg hearlier =>
        exact pairwise_iff_take.1 h.one_key index f hf _ hg ⟨hearlier, hkey⟩
    | duplicateColumn hname hg hearlier =>
        exact pairwise_iff_take.1 h.columns_differ index f hf _ hg _ ⟨hearlier, hname⟩
  · rintro ⟨hne, hfree⟩
    -- What any field does not do it does not do at its position.
    have hmem : ∀ f ∈ m.fields, ∃ index, m.fields[index]? = some f := fun f =>
      List.mem_iff_getElem?.1
    refine ⟨hne, fun f hf => ?_, fun f hf tag hparse hauto => ?_,
      fun f hf tag hparse hkey hkind => ?_,
      pairwise_iff_take.2 fun i f hf g hg => ?_, pairwise_iff_take.2 fun i f hf g hg name => ?_⟩
    · obtain ⟨index, hindex⟩ := hmem f hf
      cases hparse : FieldTag.parse f.tag with
      | ok tag => exact ⟨tag, rfl⟩
      | error e => exact absurd ⟨f, hindex, .unreadable hparse⟩ (hfree index _)
    · obtain ⟨index, hindex⟩ := hmem f hf
      refine Classical.not_forall_not.1 fun hkind => ?_
      exact hfree index _ ⟨f, hindex, .autoOnKind hparse hauto hkind⟩
    · obtain ⟨index, hindex⟩ := hmem f hf
      exact hfree index _ ⟨f, hindex, .keyOnKind hparse hkey hkind⟩
    · exact fun ⟨hearlier, hkey⟩ => hfree i _ ⟨f, hf, .secondKey hkey hg hearlier⟩
    · exact fun ⟨hearlier, hname⟩ => hfree i _ ⟨f, hf, .duplicateColumn hname hg hearlier⟩

/-! ## One field -/

/-- What is taken tells of the fields before a field which columns they name, and which of them is a
key. -/
structure Taken.Of (earlier : List (FieldModel n)) (taken : Taken) : Prop where
  columns : ∀ name, name ∈ taken.columns ↔ ∃ g ∈ earlier, g.column? = some name
  key : ∀ name, taken.key = some name → ∃ g ∈ earlier, g.isKey = true ∧ g.name = name
  keyless : taken.key = none → ∀ g ∈ earlier, g.isKey = false

section OneField

variable {entity : String} {taken : Taken} {index : Nat} {f : FieldModel n} {tag : FieldTag}
  {earlier : List (FieldModel n)} {d : Descriptor n} {e : MapperError}

theorem FieldModel.column?_of_parse (hparse : FieldTag.parse f.tag = .ok tag) :
    f.column? = some tag.name := by
  rw [FieldModel.column?, hparse]

theorem FieldModel.isKey_of_parse (hparse : FieldTag.parse f.tag = .ok tag) :
    f.isKey = tag.isKey := by
  rw [FieldModel.isKey, hparse]

theorem FieldKind.isInteger_iff {kind : FieldKind} :
    kind.isInteger = true ↔ ∃ i, kind = .integer i := by
  cases kind <;> simp [isInteger]

theorem FieldKind.isComposite_iff {kind : FieldKind} :
    kind.isComposite = true ↔ kind ∈ [FieldKind.record, .list, .recordList] := by
  cases kind <;> simp [isComposite]

/-- After a field that was described, what is taken tells of this field too. -/
theorem Taken.Of.add (h : taken.Of earlier) (hd : Describes f d) :
    (EntityModel.Taken.add taken d).Of (earlier ++ [f]) := by
  have hcolumn : f.column? = some d.column := FieldModel.column?_of_parse hd.parsed
  have hkey : f.isKey = d.tag.isKey := hd.isKey_eq
  refine ⟨fun name => ?_, fun name hname => ?_, fun hnone g hg => ?_⟩
  · have hcons : name ∈ (EntityModel.Taken.add taken d).columns ↔
        name = d.column ∨ name ∈ taken.columns := List.mem_cons
    rw [hcons, h.columns name]
    constructor
    · rintro (rfl | ⟨g, hg, hgname⟩)
      · exact ⟨f, by simp, hcolumn⟩
      · exact ⟨g, List.mem_append_left _ hg, hgname⟩
    · rintro ⟨g, hg, hgname⟩
      rcases List.mem_append.1 hg with hg | hg
      · exact .inr ⟨g, hg, hgname⟩
      · obtain rfl := List.mem_singleton.1 hg
        exact .inl (Option.some.inj (hgname.symm.trans hcolumn))
  · rw [EntityModel.Taken.add] at hname
    split at hname
    · rename_i hflag
      cases hname
      exact ⟨f, by simp, hkey.trans hflag, hd.name_eq.symm⟩
    · obtain ⟨g, hg, hgkey⟩ := h.key name hname
      exact ⟨g, List.mem_append_left _ hg, hgkey⟩
  · rw [EntityModel.Taken.add] at hnone
    split at hnone
    · cases hnone
    · rename_i hflag
      rcases List.mem_append.1 hg with hg | hg
      · exact h.keyless hnone g hg
      · obtain rfl := List.mem_singleton.1 hg
        rw [hkey]
        exact Bool.not_eq_true _ ▸ hflag

/-- A fault that the check of flags and column finds is there. -/
theorem offends_of_fieldFault? (h : taken.Of earlier) (hparse : FieldTag.parse f.tag = .ok tag)
    {fault : TagFault}
    (hfault : EntityModel.fieldFault? taken tag f.type.classify.kind = some fault) :
    f.Offends earlier fault := by
  unfold EntityModel.fieldFault? at hfault
  split at hfault
  · rename_i hauto
    cases hfault
    refine .autoOnKind hparse hauto.1 fun i hi => ?_
    simp [hi, FieldKind.isInteger] at hauto
  split at hfault
  · rename_i hkey
    cases hfault
    exact .keyOnKind hparse hkey.1 (FieldKind.isComposite_iff.1 hkey.2)
  split at hfault
  · rename_i existing hexisting
    cases hfault
    split at hexisting
    · rename_i hflag
      obtain ⟨g, hg, hearlier, rfl⟩ := h.key existing hexisting
      exact .secondKey ((FieldModel.isKey_of_parse hparse).trans hflag) hg hearlier
    · cases hexisting
  split at hfault
  · rename_i hname
    cases hfault
    obtain ⟨g, hg, hearlier⟩ := (h.columns _).1 hname
    exact .duplicateColumn (FieldModel.column?_of_parse hparse) hg hearlier
  · cases hfault

/-- The check of flags and column finds a fault where there is one, and none that comes after it. -/
theorem fieldFault?_of_offends (h : taken.Of earlier) (hparse : FieldTag.parse f.tag = .ok tag)
    (other : TagFault) (hother : f.Offends earlier other) :
    ∃ fault, EntityModel.fieldFault? taken tag f.type.classify.kind = some fault ∧
      fault.rank ≤ other.rank := by
  unfold EntityModel.fieldFault?
  cases hother with
  | unreadable hfailed => cases hfailed.symm.trans hparse
  | autoOnKind hparsed hauto hkind =>
      cases hparsed.symm.trans hparse
      have hinteger : ¬ f.type.classify.kind.isInteger = true := fun hinteger =>
        (FieldKind.isInteger_iff.1 hinteger).elim hkind
      rw [if_pos ⟨hauto, by simp [hinteger]⟩]
      exact ⟨_, rfl, Nat.le_refl _⟩
  | keyOnKind hparsed hkey hkind =>
      cases hparsed.symm.trans hparse
      split
      · exact ⟨_, rfl, Nat.le_succ _⟩
      · rw [if_pos ⟨hkey, FieldKind.isComposite_iff.2 hkind⟩]
        exact ⟨_, rfl, Nat.le_refl _⟩
  | secondKey hkey hg hearlier =>
      rw [FieldModel.isKey_of_parse hparse] at hkey
      obtain ⟨existing, hexisting⟩ : ∃ existing, taken.key = some existing := by
        refine Option.ne_none_iff_exists'.1 fun hnone => ?_
        rw [h.keyless hnone _ hg] at hearlier
        cases hearlier
      rw [if_pos hkey, hexisting]
      split
      · exact ⟨_, rfl, Nat.le_of_ble_eq_true rfl⟩
      split
      · exact ⟨_, rfl, Nat.le_of_ble_eq_true rfl⟩
      · exact ⟨_, rfl, Nat.le_refl _⟩
  | duplicateColumn hname hg hearlier =>
      rw [FieldModel.column?_of_parse hparse] at hname
      cases hname
      rw [if_pos ((h.columns _).2 ⟨_, hg, hearlier⟩)]
      split
      · exact ⟨_, rfl, Nat.le_of_ble_eq_true rfl⟩
      split
      · exact ⟨_, rfl, Nat.le_of_ble_eq_true rfl⟩
      split
      · exact ⟨_, rfl, Nat.le_of_ble_eq_true rfl⟩
      · exact ⟨_, rfl, Nat.le_refl _⟩

/-- A field is described exactly when it does not offend, and its first fault is reported
otherwise. -/
theorem describeField_verdict (entity : String) (index : Nat) (f : FieldModel n)
    (h : taken.Of earlier) :
    match EntityModel.describeField entity taken index f with
    | .ok d => Describes f d ∧ ∀ fault, ¬ f.Offends earlier fault
    | .error e => ∃ fault, e = .malformedTag entity f.tag fault ∧ f.Offends earlier fault ∧
        ∀ other, f.Offends earlier other → fault.rank ≤ other.rank := by
  rw [EntityModel.describeField]
  cases hparse : FieldTag.parse f.tag with
  | error e => exact ⟨_, rfl, .unreadable hparse, fun _ _ => Nat.zero_le _⟩
  | ok tag =>
      have hfinds := fieldFault?_of_offends h hparse
      dsimp only
      cases hfault : EntityModel.fieldFault? taken tag f.type.classify.kind with
      | some fault =>
          refine ⟨fault, rfl, offends_of_fieldFault? h hparse hfault, fun other hother => ?_⟩
          obtain ⟨found, hfound, hle⟩ := hfinds other hother
          cases hfault.symm.trans hfound
          exact hle
      | none =>
          refine ⟨⟨rfl, hparse, rfl⟩, fun fault hother => ?_⟩
          obtain ⟨found, hfound, -⟩ := hfinds fault hother
          cases hfault.symm.trans hfound

end OneField

/-! ## All fields -/

/-- What the check of the fields from a position on says: none of them offends, or the error is that
of the first one that does. -/
def Verdict (entity : String) (fields : List (FieldModel n)) (start : Nat)
    (result : Except MapperError (List (Descriptor n))) : Prop :=
  match result with
  | .ok _ => ∀ index fault, start ≤ index → ¬ OffendsAt fields index fault
  | .error e => ∃ index f fault, start ≤ index ∧ fields[index]? = some f ∧
      OffendsAt fields index fault ∧ e = .malformedTag entity f.tag fault ∧
      (∀ other, OffendsAt fields index other → fault.rank ≤ other.rank) ∧
      ∀ before other, start ≤ before → before < index → ¬ OffendsAt fields before other

/-- A field offends at its position when it offends in view of the fields before it. -/
theorem offendsAt_append_cons {earlier later : List (FieldModel n)} {f : FieldModel n}
    {fault : TagFault} :
    OffendsAt (earlier ++ f :: later) earlier.length fault ↔ f.Offends earlier fault := by
  simp [OffendsAt]

/-- The fields are checked one after the other, each in view of those before it. -/
theorem describeFrom_verdict {entity : String} {taken : Taken} (earlier fs : List (FieldModel n))
    (h : taken.Of earlier) : Verdict entity (earlier ++ fs) earlier.length
      (EntityModel.describeFrom entity taken earlier.length fs) := by
  induction fs generalizing earlier taken with
  | nil =>
      rintro index fault hindex ⟨f, hf, -⟩
      rw [List.append_nil, List.getElem?_eq_none hindex] at hf
      cases hf
  | cons f fs ih =>
      have hfield := describeField_verdict entity earlier.length f h
      rw [EntityModel.describeFrom]
      cases hd : EntityModel.describeField entity taken earlier.length f with
      | error e =>
          rw [hd] at hfield
          obtain ⟨fault, rfl, hfault, hfirst⟩ := hfield
          refine ⟨earlier.length, f, fault, Nat.le_refl _, by simp, ?_, rfl, fun other hother => ?_,
            fun before other hle hlt => absurd hle (Nat.not_le_of_lt hlt)⟩
          · exact offendsAt_append_cons.2 hfault
          · exact hfirst other (offendsAt_append_cons.1 hother)
      | ok d =>
          rw [hd] at hfield
          obtain ⟨hdescribes, hfree⟩ := hfield
          -- The first field does not offend, so a verdict on the others is one on all.
          have hnone : ∀ fault, ¬ OffendsAt (earlier ++ f :: fs) earlier.length fault :=
            fun fault hfault => hfree fault (offendsAt_append_cons.1 hfault)
          have hrest := ih _ (h.add hdescribes)
          rw [List.append_assoc, List.singleton_append, List.length_append,
            List.length_singleton] at hrest
          show Verdict _ _ _ (do
            let rest ← EntityModel.describeFrom entity _ (earlier.length + 1) fs
            return d :: rest)
          cases hfs : EntityModel.describeFrom entity (EntityModel.Taken.add taken d)
              (earlier.length + 1) fs with
          | ok ds =>
              rw [hfs] at hrest
              intro index fault hindex
              rcases Nat.eq_or_lt_of_le hindex with rfl | hlt
              · exact hnone fault
              · exact hrest index fault hlt
          | error e =>
              rw [hfs] at hrest
              obtain ⟨index, g, fault, hindex, hg, hfault, rfl, hfirst, hbefore⟩ := hrest
              refine ⟨index, g, fault, Nat.le_of_succ_le hindex, hg, hfault, rfl, hfirst,
                fun before other hle hlt => ?_⟩
              rcases Nat.eq_or_lt_of_le hle with rfl | hlater
              · exact hnone other
              · exact hbefore before other hlater hlt

/-- Before the first field nothing is taken. -/
theorem Taken.of_nil : (Taken.mk [] none).Of ([] : List (FieldModel n)) :=
  ⟨by simp, by simp, by simp⟩

namespace EntityModel

variable {m : EntityModel n} {ds : List (Descriptor n)}

/-- The check of a model that has fields says of all of them what it finds. -/
theorem verdict_of_describe (hne : m.fields ≠ []) : Verdict m.name m.fields 0 m.describe := by
  rw [describe, if_neg (by simpa using hne)]
  exact describeFrom_verdict [] m.fields Taken.of_nil

/-- A model that cannot be described has no fields or a field with a malformed tag. -/
theorem describe_eq_error {e : MapperError} (h : m.describe = .error e) :
    (∃ entity, e = .noFields entity) ∨ ∃ entity tag fault, e = .malformedTag entity tag fault := by
  by_cases hfields : m.fields = []
  · rw [describe, if_pos (by simp [hfields])] at h
    exact .inl ⟨_, (Except.error.inj h).symm⟩
  · have hverdict := verdict_of_describe hfields
    rw [h] at hverdict
    obtain ⟨-, f, fault, -, -, -, he, -⟩ := hverdict
    exact .inr ⟨_, _, fault, he⟩

/-- A descriptor stands at the position of the field that it describes. -/
theorem describes_of_getElem? (h : m.describe = .ok ds) {i : Nat} {d : Descriptor n}
    (hd : ds[i]? = some d) : d.index = i ∧ ∃ f, m.fields[i]? = some f ∧ Describes f d := by
  have hall := describe_forall₂ h
  obtain ⟨hi, rfl⟩ := List.getElem?_eq_some_iff.1 hd
  have hfi : i < m.fields.length := hall.length_eq ▸ hi
  refine ⟨?_, m.fields[i], List.getElem?_eq_getElem hfi, hall.get hfi hi⟩
  have hindex : (ds.map (·.index))[i]? = some i := by
    rw [describe_indices h, List.getElem?_range hi]
  rw [List.getElem?_map, hd] at hindex
  exact Option.some.inj hindex

/-- The position of the key is that of the descriptor that is flagged so. -/
theorem keyIndex?_eq_some_iff (h : m.describe = .ok ds) {i : Nat} :
    m.keyIndex? = some i ↔ ∃ d, ds[i]? = some d ∧ d.tag.isKey = true := by
  have hall := describe_forall₂ h
  rw [keyIndex?, List.findIdx?_eq_some_iff_getElem]
  constructor
  · rintro ⟨hi, hkey, -⟩
    have hdi : i < ds.length := hall.length_eq ▸ hi
    exact ⟨ds[i], List.getElem?_eq_getElem hdi, (hall.get hi hdi).isKey_eq.symm.trans hkey⟩
  · rintro ⟨d, hd, hkey⟩
    obtain ⟨hdi, rfl⟩ := List.getElem?_eq_some_iff.1 hd
    have hi : i < m.fields.length := hall.length_eq ▸ hdi
    refine ⟨hi, (hall.get hi hdi).isKey_eq.trans hkey, fun j hji hjkey => ?_⟩
    have hj : j < m.fields.length := Nat.lt_trans hji hi
    have hdj : j < ds.length := hall.length_eq ▸ hj
    -- There is one key, and so one position of it.
    have heq : ds[j] = ds[i] := describe_key_unique h (List.getElem_mem hdj) (List.getElem_mem hdi)
      ((hall.get hj hdj).isKey_eq.symm.trans hjkey) hkey
    have hindex := congrArg (·.index) heq
    rw [(describes_of_getElem? h (List.getElem?_eq_getElem hdj)).1,
      (describes_of_getElem? h hd).1] at hindex
    exact Nat.ne_of_lt hji hindex

/-- A model is described exactly when it is well declared. The descriptors stand at the positions of
their fields, and the one that is a key stands at the position of the key. The error is otherwise
that of the first field that offends, and of the first of its faults. -/
theorem describe_verdict (m : EntityModel n) :
    ((∃ ds, m.describe = .ok ds) ↔ m.WellDeclared) ∧
    (∀ ds, m.describe = .ok ds → ds.length = m.fields.length ∧
      (∀ i d, ds[i]? = some d → d.index = i ∧ ∃ f, m.fields[i]? = some f ∧ Describes f d) ∧
      ∀ i, m.keyIndex? = some i ↔ ∃ d, ds[i]? = some d ∧ d.tag.isKey = true) ∧
    ∀ e, m.describe = .error e →
      (m.fields = [] ∧ e = .noFields m.name ∧ e.errorClass = .invalidArgument) ∨
      ∃ index f fault, m.fields[index]? = some f ∧ f.Offends (m.fields.take index) fault ∧
        e = .malformedTag m.name f.tag fault ∧ e.errorClass = .malformedTag ∧
        (∀ other, f.Offends (m.fields.take index) other → fault.rank ≤ other.rank) ∧
        ∀ before < index, ∀ other, ¬ OffendsAt m.fields before other := by
  refine ⟨⟨?_, fun h => ?_⟩, fun ds hds => ⟨?_, ?_, ?_⟩, fun e he => ?_⟩
  · rintro ⟨ds, hds⟩
    have hne : m.fields ≠ [] := by
      rintro hnil
      simp [describe, hnil] at hds
    have hverdict := verdict_of_describe hne
    rw [hds] at hverdict
    exact wellDeclared_iff.2 ⟨hne, fun index fault => hverdict index fault (Nat.zero_le _)⟩
  · obtain ⟨hne, hfree⟩ := wellDeclared_iff.1 h
    have hverdict := verdict_of_describe hne
    cases hds : m.describe with
    | ok ds => exact ⟨ds, rfl⟩
    | error e =>
        rw [hds] at hverdict
        obtain ⟨index, f, fault, -, -, hoffends, -⟩ := hverdict
        exact absurd hoffends (hfree index fault)
  · exact (describe_forall₂ hds).length_eq.symm
  · exact fun i d => describes_of_getElem? hds
  · exact fun i => keyIndex?_eq_some_iff hds
  · by_cases hnil : m.fields = []
    · left
      simp only [describe, hnil, List.isEmpty_nil, if_true] at he
      cases he
      exact ⟨hnil, rfl, rfl⟩
    · right
      have hverdict := verdict_of_describe hnil
      rw [he] at hverdict
      obtain ⟨index, f, fault, -, hf, ⟨g, hg, hoffends⟩, rfl, hfirst, hbefore⟩ := hverdict
      cases hf.symm.trans hg
      exact ⟨index, f, fault, hf, hoffends, rfl, rfl,
        fun other hother => hfirst other ⟨f, hf, hother⟩,
        fun before hlt other => hbefore before other (Nat.zero_le _) hlt⟩

end EntityModel

end EntityMapper
