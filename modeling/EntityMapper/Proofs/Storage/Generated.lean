import EntityMapper.Proofs.Storage.Family
import EntityMapper.Proofs.Storage.Stored
import EntityMapper.Session.Write

/-!
# Generated keys

An assignment changes one field and leaves the others (`Columns.forall₂_assignAt`). After the row of
a record is inserted, its generated key holds the id that the database answered, and nothing else of
the record has changed (`Session.captureKey_fields`), so it has the relations and the insertion that
it had before.
-/

namespace EntityMapper

variable {n : Nat} {c : Catalog n} {k : Fin n} {α β : Type}

/-! ## Assigned fields -/

/-- Whether a field is what assigning a value makes of another one. -/
def Field.Becomes (v : Value) (f g : Field c) : Prop :=
  ∃ cell, f.cell.assign v = .ok cell ∧ g = { f with cell }

/-- Assigning to the column at a position changes the field at that position and no other. -/
theorem Columns.forall₂_assignAt {ts : List (ColumnType n)} {columns columns' : Columns c ts}
    {index start : Nat} {v : Value} {ds : List (Descriptor n)}
    (h : columns.assignAt index v = .ok columns')
    (hindices : ds.map (·.index) = List.range' start ds.length) :
    List.Forall₂ (fun f g => if f.descriptor.index = start + index then f.Becomes v g else g = f)
      (columns.fields ds) (columns'.fields ds) := by
  induction ts generalizing index start ds with
  | nil =>
      cases columns
      cases h
  | cons t ts ih =>
      cases columns with
      | cons cell cells =>
          cases ds with
          | nil =>
              cases columns'
              exact .nil
          | cons d ds =>
              rw [List.map_cons, List.length_cons, List.range'_succ] at hindices
              obtain ⟨hindex, hindices⟩ := List.cons.inj hindices
              have hindex : d.index = start := hindex
              cases index with
              | zero =>
                  obtain ⟨cell', hcell, h⟩ := bind_eq_ok.1 h
                  cases h
                  rw [Nat.add_zero]
                  refine .cons ?_ (List.forall₂_same.2 fun f hf => ?_)
                  · rw [if_pos hindex]
                    exact ⟨cell', hcell, rfl⟩
                  -- the fields after the first one have later positions
                  rw [if_neg]
                  have hmem : f.descriptor.index ∈ ds.map (·.index) :=
                    List.mem_map_of_mem (cells.descriptor_mem hf)
                  rw [hindices] at hmem
                  have hrange := List.mem_range'_1.1 hmem
                  omega
              | succ index =>
                  obtain ⟨cells', hcells, h⟩ := bind_eq_ok.1 h
                  cases h
                  have hother : d.index ≠ start + (index + 1) := by omega
                  refine .cons (by rw [if_neg hother]) ?_
                  have hrest := ih hcells hindices
                  rwa [show start + 1 + index = start + (index + 1) by omega] at hrest

/-- Lists that differ only in items that a choice leaves out have the same choice. -/
theorem filter_eq_of_forall₂ {p : α → Bool} {xs ys : List α}
    (h : List.Forall₂ (fun x y => y = x ∨ (p x = false ∧ p y = false)) xs ys) :
    ys.filter p = xs.filter p := by
  induction h with
  | nil => rfl
  | cons hxy _ ih =>
      rcases hxy with rfl | ⟨hx, hy⟩
      · rw [List.filter_cons, List.filter_cons, ih]
      · rw [List.filter_cons_of_neg (Bool.eq_false_iff.1 hx),
          List.filter_cons_of_neg (Bool.eq_false_iff.1 hy), ih]

/-! ## Integer columns -/

/-- Only a field of a relational kind refers to a model. -/
theorem ColumnType.isRelation_kind {t : ColumnType n} {relation : RelationType n}
    (h : t.classify.relation = some relation) : t.classify.kind.isRelation = true := by
  induction t generalizing relation with
  | entity j => rfl
  | nullable t ih | boxed t ih =>
      obtain ⟨inner, hinner, -⟩ := Option.map_eq_some_iff.1 h
      exact ih hinner
  | list t =>
      rw [classify, FieldType.list] at h ⊢
      split at h
      · rfl
      · cases h
  | bool | integer | float | double | text | dateTime | raw => cases h

/-- A field of integers is no relation. -/
theorem Bound.isRelation_of_isAuto {b : Bound c k} {d : Descriptor n} (hd : d ∈ b.descriptors)
    (hauto : d.tag.isAuto = true) : d.type.isRelation = false := by
  have hinteger := (EntityModel.describe_flags b.described hd).1 hauto
  obtain ⟨f, -, hdescribes⟩ := EntityModel.describes_of_mem b.described hd
  rw [hdescribes.type_eq] at hinteger ⊢
  cases hrelation : f.type.classify.relation with
  | none => rw [FieldType.isRelation, hrelation]; rfl
  | some relation =>
      have hkind := ColumnType.isRelation_kind hrelation
      cases hvalue : f.type.classify.kind <;> rw [hvalue] at hkind hinteger <;> cases hkind <;>
        cases hinteger

/-- A content of an integer column that was built from an id is the id. -/
theorem Catalog.toInteger_of_build_uint {t : ColumnType n}
    (hinteger : t.classify.kind.isInteger = true) {id : UInt64} {cell : Cell c t}
    (h : c.build t (.uint id) = .ok cell) :
    cell.value.toInteger t.classify.kind = .ok id.toNat := by
  induction t with
  | integer kind =>
      rw [Catalog.build] at h
      obtain ⟨x, hx, h⟩ := bind_eq_ok.1 h
      cases h
      have hvalue : x.val = id.toNat := by
        obtain ⟨y, hy, hx⟩ := bind_eq_ok.1 hx
        cases hy
        split at hx
        · cases hx
          rfl
        · cases hx
      rw [← hvalue]
      exact Cell.value_toInteger x.property
  | nullable t ih =>
      have hnumber : ¬ (Value.uint id).isNil = true := Bool.false_ne_true
      rw [Catalog.build, if_neg hnumber] at h
      obtain ⟨inner, hinner, h⟩ := bind_eq_ok.1 h
      cases h
      exact ih hinteger hinner
  | boxed t ih =>
      rw [Catalog.build] at h
      obtain ⟨inner, hinner, h⟩ := bind_eq_ok.1 h
      cases h
      exact ih hinteger hinner
  | list t =>
      rw [ColumnType.classify, FieldType.list] at hinteger
      split at hinteger <;> cases hinteger
  | bool | float | double | text | dateTime | raw | entity => cases hinteger

/-- A content of an integer column to which an id was assigned is the id. -/
theorem Cell.toInteger_of_assign_uint {t : ColumnType n}
    (hinteger : t.classify.kind.isInteger = true) {id : UInt64} {cell cell' : Cell c t}
    (h : cell.assign (.uint id) = .ok cell') :
    cell'.value.toInteger t.classify.kind = .ok id.toNat := by
  induction t with
  | integer kind =>
      cases cell
      exact Catalog.toInteger_of_build_uint hinteger h
  | nullable t ih =>
      cases cell with
      | absent => exact Catalog.toInteger_of_build_uint hinteger h
      | present inner =>
          have hnumber : ¬ (Value.uint id).isNil = true := Bool.false_ne_true
          rw [Cell.assign, if_neg hnumber] at h
          obtain ⟨inner', hinner, h⟩ := bind_eq_ok.1 h
          cases h
          exact ih hinteger hinner
  | boxed t ih =>
      cases cell with
      | boxed inner =>
          obtain ⟨inner', hinner, h⟩ := bind_eq_ok.1 h
          cases h
          exact ih hinteger hinner
  | list t =>
      rw [ColumnType.classify, FieldType.list] at hinteger
      split at hinteger <;> cases hinteger
  | bool | float | double | text | dateTime | raw | entity => cases hinteger

/-! ## Captured keys -/

/-- Whether the database generates the key of which this is the field. -/
def Descriptor.isGenerated (d : Descriptor n) : Bool := d.tag.isKey && d.tag.isAuto

/-- Whether a field holds an id that the database answered, as a number of its own kind. -/
def Field.Holds (f : Field c) (id : UInt64) : Prop :=
  f.value.toInteger f.descriptor.type.kind = .ok id.toNat

/-- A field that is flagged as the key is the one that the record has for its key. -/
theorem Bound.key?_of_isKey {b : Bound c k} {f : Field c} (hf : f ∈ b.fields)
    (hkey : f.descriptor.tag.isKey = true) :
    ∃ key, b.key? = some key ∧ key.descriptor = f.descriptor := by
  cases hfound : b.key? with
  | none => exact absurd hkey (List.find?_eq_none.1 hfound f hf)
  | some key =>
      obtain ⟨hmem, hflag⟩ := Bound.key?_eq_some hfound
      exact ⟨key, rfl, EntityModel.describe_key_unique b.described (b.descriptor_mem hmem)
        (b.descriptor_mem hf) hflag hkey⟩

/-- Assigning at the position of the key changes the key and no other field. -/
theorem Bound.forall₂_assignKey {b : Bound c k} {d : Descriptor n} (hd : d ∈ b.descriptors)
    (hkey : d.tag.isKey = true) {v : Value} {columns : Columns c (c.model k).columnTypes}
    (h : b.columns.assignAt d.index v = .ok columns) :
    List.Forall₂ (fun f g => if f.descriptor.tag.isKey then f.Becomes v g else g = f)
      b.fields (columns.fields b.descriptors) := by
  have hindices := EntityModel.describe_indices b.described
  have hnodup : (b.descriptors.map (·.index)).Nodup := hindices ▸ List.nodup_range
  rw [List.range_eq_range'] at hindices
  have hassigned := Columns.forall₂_assignAt h hindices
  refine ((List.forall₂_and_left _ _).2 ⟨fun f hf => b.descriptor_mem hf, hassigned⟩).imp ?_
  rintro f g ⟨hf, hchange⟩
  rw [Nat.zero_add] at hchange
  by_cases hindex : f.descriptor.index = d.index
  · rw [if_pos hindex] at hchange
    rwa [List.inj_on_of_nodup_map hnodup hf hd hindex, if_pos hkey]
  · rw [if_neg hindex] at hchange
    rw [if_neg, hchange]
    intro hfKey
    exact hindex (by rw [EntityModel.describe_key_unique b.described hf hd hfKey hkey])

mutual

/-- A content with the generated keys of the records it holds, and of what they own, blanked. -/
def Cell.keyless : {t : ColumnType n} → Cell c t → Cell c t
  | .entity k, .entity columns => .entity (columns.keyless (c.model k).descriptors)
  | _, .present inner => .present inner.keyless
  | _, .boxed inner => .boxed inner.keyless
  | _, .list items => .list items.keyless
  | _, cell => cell

/-- The items of a list with the generated keys of the records they hold blanked. -/
def Items.keyless : {t : ColumnType n} → Items c t → Items c t
  | _, .nil => .nil
  | _, .cons item items => .cons item.keyless items.keyless

/-- The columns of a record with its generated key, and those of the records it owns, blanked. -/
def Columns.keyless : {ts : List (ColumnType n)} → Columns c ts → List (Descriptor n) → Columns c ts
  | _, .nil, _ => .nil
  | _, .cons cell cells, [] => .cons cell cells
  | t :: _, .cons cell cells, d :: ds =>
      .cons (if d.isGenerated then c.blank t
        else if t.classify.isOwnedRelation then cell.keyless else cell) (cells.keyless ds)

end

/-- A record with its generated key, and those of the records it owns, blanked. -/
def Record.keyless (r : Record c) : Record c :=
  ⟨r.model, r.columns.keyless (c.model r.model).descriptors⟩

/-- Columns that differ only in the generated key are the same but for it. -/
theorem Columns.keyless_eq {ts : List (ColumnType n)} {columns columns' : Columns c ts}
    {ds : List (Descriptor n)} {v : Value} (hlength : ds.length = ts.length)
    (h : List.Forall₂ (fun f g => if f.descriptor.isGenerated then f.Becomes v g else g = f)
      (columns.fields ds) (columns'.fields ds)) : columns'.keyless ds = columns.keyless ds := by
  induction ts generalizing ds with
  | nil =>
      cases columns
      cases columns'
      rfl
  | cons t ts ih =>
      cases columns with
      | cons cell cells =>
          cases columns' with
          | cons cell' cells' =>
              cases ds with
              | nil => cases hlength
              | cons d ds =>
                  obtain ⟨hcell, hcells⟩ := List.forall₂_cons.1 h
                  rw [keyless, keyless, ih (Nat.succ.inj hlength) hcells]
                  cases hgenerated : d.isGenerated with
                  | true => rfl
                  | false =>
                      rw [if_neg (Bool.eq_false_iff.1 hgenerated)] at hcell
                      cases hcell
                      rfl

namespace Session

variable {b captured : Bound c k} {id : UInt64}

/-- Capturing a key assigns the id to the generated key, if the model has one. -/
theorem captureKey_fields (h : captureKey b id = .ok captured) :
    List.Forall₂ (fun f g => if f.descriptor.isGenerated then f.Becomes (.uint id) g else g = f)
      b.fields captured.fields := by
  -- Where the key is not generated, no field is.
  have hplain : (∀ key ∈ b.key?, key.descriptor.tag.isAuto = false) →
      ∀ f ∈ b.fields, f.descriptor.isGenerated = false := by
    intro hkey f hf
    by_contra hgenerated
    obtain ⟨hisKey, hisAuto⟩ := Bool.and_eq_true_iff.1 (Bool.eq_true_of_not_eq_false hgenerated)
    obtain ⟨key, hfound, hsame⟩ := Bound.key?_of_isKey hf hisKey
    rw [← hsame, hkey key hfound] at hisAuto
    cases hisAuto
  have hunchanged : (∀ key ∈ b.key?, key.descriptor.tag.isAuto = false) → captured = b →
      List.Forall₂ (fun f g => if f.descriptor.isGenerated then f.Becomes (.uint id) g else g = f)
        b.fields captured.fields := by
    rintro hkey rfl
    refine List.forall₂_same.2 fun f hf => ?_
    rw [hplain hkey f hf]
    rfl
  unfold captureKey at h
  split at h
  · rename_i key hkey
    obtain ⟨hkeyField, hisKey⟩ := Bound.key?_eq_some hkey
    have hkeyMem := b.descriptor_mem hkeyField
    split at h
    · rename_i hauto
      obtain ⟨columns, hassign, rfl⟩ : ∃ columns, b.columns.assignAt key.descriptor.index
          (.uint id) = .ok columns ∧ captured = { b with columns } := by
        unfold Bound.assignAt at h
        cases hassign : b.columns.assignAt key.descriptor.index (.uint id) with
        | error e =>
            rw [hassign] at h
            cases h
        | ok columns =>
            rw [hassign] at h
            cases h
            exact ⟨columns, rfl, rfl⟩
      refine ((List.forall₂_and_left _ _).2 ⟨fun f hf => b.descriptor_mem hf,
        Bound.forall₂_assignKey hkeyMem hisKey hassign⟩).imp ?_
      rintro f g ⟨hf, hchange⟩
      by_cases hfKey : f.descriptor.tag.isKey = true
      · have hsame := EntityModel.describe_key_unique b.described hf hkeyMem hfKey hisKey
        rw [if_pos hfKey] at hchange
        rwa [hsame, Descriptor.isGenerated, hisKey, hauto]
      · rw [if_neg hfKey] at hchange
        rw [if_neg, hchange]
        exact fun hgenerated => hfKey (Bool.and_eq_true_iff.1 hgenerated).1
    · rename_i hauto
      refine hunchanged (fun key' hkey' => ?_) (Except.ok.inj h).symm
      obtain rfl := Option.some.inj (hkey.symm.trans hkey')
      simpa using hauto
  · rename_i hkey
    exact hunchanged (fun key' hkey' => nomatch hkey.symm.trans hkey') (Except.ok.inj h).symm

/-- Capturing a key leaves every choice of fields alone that leaves out generated ones. -/
theorem captureKey_filter (h : captureKey b id = .ok captured) {p : Descriptor n → Bool}
    (hp : ∀ d ∈ b.descriptors, d.isGenerated = true → p d = false) :
    captured.fields.filter (p ·.descriptor) = b.fields.filter (p ·.descriptor) := by
  refine filter_eq_of_forall₂ (((List.forall₂_and_left _ _).2
    ⟨fun f hf => b.descriptor_mem hf, captureKey_fields h⟩).imp ?_)
  rintro f g ⟨hf, hchange⟩
  split at hchange
  · rename_i hgenerated
    obtain ⟨cell, -, rfl⟩ := hchange
    exact .inr ⟨hp _ hf hgenerated, hp _ hf hgenerated⟩
  · exact .inl hchange

/-- Capturing a key leaves the relations of a record alone. -/
theorem captureKey_relations (h : captureKey b id = .ok captured) :
    captured.relations = b.relations :=
  captureKey_filter h fun _ hd hgenerated =>
    Bound.isRelation_of_isAuto hd (Bool.and_eq_true_iff.1 hgenerated).2

/-- Capturing a key leaves what a record brings along alone. -/
theorem captureKey_family (h : captureKey b id = .ok captured) :
    captured.columns.family = b.columns.family := by
  rw [Columns.family_eq, Columns.family_eq, captured.owned_eq, b.owned_eq, captureKey_relations h]

/-- Capturing a key changes nothing but the generated key. -/
theorem captureKey_keyless (h : captureKey b id = .ok captured) :
    captured.columns.keyless b.descriptors = b.columns.keyless b.descriptors := by
  have hfields := captureKey_fields h
  rw [Bound.fields, Bound.fields, Bound.descriptors_eq captured b] at hfields
  exact Columns.keyless_eq b.descriptors_length hfields

/-- Capturing a key leaves the insertion of a record alone. -/
theorem captureKey_insertRow (h : captureKey b id = .ok captured) :
    captured.insertRow = b.insertRow := by
  have hstored : captured.stored.filter (!·.descriptor.tag.isAuto)
      = b.stored.filter (!·.descriptor.tag.isAuto) := by
    rw [Bound.stored, Bound.stored, List.filter_filter, List.filter_filter]
    refine captureKey_filter h (p := fun d => !d.tag.isAuto && d.isColumn) fun d _ hgenerated => ?_
    rw [(Bool.and_eq_true_iff.1 hgenerated).2]
    rfl
  rw [Bound.insertRow, Bound.insertRow, hstored]
  rfl

/-- After its key is captured, a record holds the id as its generated key. -/
theorem captureKey_holds (h : captureKey b id = .ok captured) {g : Field c}
    (hg : g ∈ captured.fields) (hgenerated : g.descriptor.isGenerated = true) : g.Holds id := by
  obtain ⟨f, hf, hchange⟩ := exists_of_forall₂ (captureKey_fields h) hg
  split at hchange
  · obtain ⟨cell, hassign, rfl⟩ := hchange
    have hinteger := (EntityModel.describe_flags b.described (b.descriptor_mem hf)).1
      (Bool.and_eq_true_iff.1 hgenerated).2
    have htype : f.descriptor.type = f.type.classify := b.columns.field_type b.types_eq hf
    rw [htype] at hinteger
    rw [Field.Holds, htype]
    exact Cell.toInteger_of_assign_uint hinteger hassign
  · rename_i hplain
    rw [hchange] at hgenerated
    exact absurd hgenerated hplain

end Session

end EntityMapper
