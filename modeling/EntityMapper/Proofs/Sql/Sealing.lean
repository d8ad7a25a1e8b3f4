import EntityMapper.Proofs.Sql.Parts
import EntityMapper.Proofs.Storage.Fields

/-!
# Data never changes the structure of a statement

Two records of one model with the same nil columns yield statements of one frame: the columns that
a statement names follow from the description of the model and from which columns are nil
(`Bound.assignments_columns`, `Bound.keyClause_column`). As no token spans two parts of a
statement, the statements then differ in the tokens of their literals only.
-/

namespace EntityMapper

open Sql

variable {n : Nat} {c : Catalog n} {k : Fin n}

/-- Whether the names that statements about a model and its links are made of hold no backquote. -/
def Models.PlainNames (ms : Models n) (k : Fin n) : Prop :=
  PlainName (ms.model k).table ∧ ∀ f ∈ (ms.model k).fields, ∀ relation ∈ f.type.classify.relation,
    PlainName f.name ∧ PlainName (ms.model relation.model).table

instance (ms : Models n) (k : Fin n) : Decidable (ms.PlainNames k) := by
  unfold Models.PlainNames; infer_instance

/-- The name of a link table holds no backquote where those it is put together from hold none. -/
theorem Models.plain_linkTable_iff {ms : Models n} {r : Relation n} :
    PlainName (ms.linkTable r) ↔ PlainName (ms.model r.owner).table ∧ PlainName r.field ∧
      PlainName (ms.model r.dependency).table := by
  have htwo : PlainName "2" := by decide
  simp only [PlainName, linkTable, String.toList_append, List.mem_append, not_or, and_assoc] at *
  tauto

/-- The name of a column holds no backquote. -/
theorem FieldTag.plainName (tag : FieldTag) : PlainName tag.name := by
  intro hmem
  have hchars := List.all_eq_true.1 tag.name_chars '`' hmem
  revert hchars
  decide

/-! ## Assigned columns -/

namespace Bound

variable {b b₁ b₂ : Bound c k}

/-- The columns of a record that are nil. -/
def nilColumns (b : Bound c k) : List String :=
  (b.stored.filter (·.value.isNil)).map (·.column)

/-- A stored field is nil exactly when its column is among the nil columns. -/
theorem isNil_iff {f : Field c} (hf : f ∈ b.stored) :
    f.value.isNil = true ↔ f.column ∈ b.nilColumns := by
  refine ⟨fun h => List.mem_map_of_mem (List.mem_filter.2 ⟨hf, h⟩), fun h => ?_⟩
  obtain ⟨g, hg, hcolumn⟩ := List.mem_map.1 h
  obtain ⟨hg, hnil⟩ := List.mem_filter.1 hg
  have hstored : ∀ {g}, g ∈ b.stored → g ∈ b.fields := List.mem_of_mem_filter
  obtain rfl : g = f :=
    List.inj_on_of_nodup_map b.columns_nodup (hstored hg) (hstored hf) hcolumn
  exact hnil

/-- The columns assigned from a choice of the stored fields follow from their descriptors and from
which columns are nil. -/
theorem assigned_columns {p : Descriptor n → Bool} {as : List Assignment}
    (h : assignments (b.stored.filter fun f => p f.descriptor) = .ok as) :
    as.map (·.column) = (((b.stored.map (·.descriptor)).filter p).map (·.column)).filter
      (· ∉ b.nilColumns) := by
  have hnil : ∀ f ∈ b.stored.filter (fun f => p f.descriptor),
      (!f.value.isNil) = decide (f.column ∉ b.nilColumns) := by
    intro f hf
    have hiff := isNil_iff (List.mem_of_mem_filter hf)
    by_cases hcolumn : f.column ∈ b.nilColumns
    · simp [hcolumn, hiff.2 hcolumn]
    · have hvalue : f.value.isNil = false := by simpa [hcolumn] using hiff
      simp [hcolumn, hvalue]
  rw [assignments_columns h, List.filter_congr hnil, List.filter_map, List.filter_map,
    List.filter_map, List.map_map]
  rfl

/-- Records of one model with the same nil columns assign the same columns. -/
theorem assigned_columns_eq {p : Descriptor n → Bool} {as bs : List Assignment}
    (hnil : b₁.nilColumns = b₂.nilColumns)
    (h₁ : assignments (b₁.stored.filter fun f => p f.descriptor) = .ok as)
    (h₂ : assignments (b₂.stored.filter fun f => p f.descriptor) = .ok bs) :
    as.map (·.column) = bs.map (·.column) := by
  rw [assigned_columns h₁, assigned_columns h₂, stored_descriptors, stored_descriptors,
    descriptors_eq b₁ b₂, hnil]

/-- The clause that addresses a row names the key column of the description. -/
theorem keyClause_column {key : Assignment} (h : b.keyClause = .ok key) :
    some key.column = (b.descriptors.find? (·.tag.isKey)).map (·.column) := by
  unfold keyClause at h
  rw [← b.fields_descriptors, List.find?_map]
  split at h
  · cases h
  · rename_i f hf
    obtain ⟨literal, -, h⟩ := bind_eq_ok.1 h
    cases h
    change b.fields.find? ((·.tag.isKey) ∘ (·.descriptor)) = some f at hf
    rw [hf]
    rfl

/-- Records of one model are addressed by the same column. -/
theorem keyClause_column_eq {key₁ key₂ : Assignment} (h₁ : b₁.keyClause = .ok key₁)
    (h₂ : b₂.keyClause = .ok key₂) : key₁.column = key₂.column := by
  have hcolumn := (keyClause_column h₁).trans
    (descriptors_eq b₁ b₂ ▸ (keyClause_column h₂).symm)
  exact Option.some.inj hcolumn

/-- Assigned columns hold no backquote. -/
theorem plain_assignments {fs : List (Field c)} {as : List Assignment}
    (h : assignments fs = .ok as) : ∀ a ∈ as, PlainName a.column := by
  intro a ha
  have hcolumn : a.column ∈ as.map (·.column) := List.mem_map_of_mem ha
  rw [assignments_columns h] at hcolumn
  obtain ⟨f, -, hf⟩ := List.mem_map.1 hcolumn
  exact hf ▸ f.descriptor.tag.plainName

/-- The column that addresses a row holds no backquote. -/
theorem plain_keyClause {key : Assignment} (h : b.keyClause = .ok key) : PlainName key.column := by
  obtain ⟨d, -, hcolumn⟩ := Option.map_eq_some_iff.1 (keyClause_column h).symm
  exact hcolumn ▸ d.tag.plainName

/-- Link tables of a model with plain names hold no backquote. -/
theorem plain_linkTable (hplain : c.PlainNames k) {f : Field c} (hf : f ∈ b.fields)
    {table : String} (h : b.linkTable f = .ok table) : PlainName table := by
  obtain ⟨field, hfield, hdescribes⟩ :=
    EntityModel.describes_of_mem b.described (descriptor_mem _ hf)
  unfold linkTable at h
  split at h
  · rename_i relation hrelation
    cases h
    obtain ⟨type, htype, rfl⟩ := Option.map_eq_some_iff.1 hrelation
    rw [hdescribes.type_eq] at htype
    rw [hdescribes.name_eq]
    exact Models.plain_linkTable_iff.2 ⟨hplain.1, hplain.2 field hfield type htype⟩
  · cases h

/-! ## Statements about two records -/

/-- Whether two built statements, where both are built, have the same tokens at every position but
those of the literals, and each literal is one token. -/
def SealedAlike (mode : BackslashMode) (x y : Except MapperError Statement) : Prop :=
  ∀ s t, x = .ok s → y = .ok t →
    (tokens mode s.text).length = (tokens mode t.text).length ∧
      SameBut (tokens mode s.text) s.literals (tokens mode t.text) t.literals

variable {mode : BackslashMode}

/-- Statements that are plain and of one frame whenever they are built are sealed alike. -/
theorem sealedAlike_of_frame {x y : Except MapperError Statement}
    (h : ∀ s t, x = .ok s → y = .ok t → s.Plain ∧ t.Plain ∧ s.frame = t.frame) :
    SealedAlike mode x y := by
  intro s t hs ht
  obtain ⟨hsPlain, htPlain, hframe⟩ := h s t hs ht
  have hsame : SameBut (tokens mode s.text) s.literals (tokens mode t.text) t.literals :=
    Statement.sameBut hsPlain htPlain hframe
  exact ⟨hsame.length_eq, hsame⟩

theorem insertRow_alike (hplain : c.PlainNames k) (hnil : b₁.nilColumns = b₂.nilColumns) :
    SealedAlike mode b₁.insertRow b₂.insertRow := by
  apply sealedAlike_of_frame
  intro s t hs ht
  obtain ⟨as, has, hs⟩ := bind_eq_ok.1 hs
  obtain ⟨bs, hbs, ht⟩ := bind_eq_ok.1 ht
  cases hs
  cases ht
  refine ⟨⟨hplain.1, plain_assignments has⟩, ⟨hplain.1, plain_assignments hbs⟩, ?_⟩
  exact Statement.frame_insertRow (assigned_columns_eq (p := (!·.tag.isAuto)) hnil has hbs)

/-- An update that is built assigns the updatable columns and addresses the row by its key. -/
theorem updateRow_ok {b : Bound c k} {s : Statement} (h : b.updateRow = .ok s) :
    ∃ as key, assignments b.updatable = .ok as ∧ b.keyClause = .ok key ∧
      s = .updateRow b.table as key := by
  obtain ⟨key, hkey, h⟩ := bind_eq_ok.1 h
  obtain ⟨as, has, h⟩ := bind_eq_ok.1 h
  dsimp only at h
  split at h
  · cases h
  · exact ⟨as, key, has, hkey, (Except.ok.inj h).symm⟩

theorem updateRow_alike (hplain : c.PlainNames k) (hnil : b₁.nilColumns = b₂.nilColumns) :
    SealedAlike mode b₁.updateRow b₂.updateRow := by
  apply sealedAlike_of_frame
  intro s t hs ht
  obtain ⟨as, key₁, has, hkey₁, rfl⟩ := updateRow_ok hs
  obtain ⟨bs, key₂, hbs, hkey₂, rfl⟩ := updateRow_ok ht
  refine ⟨⟨hplain.1, plain_assignments has, plain_keyClause hkey₁⟩,
    ⟨hplain.1, plain_assignments hbs, plain_keyClause hkey₂⟩, ?_⟩
  exact Statement.frame_updateRow (assigned_columns_eq (p := (!·.tag.isKey)) hnil has hbs)
    (keyClause_column_eq hkey₁ hkey₂)

theorem deleteRow_alike (hplain : c.PlainNames k) :
    SealedAlike mode b₁.deleteRow b₂.deleteRow := by
  apply sealedAlike_of_frame
  intro s t hs ht
  obtain ⟨key₁, hkey₁, hs⟩ := bind_eq_ok.1 hs
  obtain ⟨key₂, hkey₂, ht⟩ := bind_eq_ok.1 ht
  cases hs
  cases ht
  refine ⟨⟨hplain.1, plain_keyClause hkey₁⟩, ⟨hplain.1, plain_keyClause hkey₂⟩, ?_⟩
  have hcolumn := keyClause_column_eq hkey₁ hkey₂
  simp [Statement.frame, Statement.parts, Assignment.parts, Part.frame, hcolumn, table]

theorem selectRow_alike (hplain : c.PlainNames k) :
    SealedAlike mode b₁.selectRow b₂.selectRow := by
  apply sealedAlike_of_frame
  intro s t hs ht
  obtain ⟨key₁, hkey₁, hs⟩ := bind_eq_ok.1 hs
  obtain ⟨key₂, hkey₂, ht⟩ := bind_eq_ok.1 ht
  cases hs
  cases ht
  have hstored : ∀ b : Bound c k, ∀ column ∈ b.stored.map (·.column), PlainName column := by
    intro b column hcolumn
    obtain ⟨f, -, rfl⟩ := List.mem_map.1 hcolumn
    exact f.descriptor.tag.plainName
  refine ⟨⟨hplain.1, hstored b₁, plain_keyClause hkey₁⟩,
    ⟨hplain.1, hstored b₂, plain_keyClause hkey₂⟩, ?_⟩
  have hcolumn := keyClause_column_eq hkey₁ hkey₂
  have hcolumns : b₁.stored.map (·.column) = b₂.stored.map (·.column) := by
    have hdescriptors : b₁.stored.map (·.descriptor) = b₂.stored.map (·.descriptor) := by
      rw [stored_descriptors, stored_descriptors, descriptors_eq b₁ b₂]
    have hmapped := congrArg (List.map (·.column)) hdescriptors
    rw [List.map_map, List.map_map] at hmapped
    exact hmapped
  simp [Statement.frame, Statement.parts, Assignment.parts, Part.frame, hcolumn, hcolumns, table]

/-! ## Statements about links -/

section Links

variable {f₁ f₂ : Field c}

/-- Fields of one descriptor have one link table. -/
theorem linkTable_eq {table₁ table₂ : String} (hfields : f₁.descriptor = f₂.descriptor)
    (h₁ : b₁.linkTable f₁ = .ok table₁) (h₂ : b₂.linkTable f₂ = .ok table₂) :
    table₁ = table₂ := by
  unfold linkTable at h₁ h₂
  rw [hfields] at h₁
  cases hrelation : f₂.descriptor.relation? k with
  | none =>
      rw [hrelation] at h₁
      cases h₁
  | some relation =>
      rw [hrelation] at h₁ h₂
      cases h₁
      cases h₂
      rfl

/-- Statements about one link table that differ in literals only are sealed alike. -/
theorem sealedAlike_of_linkTable (hplain : c.PlainNames k) (hf₁ : f₁ ∈ b₁.fields)
    (hfields : f₁.descriptor = f₂.descriptor)
    {x y : Except MapperError Statement} {α : Type} {statement : String → α → Statement}
    (hx : ∀ s, x = .ok s → ∃ table l, b₁.linkTable f₁ = .ok table ∧ s = statement table l)
    (hy : ∀ t, y = .ok t → ∃ table l, b₂.linkTable f₂ = .ok table ∧ t = statement table l)
    (hstatement : ∀ table, PlainName table → ∀ l m, (statement table l).Plain ∧
      (statement table l).frame = (statement table m).frame) :
    SealedAlike mode x y := by
  apply sealedAlike_of_frame
  intro s t hs ht
  obtain ⟨table, l, htable, rfl⟩ := hx s hs
  obtain ⟨table', m, htable', rfl⟩ := hy t ht
  obtain rfl := linkTable_eq hfields htable htable'
  have hname := plain_linkTable hplain hf₁ htable
  exact ⟨(hstatement table hname l m).1, (hstatement table hname m l).1,
    (hstatement table hname l m).2⟩

/-- A statement that links two records names the link table and the two keys. -/
theorem insertLink_ok {f : Field c} {b : Bound c k} {related : Record c} {s : Statement}
    (h : b.insertLink f related = .ok s) :
    ∃ table keys, b.linkTable f = .ok table ∧
      s = (fun t (keys : Literal × Literal) => .insertLink t keys.1 keys.2) table keys := by
  obtain ⟨table, htable, h⟩ := bind_eq_ok.1 h
  obtain ⟨left, -, h⟩ := bind_eq_ok.1 h
  obtain ⟨right, -, h⟩ := bind_eq_ok.1 h
  exact ⟨table, (left, right), htable, (Except.ok.inj h).symm⟩

/-- A statement that removes a link names the link table and the two keys. -/
theorem deleteLink_ok {f : Field c} {b : Bound c k} {related : Record c} {s : Statement}
    (h : b.deleteLink f related = .ok s) :
    ∃ table keys, b.linkTable f = .ok table ∧
      s = (fun t (keys : Literal × Literal) => .deleteLink t keys.1 keys.2) table keys := by
  obtain ⟨table, htable, h⟩ := bind_eq_ok.1 h
  obtain ⟨left, -, h⟩ := bind_eq_ok.1 h
  obtain ⟨right, -, h⟩ := bind_eq_ok.1 h
  exact ⟨table, (left, right), htable, (Except.ok.inj h).symm⟩

/-- A statement that removes all links of a field names the link table and the owner's key. -/
theorem clearLinks_ok {f : Field c} {b : Bound c k} {s : Statement} (h : b.clearLinks f = .ok s) :
    ∃ table left, b.linkTable f = .ok table ∧ s = .clearLinks table left := by
  obtain ⟨table, htable, h⟩ := bind_eq_ok.1 h
  obtain ⟨left, -, h⟩ := bind_eq_ok.1 h
  exact ⟨table, left, htable, (Except.ok.inj h).symm⟩

/-- A statement that selects the links of a field names the link table and the owner's key. -/
theorem selectLinks_ok {f : Field c} {b : Bound c k} {s : Statement}
    (h : b.selectLinks f = .ok s) :
    ∃ table left, b.linkTable f = .ok table ∧ s = .selectLinks table left := by
  obtain ⟨table, htable, h⟩ := bind_eq_ok.1 h
  obtain ⟨left, -, h⟩ := bind_eq_ok.1 h
  exact ⟨table, left, htable, (Except.ok.inj h).symm⟩

end Links

/-- Two records of a described model with plain names and the same nil columns, whatever else they
hold and whatever records are related to them, yield statements with the same tokens but for the
literals, under both readings of the backslash. -/
theorem statements_sealed (mode : BackslashMode) (b₁ b₂ : Bound c k) (hplain : c.PlainNames k)
    (hnil : b₁.nilColumns = b₂.nilColumns) :
    SealedAlike mode b₁.insertRow b₂.insertRow ∧
      SealedAlike mode b₁.updateRow b₂.updateRow ∧
      SealedAlike mode b₁.deleteRow b₂.deleteRow ∧
      SealedAlike mode b₁.selectRow b₂.selectRow ∧
      ∀ f₁ ∈ b₁.fields, ∀ f₂ ∈ b₂.fields, f₁.descriptor = f₂.descriptor →
        ∀ related₁ related₂ : Record c,
          SealedAlike mode (b₁.insertLink f₁ related₁) (b₂.insertLink f₂ related₂) ∧
          SealedAlike mode (b₁.deleteLink f₁ related₁) (b₂.deleteLink f₂ related₂) ∧
          SealedAlike mode (b₁.clearLinks f₁) (b₂.clearLinks f₂) ∧
          SealedAlike mode (b₁.selectLinks f₁) (b₂.selectLinks f₂) := by
  refine ⟨insertRow_alike hplain hnil, updateRow_alike hplain hnil, deleteRow_alike hplain,
    selectRow_alike hplain, ?_⟩
  intro f₁ hf₁ f₂ _ hfields related₁ related₂
  refine ⟨?_, ?_, ?_, ?_⟩
  · exact sealedAlike_of_linkTable hplain hf₁ hfields (fun s => insertLink_ok)
      (fun t => insertLink_ok) fun table htable l m => ⟨htable, rfl⟩
  · exact sealedAlike_of_linkTable hplain hf₁ hfields (fun s => deleteLink_ok)
      (fun t => deleteLink_ok) fun table htable l m => ⟨htable, rfl⟩
  · exact sealedAlike_of_linkTable hplain hf₁ hfields (fun s => clearLinks_ok)
      (fun t => clearLinks_ok) fun table htable l m => ⟨htable, rfl⟩
  · exact sealedAlike_of_linkTable hplain hf₁ hfields (fun s => selectLinks_ok)
      (fun t => selectLinks_ok) fun table htable l m => ⟨htable, rfl⟩

end Bound

/-- Notes that may refer to the note after them. -/
def memos : Catalog 1 where
  model _ :=
    { ident := "Memo", path := "memo", explicitName := none
      fields := [⟨"id", "id key", .integer .int64⟩, ⟨"body", "body", .text⟩,
        ⟨"next", "next", .nullable (.boxed (.entity 0))⟩]
      offered := none }
  rank _ := 0
  rank_lt := by decide +kernel

/-- The description of notes. -/
def memoDescriptors : List (Descriptor 1) :=
  [⟨0, "id", ⟨"id", true, false, FieldTag.id_ne, FieldTag.id_chars⟩, .scalar (.integer .int64)⟩,
    ⟨1, "body", ⟨"body", false, false, by decide, by decide⟩, .scalar .text⟩,
    ⟨2, "next", ⟨"next", false, false, by decide, by decide⟩,
      ⟨.record, true, true, some ⟨0, true⟩⟩⟩]

/-- A note without a successor. -/
def memo (id : Int) (hid : IntegerKind.int64.Holds id) (body : String) : Bound memos 0 where
  columns := .cons (.integer id hid) (.cons (.text body) (.cons .absent .nil))
  descriptors := memoDescriptors
  described := by decide +kernel

/-- A note whose text is made to break out of its quotes. -/
def hostileMemo : Bound memos 0 := memo (-2) (by decide) "'; DROP TABLE `memo` -- \\"

/-- The statements about a hostile note have the structure of those about a harmless one: the
insertion, which is built for both, and the links to any other notes. -/
theorem hostileMemo_sealed :
    memos.PlainNames 0 ∧ (memo 1 (by decide) "a").nilColumns = hostileMemo.nilColumns ∧
      (memo 1 (by decide) "a").insertRow
        = .ok (.insertRow "memo_Memo" [⟨"id", .integer 1⟩, ⟨"body", .string "a"⟩]) ∧
      hostileMemo.insertRow = .ok (.insertRow "memo_Memo"
        [⟨"id", .integer (-2)⟩, ⟨"body", .string "'; DROP TABLE `memo` -- \\"⟩]) ∧
      Bound.SealedAlike .escapes (memo 1 (by decide) "a").insertRow hostileMemo.insertRow ∧
      ∃ f ∈ (memo 1 (by decide) "a").fields, ∃ g ∈ hostileMemo.fields,
        f.descriptor = g.descriptor ∧ f.descriptor.isColumn = false ∧
          ∀ related₁ related₂ : Record memos, Bound.SealedAlike .ordinary
            ((memo 1 (by decide) "a").insertLink f related₁)
            (hostileMemo.insertLink g related₂) := by
  have hplain : memos.PlainNames 0 := by decide +kernel
  have hnil : (memo 1 (by decide) "a").nilColumns = hostileMemo.nilColumns := by decide +kernel
  have hsealed := fun mode =>
    Bound.statements_sealed mode (memo 1 (by decide) "a") hostileMemo hplain hnil
  refine ⟨hplain, hnil, by decide +kernel, by decide +kernel, (hsealed .escapes).1, ?_⟩
  have hf : (⟨memoDescriptors[2], _, .absent⟩ : Field memos) ∈ (memo 1 (by decide) "a").fields :=
    .tail _ (.tail _ (.head _))
  have hg : (⟨memoDescriptors[2], _, .absent⟩ : Field memos) ∈ hostileMemo.fields :=
    .tail _ (.tail _ (.head _))
  exact ⟨_, hf, _, hg, rfl, by decide, fun related₁ related₂ =>
    ((hsealed .ordinary).2.2.2.2 _ hf _ hg rfl related₁ related₂).1⟩

end EntityMapper
