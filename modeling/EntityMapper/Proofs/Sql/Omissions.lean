import EntityMapper.Proofs.Sql.Identifiers
import EntityMapper.Proofs.Storage.Ranges

/-!
# Columns that an insertion leaves out

An insertion leaves out the columns that the database numbers and those of nil pointers. The
definition of a table declares every column as NOT NULL and none with a default, whatever the type
of its field, so the columns that the database numbers are the only ones that can be left out by
their declarations (`ColumnDeclaration.canBeOmitted_iff`). All that an insertion leaves out can be
left out exactly when no pointer is nil but those to numbers of the database
(`Bound.omissions_iff`).
-/

namespace EntityMapper

open Sql

variable {n : Nat} {c : Catalog n} {k : Fin n} {mode : BackslashMode}

/-! ## Declarations -/

namespace Sql

/-- The text of a word. -/
def Token.word? (t : Token) : Option String :=
  match t.kind with
  | .word => some t.text
  | _ => none

/-- The words of a text, in order. -/
def words (mode : BackslashMode) (text : String) : List String :=
  (tokens mode text).filterMap Token.word?

namespace ColumnDeclaration

variable {d : ColumnDeclaration}

/-- Whether an insertion may leave a column out, going by its declaration: the database numbers the
column, it admits NULL, or it has a default. -/
def CanBeOmitted (mode : BackslashMode) (d : ColumnDeclaration) : Prop :=
  "AUTO_INCREMENT" ∈ words mode d.text ∨ ¬ ["NOT", "NULL"] <:+: words mode d.text ∨
    "DEFAULT" ∈ words mode d.text

/-- The words of what follows the name of a column: the type, that NULL is not admitted, and the
mark. -/
theorem words_modifiers (mode : BackslashMode) (type : SqlType) (isAuto : Bool) :
    words mode (" " ++ type.name ++ " NOT NULL " ++ if isAuto then "AUTO_INCREMENT" else "")
      = [type.name, "NOT", "NULL"] ++ if isAuto then ["AUTO_INCREMENT"] else [] := by
  cases mode <;> cases type <;> cases isAuto <;> decide +kernel

/-- A plain name adds no word to a declaration. -/
theorem words_text (h : PlainName d.name) :
    words mode d.text
      = [d.type.name, "NOT", "NULL"] ++ if d.isAuto then ["AUTO_INCREMENT"] else [] := by
  have hname : tokens mode (identifier d.name) = [⟨.identifier, identifier d.name⟩] := by
    simp [tokens, run_identifier h, flush, Reading.kind]
  have houtside : Outside (run mode none (identifier d.name).toList).2 := (Reads.ofName h).outside
  rw [words, text_eq, (tokens_append (.inr ⟨houtside, d.breaks_modifiers⟩)).1, hname,
    List.filterMap_append]
  exact words_modifiers mode d.type d.isAuto

/-- Only a column that the database numbers can be left out. -/
theorem canBeOmitted_iff (h : PlainName d.name) : d.CanBeOmitted mode ↔ d.isAuto = true := by
  have hrefuses : ["NOT", "NULL"] <:+: words mode d.text := by
    rw [words_text h]
    exact ⟨[d.type.name], _, rfl⟩
  have hmark : "AUTO_INCREMENT" ≠ d.type.name := by cases d.type <;> decide
  have hdefault : "DEFAULT" ≠ d.type.name := by cases d.type <;> decide
  simp only [CanBeOmitted, hrefuses, not_true_eq_false, false_or]
  rw [words_text h]
  cases d.isAuto <;> simp [hmark, hdefault]

end ColumnDeclaration

end Sql

/-! ## Insertions -/

namespace Bound

variable {b : Bound c k} {columns : List ColumnDeclaration}

/-- An insertion lists the declared columns that are neither numbered nor nil. -/
theorem listed_iff (hcolumns : List.Forall₂ Declares (b.descriptors.filter (·.isColumn)) columns)
    {s : Statement} (h : b.insertRow = .ok s) {column : ColumnDeclaration}
    (hmem : column ∈ columns) :
    column.name ∈ s.assigned.map (·.column) ↔
      column.isAuto = false ∧ column.name ∉ b.nilColumns := by
  obtain ⟨as, has, h⟩ := bind_eq_ok.1 h
  cases h
  have hnames := assigned_declared (q := fun _ auto => !auto) hcolumns (fun _ _ => rfl) has
  rw [Statement.assigned, hnames, List.mem_map]
  constructor
  · rintro ⟨listed, hlisted, hname⟩
    obtain ⟨hlisted, hchosen⟩ := List.mem_filter.1 hlisted
    obtain rfl := List.inj_on_of_nodup_map (declared_nodup hcolumns) hlisted hmem hname
    simpa using hchosen
  · intro hchosen
    exact ⟨column, List.mem_filter.2 ⟨hmem, by simpa using hchosen⟩, rfl⟩

/-- A column of a stored field is nil exactly when the field is a nil pointer. -/
theorem mem_nilColumns_iff (hfields : List.Forall₂ (fun d column => c.declareField k d = .ok column)
      (b.descriptors.filter (·.isColumn)) columns) {name : String} :
    name ∈ b.nilColumns ↔ ∃ f ∈ b.stored, f.column = name ∧ f.isNil = true := by
  have hnil : ∀ f ∈ b.stored, f.isNil = f.value.isNil := by
    intro f hf
    obtain ⟨column, -, -, htype⟩ := declared_of_stored hfields hf
    exact isNil_of_sqlType (List.mem_of_mem_filter hf) (htype ▸ rfl)
  constructor
  · intro h
    obtain ⟨f, hf, hname⟩ := List.mem_map.1 h
    obtain ⟨hf, hvalue⟩ := List.mem_filter.1 hf
    exact ⟨f, hf, hname, (hnil f hf).trans hvalue⟩
  · rintro ⟨f, hf, rfl, hisNil⟩
    exact (isNil_iff hf).1 ((hnil f hf).symm.trans hisNil)

/-- The declared columns that an insertion leaves out are those that the database numbers and those
of nil pointers. Going by their declarations only the former can be left out, so all that is left
out can be exactly when every nil pointer is to a number of the database. -/
theorem omissions_iff (b : Bound c k) {table : String} {columns : List ColumnDeclaration}
    {key : Option String} (hcreate : c.createTable k = .ok (.createTable table columns key))
    {s : Statement} (hinsert : b.insertRow = .ok s) (mode : BackslashMode) :
    (∀ column ∈ columns, (column.name ∉ s.assigned.map (·.column) ↔
      column.isAuto = true ∨ ∃ f ∈ b.stored, f.column = column.name ∧ f.isNil = true)) ∧
    (∀ column ∈ columns, (column.CanBeOmitted mode ↔ column.isAuto = true)) ∧
    ((∀ column ∈ columns, column.name ∉ s.assigned.map (·.column) → column.CanBeOmitted mode) ↔
      ∀ f ∈ b.stored, f.isNil = true → f.descriptor.tag.isAuto = true) := by
  obtain ⟨ds, hds, hfields⟩ := Models.columns_of_createTable hcreate
  obtain rfl : b.descriptors = ds := Except.ok.inj (b.described.symm.trans hds)
  have hcolumns := hfields.imp fun _ _ => Models.declareField_ok
  have homitted : ∀ column ∈ columns, (column.name ∉ s.assigned.map (·.column) ↔
      column.isAuto = true ∨ ∃ f ∈ b.stored, f.column = column.name ∧ f.isNil = true) := by
    intro column hmem
    rw [listed_iff hcolumns hinsert hmem, ← mem_nilColumns_iff hfields]
    cases column.isAuto <;> simp
  have hfill : ∀ column ∈ columns, (column.CanBeOmitted mode ↔ column.isAuto = true) := by
    intro column hmem
    obtain ⟨d, -, hdeclares⟩ := exists_of_forall₂ hcolumns hmem
    exact ColumnDeclaration.canBeOmitted_iff (hdeclares.name_eq ▸ d.tag.plainName)
  refine ⟨homitted, hfill, ?_, ?_⟩
  · intro hall f hf hnil
    obtain ⟨column, hmem, hdeclares, -⟩ := declared_of_stored hfields hf
    have hleft := (homitted column hmem).2 (.inr ⟨f, hf, hdeclares.name_eq.symm, hnil⟩)
    rw [← hdeclares.isAuto_eq]
    exact (hfill column hmem).1 (hall column hmem hleft)
  · intro hall column hmem hleft
    refine (hfill column hmem).2 ?_
    rcases (homitted column hmem).1 hleft with hauto | ⟨f, hf, hname, hnil⟩
    · exact hauto
    · obtain ⟨column', hmem', hdeclares, -⟩ := declared_of_stored hfields hf
      obtain rfl : column' = column := List.inj_on_of_nodup_map (declared_nodup hcolumns) hmem' hmem
        (hdeclares.name_eq.trans hname)
      exact hdeclares.isAuto_eq.trans (hall f hf hnil)

end Bound

/-- A letter with a remark. -/
def remarkedLetter : Bound letters 0 where
  columns := .cons (.integer 19 (by decide)) <| .cons (.present (.text "urgent")) <|
    .cons (.text "news") <| .cons .absent .nil
  descriptors := letter.descriptors
  described := letter.described

/-- The insertion of a letter with a remark leaves out the id alone, which the database numbers. -/
theorem remarkedLetter_omissions :
    letters.createTable 0 = .ok (.createTable "letters_Letter"
      [⟨"id", .bigint, true⟩, ⟨"remark", .text, false⟩, ⟨"topic", .text, false⟩] (some "id")) ∧
    remarkedLetter.insertRow = .ok (.insertRow "letters_Letter"
      [⟨"remark", .string "urgent"⟩, ⟨"topic", .string "news"⟩]) ∧
    ∀ column ∈ [ColumnDeclaration.mk "id" .bigint true, ⟨"remark", .text, false⟩,
        ⟨"topic", .text, false⟩],
      column.name ∉ ["remark", "topic"] → ∀ mode, column.CanBeOmitted mode := by
  have hcreate : letters.createTable 0 = .ok (.createTable "letters_Letter"
      [⟨"id", .bigint, true⟩, ⟨"remark", .text, false⟩, ⟨"topic", .text, false⟩] (some "id")) := by
    decide +kernel
  have hinsert : remarkedLetter.insertRow = .ok (.insertRow "letters_Letter"
      [⟨"remark", .string "urgent"⟩, ⟨"topic", .string "news"⟩]) := by
    decide +kernel
  have hset : ∀ f ∈ remarkedLetter.stored, f.isNil = true → f.descriptor.tag.isAuto = true := by
    decide +kernel
  refine ⟨hcreate, hinsert, fun column hmem hleft mode => ?_⟩
  obtain ⟨-, -, hall⟩ := remarkedLetter.omissions_iff hcreate hinsert mode
  exact hall.2 hset column hmem hleft

/-- The insertion of a letter without a remark leaves out a column that cannot be left out. -/
theorem letter_omits_remark :
    ∃ table columns key s, letters.createTable 0 = .ok (.createTable table columns key) ∧
      letter.insertRow = .ok s ∧
      ∃ column ∈ columns, column.name ∉ s.assigned.map (·.column) ∧
        ∀ mode, ¬ column.CanBeOmitted mode := by
  refine ⟨"letters_Letter", [⟨"id", .bigint, true⟩, ⟨"remark", .text, false⟩,
    ⟨"topic", .text, false⟩], some "id", .insertRow "letters_Letter" [⟨"topic", .string "it's"⟩],
    by decide +kernel, by decide +kernel, ⟨"remark", .text, false⟩, by simp, by decide, ?_⟩
  intro mode
  rw [ColumnDeclaration.canBeOmitted_iff (by decide)]
  decide

end EntityMapper
