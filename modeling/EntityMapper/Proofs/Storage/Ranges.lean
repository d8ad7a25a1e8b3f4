import EntityMapper.Proofs.Sql.RowColumns

/-!
# Ranges of stored integers

A content renders as a literal of the shape that its kind is stored in, and a stored integer as a
number of its kind (`Cell.writes_of_literal?`). The types of the database are signed, and each kind
of integers has one that holds all its numbers, but for the unsigned ones of 64 bits
(`FieldKind.Writes.fits`). What an insertion or an update writes for a column is compared with the
type that the definition of the table declares for it (`Bound.stored_integers_fit`).
-/

namespace EntityMapper

open Sql

variable {n : Nat} {c : Catalog n} {k : Fin n}

/-! ## Types of integers -/

namespace Sql

/-- The width in bits of a type of signed integers. -/
def SqlType.bits? : SqlType → Option Nat
  | tinyint => some 8
  | smallint => some 16
  | int => some 32
  | bigint => some 64
  | float | double | text | datetime => none

/-- Whether an integer is in the signed range of a type. -/
def SqlType.Admits (type : SqlType) (x : Int) : Prop :=
  ∃ bits ∈ type.bits?, -2 ^ (bits - 1) ≤ x ∧ x < 2 ^ (bits - 1)

instance (type : SqlType) (x : Int) : Decidable (type.Admits x) := by
  unfold SqlType.Admits; infer_instance

/-- An integer in the range of a type of at most 32 bits is in that of an `INT`. -/
theorem SqlType.Admits.to_int {type : SqlType} {x : Int} (h : type.Admits x) {bits : Nat}
    (hbits : bits ∈ type.bits?) (hle : bits ≤ 32) : SqlType.int.Admits x := by
  cases type with
  | tinyint | smallint | int =>
      simp only [SqlType.Admits, SqlType.bits?, Option.mem_some_iff, exists_eq_left'] at h ⊢
      omega
  | bigint =>
      cases hbits
      exact absurd hle (by decide)
  | float | double | text | datetime => cases hbits

/-- The columns that a statement about a row writes or compares, with their literals. -/
def Statement.assigned : Statement → List Assignment
  | insertRow _ assignments => assignments
  | updateRow _ assignments key => assignments ++ [key]
  | deleteRow _ key | selectRow _ _ key => [key]
  | createTable .. | createLinks _ | dropTable _ | insertLink .. | deleteLink .. | clearLinks ..
  | selectLinks .. => []

end Sql

/-! ## Literals of contents -/

/-- Whether a literal is of the shape that a kind is stored in. What stands for a record has the
literal of the record's key, of any shape. -/
def FieldKind.Writes : FieldKind → Literal → Prop
  | .bool, .integer x => x = 0 ∨ x = 1
  | .integer kind, .integer x => kind.Holds x
  | .float, .float _ | .double, .float _ => True
  | .text, .string _ | .dateTime, .string _ | .list, .string _ | .recordList, .string _ => True
  | .record, _ => True
  | _, _ => False

/-- A content renders as a literal of the shape that its kind is stored in. -/
theorem Cell.writes_of_literal? {t : ColumnType n} (cell : Cell c t) {l : Literal}
    (h : cell.value.literal? = .ok (some l)) : t.classify.kind.Writes l := by
  induction t with
  | bool =>
      cases cell with
      | bool b =>
          cases h
          cases b
          exacts [.inl rfl, .inr rfl]
  | integer kind =>
      cases cell with
      | integer x hx =>
          rw [value] at h
          split at h
          · rename_i hsigned
            cases h
            show kind.Holds _
            rwa [IntegerKind.toInt_ofInt hsigned hx]
          · rename_i hsigned
            cases h
            obtain ⟨hnonneg, hvalue⟩ := IntegerKind.toNat_ofNat (by simpa using hsigned) hx
            show kind.Holds _
            rwa [hvalue, Int.toNat_of_nonneg hnonneg]
  | float | double =>
      cases cell
      rw [value, Value.literal?] at h
      split at h <;> cases h
      trivial
  | text | dateTime =>
      cases cell
      cases h
      trivial
  | raw | entity => trivial
  | nullable t ih =>
      cases cell with
      | absent => cases h
      | present inner => exact ih inner h
  | boxed t ih =>
      cases cell with
      | boxed inner => exact ih inner h
  | list t =>
      cases cell with
      | list items =>
          obtain ⟨js, -, h⟩ := bind_eq_ok.1 h
          cases h
          rw [ColumnType.classify, FieldType.list]
          split <;> trivial

/-- A field renders as a literal of the shape that its kind is stored in. -/
theorem Bound.writes_of_literal? {b : Bound c k} {f : Field c} (hf : f ∈ b.fields) {l : Literal}
    (h : f.literal? = .ok (some l)) : f.descriptor.type.kind.Writes l := by
  rw [b.columns.field_type b.types_eq hf]
  exact f.cell.writes_of_literal? (mapError_eq_ok.1 h)

namespace FieldKind.Writes

variable {kind : FieldKind} {type : SqlType} {l : Literal}

/-- The columns of integers are those that are given integers. -/
theorem isSome_bits? (h : kind.Writes l) (htype : SqlType.ofKind? kind = some type) :
    type.bits?.isSome = true ↔ ∃ x, l = .integer x := by
  cases kind with
  | record | recordList => cases htype
  | integer kind =>
      cases l with
      | integer x => cases kind <;> cases htype <;> simp [SqlType.bits?]
      | float | string => exact h.elim
  | bool | float | double | text | dateTime | list =>
      cases htype
      cases l <;> simp_all [Writes, SqlType.bits?]

/-- A stored integer is in the range of its column's type, unless it is an unsigned number of 64
bits that has all of them. -/
theorem fits {x : Int} (h : kind.Writes (.integer x)) (htype : SqlType.ofKind? kind = some type) :
    type.Admits x ∨ (kind = .integer .uint64 ∨ kind = .integer .uint) ∧ type = .bigint ∧
      2 ^ 63 ≤ x ∧ x < 2 ^ 64 := by
  cases kind with
  | record | recordList => cases htype
  | float | double | text | dateTime | list => exact h.elim
  | bool =>
      cases htype
      refine .inl ⟨8, rfl, ?_⟩
      rcases h with rfl | rfl <;> decide
  | integer kind =>
      have hholds : kind.least ≤ x ∧ x ≤ kind.greatest := h
      cases kind <;> cases htype <;>
        simp [IntegerKind.least, IntegerKind.greatest, IntegerKind.signed, IntegerKind.bits,
          SqlType.Admits, SqlType.bits?] at hholds ⊢ <;> omega

/-- What is written for a kind is an integer in the range of an `INT` where the column is no
wider. -/
theorem narrow (h : kind.Writes l) (htype : SqlType.ofKind? kind = some type) {bits : Nat}
    (hbits : bits ∈ type.bits?) (hle : bits ≤ 32) : ∃ x, l = .integer x ∧ SqlType.int.Admits x := by
  obtain ⟨x, rfl⟩ := (h.isSome_bits? htype).1 (Option.isSome_of_mem hbits)
  rcases h.fits htype with hadmits | ⟨-, rfl, -⟩
  · exact ⟨x, rfl, hadmits.to_int hbits hle⟩
  · cases hbits
    exact absurd hle (by decide)

end FieldKind.Writes

/-! ## Declared types -/

namespace Models

variable {ms : Models n}

/-- A table that is created declares the stored fields one by one. -/
theorem columns_of_createTable {table : String} {columns : List ColumnDeclaration}
    {key : Option String} (h : ms.createTable k = .ok (.createTable table columns key)) :
    ∃ ds, (ms.model k).describe = .ok ds ∧
      List.Forall₂ (fun d column => ms.declareField k d = .ok column) (ds.filter (·.isColumn))
        columns := by
  obtain ⟨ds, declared, hds, hcolumns, hs⟩ := createTable_fields h
  obtain ⟨-, rfl, -⟩ := Statement.createTable.inj hs
  exact ⟨ds, hds, hcolumns⟩

/-- A column is declared with the type of its kind. -/
theorem declareField_type {d : Descriptor n} {column : ColumnDeclaration}
    (h : ms.declareField k d = .ok column) :
    SqlType.ofKind? d.type.kind = some column.type := by
  rw [declareField] at h
  split at h
  · rename_i type htype
    cases h
    exact htype
  · cases h

end Models

/-! ## Written integers -/

namespace Bound

variable {b : Bound c k}

/-- The key is one of the stored fields. -/
theorem mem_stored_of_key? {f : Field c} (hkey : b.key? = some f) : f ∈ b.stored := by
  obtain ⟨hf, hflag⟩ := b.key?_eq_some hkey
  exact List.mem_filter.2 ⟨hf, isColumn_of_isKey (b.descriptor_mem hf) hflag⟩

/-- Every stored field is declared, with a type for its kind. -/
theorem declared_of_stored {columns : List ColumnDeclaration}
    (hcolumns : List.Forall₂ (fun d column => c.declareField k d = .ok column)
      (b.descriptors.filter (·.isColumn)) columns) {f : Field c} (hf : f ∈ b.stored) :
    ∃ column ∈ columns, Declares f.descriptor column ∧
      SqlType.ofKind? f.descriptor.type.kind = some column.type := by
  have hd : f.descriptor ∈ b.descriptors.filter (·.isColumn) :=
    b.stored_descriptors ▸ List.mem_map_of_mem hf
  obtain ⟨column, hmem, hdeclared⟩ := exists_of_forall₂ hcolumns.flip hd
  exact ⟨column, hmem, Models.declareField_ok hdeclared, Models.declareField_type hdeclared⟩

/-- An insertion or an update writes, under the column of a stored field, that field's literal. -/
theorem holds_of_assigned {s : Statement} (hs : b.insertRow = .ok s ∨ b.updateRow = .ok s)
    {a : Assignment} (ha : a ∈ s.assigned) : b.Holds a.column a.literal := by
  have hchosen : ∀ {p : Field c → Bool} {as : List Assignment},
      assignments (b.stored.filter p) = .ok as → ∀ a ∈ as, b.Holds a.column a.literal := by
    intro p as has
    have hall := forall₂_holds has
    rwa [List.forall₂_map_left_iff, List.forall₂_map_right_iff, List.forall₂_same] at hall
  rcases hs with hs | hs
  · obtain ⟨as, has, hs⟩ := bind_eq_ok.1 hs
    cases hs
    exact hchosen has a ha
  · obtain ⟨as, key, has, hkey, rfl⟩ := updateRow_ok hs
    rcases List.mem_append.1 ha with ha | ha
    · exact hchosen has a ha
    · obtain rfl := List.mem_singleton.1 ha
      obtain ⟨f, literal, hf, hliteral, -, rfl⟩ := keyClause_eq_ok hkey
      exact ⟨f, mem_stored_of_key? hf, rfl, hliteral⟩

/-- What an insertion or an update writes for a column, or compares it with, suits the type that
the column is declared with. Columns of integers, and no others, are given integers, and each is in
the signed range of the type, unless the field is unsigned of 64 bits: such a field is declared as a
`BIGINT`, and its literal may be any number of 64 bits. -/
theorem stored_integers_fit (b : Bound c k) {table : String} {columns : List ColumnDeclaration}
    {key : Option String} (hcreate : c.createTable k = .ok (.createTable table columns key))
    {s : Statement} (hs : b.insertRow = .ok s ∨ b.updateRow = .ok s) :
    (columns.map (·.name)).Nodup ∧
    ∀ a ∈ s.assigned, ∃ column ∈ columns, ∃ f ∈ b.stored,
      column.name = a.column ∧ f.column = a.column ∧
      (column.type.bits?.isSome = true ↔ ∃ x, a.literal = .integer x) ∧
      ∀ x, a.literal = .integer x → column.type.Admits x ∨
        (f.descriptor.type.kind = .integer .uint64 ∨ f.descriptor.type.kind = .integer .uint) ∧
          column.type = .bigint ∧ 2 ^ 63 ≤ x ∧ x < 2 ^ 64 := by
  obtain ⟨ds, hds, hcolumns⟩ := Models.columns_of_createTable hcreate
  obtain rfl : b.descriptors = ds := Except.ok.inj (b.described.symm.trans hds)
  refine ⟨declared_nodup (hcolumns.imp fun _ _ => Models.declareField_ok), fun a ha => ?_⟩
  obtain ⟨f, hf, hcolumn, hliteral⟩ := holds_of_assigned hs ha
  have hwrites := b.writes_of_literal? (List.mem_of_mem_filter hf) hliteral
  obtain ⟨column, hmem, hdeclares, htype⟩ := declared_of_stored hcolumns hf
  refine ⟨column, hmem, f, hf, hdeclares.name_eq.trans hcolumn, hcolumn,
    hwrites.isSome_bits? htype, ?_⟩
  intro x hx
  rw [hx] at hwrites
  exact hwrites.fits htype

end Bound

/-- Meters with a short number and the pulses counted. -/
def meters : Catalog 1 where
  model _ :=
    { ident := "Meter", path := "plant::meters", explicitName := none
      fields := [⟨"number", "number key", .integer .int16⟩, ⟨"pulses", "pulses", .integer .uint64⟩,
        ⟨"line", "line", .integer .uint16⟩]
      offered := none }
  rank _ := 0
  rank_lt := by decide +kernel

/-- A meter of some line at its last pulse. -/
def meter : Bound meters 0 where
  columns := .cons (.integer (-32768) (by decide)) <|
    .cons (.integer 18446744073709551615 (by decide)) <| .cons (.integer 65535 (by decide)) .nil
  descriptors :=
    [⟨0, "number", ⟨"number", true, false, by decide, by decide⟩, .scalar (.integer .int16)⟩,
      ⟨1, "pulses", ⟨"pulses", false, false, by decide, by decide⟩, .scalar (.integer .uint64)⟩,
      ⟨2, "line", ⟨"line", false, false, by decide, by decide⟩, .scalar (.integer .uint16)⟩]
  described := by decide +kernel

/-- The integers in the update of a meter are in the ranges of their columns, but for the count. -/
theorem meter_integers_fit :
    meters.createTable 0 = .ok (.createTable "meters_Meter" [⟨"number", .smallint, false⟩,
      ⟨"pulses", .bigint, false⟩, ⟨"line", .int, false⟩] (some "number")) ∧
    meter.updateRow = .ok (.updateRow "meters_Meter" [⟨"pulses", .integer 18446744073709551615⟩,
      ⟨"line", .integer 65535⟩] ⟨"number", .integer (-32768)⟩) ∧
    ∀ a ∈ [Assignment.mk "pulses" (.integer 18446744073709551615), ⟨"line", .integer 65535⟩,
      ⟨"number", .integer (-32768)⟩],
      ∃ type x, ⟨a.column, type, false⟩ ∈ [ColumnDeclaration.mk "number" .smallint false,
        ⟨"pulses", .bigint, false⟩, ⟨"line", .int, false⟩] ∧ a.literal = .integer x ∧
        (type.Admits x ∨ type = .bigint ∧ 2 ^ 63 ≤ x) := by
  have hcreate : meters.createTable 0 = .ok (.createTable "meters_Meter"
      [⟨"number", .smallint, false⟩, ⟨"pulses", .bigint, false⟩, ⟨"line", .int, false⟩]
      (some "number")) := by
    decide +kernel
  have hupdate : meter.updateRow = .ok (.updateRow "meters_Meter"
      [⟨"pulses", .integer 18446744073709551615⟩, ⟨"line", .integer 65535⟩]
      ⟨"number", .integer (-32768)⟩) := by
    decide +kernel
  obtain ⟨-, hfit⟩ := meter.stored_integers_fit hcreate (.inr hupdate)
  refine ⟨hcreate, hupdate, fun a ha => ?_⟩
  obtain ⟨⟨name, type, isAuto⟩, hcolumn, f, -, rfl, -, hinteger, hrange⟩ := hfit a ha
  obtain ⟨rfl, hbits⟩ : isAuto = false ∧ type.bits?.isSome = true := by
    revert hcolumn
    simp only [List.mem_cons, ColumnDeclaration.mk.injEq, List.not_mem_nil, or_false]
    rintro (⟨-, rfl, rfl⟩ | ⟨-, rfl, rfl⟩ | ⟨-, rfl, rfl⟩) <;> exact ⟨rfl, rfl⟩
  obtain ⟨x, hx⟩ := hinteger.1 hbits
  refine ⟨type, x, hcolumn, hx, (hrange x hx).imp_right ?_⟩
  rintro ⟨-, hbigint, hlow, -⟩
  exact ⟨hbigint, hlow⟩

/-- A meter that has counted all pulses of 64 bits is written a literal outside of the range of
its `BIGINT`. -/
theorem meter_pulses_outside :
    ∃ table columns key s, meters.createTable 0 = .ok (.createTable table columns key) ∧
      meter.insertRow = .ok s ∧
      ∃ a ∈ s.assigned, ∃ column ∈ columns, column.name = a.column ∧
        ∃ x, a.literal = .integer x ∧ ¬ column.type.Admits x := by
  refine ⟨"meters_Meter", [⟨"number", .smallint, false⟩, ⟨"pulses", .bigint, false⟩,
    ⟨"line", .int, false⟩], some "number", .insertRow "meters_Meter"
      [⟨"number", .integer (-32768)⟩, ⟨"pulses", .integer 18446744073709551615⟩,
        ⟨"line", .integer 65535⟩], by decide +kernel, by decide +kernel, ?_⟩
  exact ⟨⟨"pulses", .integer 18446744073709551615⟩, by simp [Statement.assigned],
    ⟨"pulses", .bigint, false⟩, by simp, rfl, _, rfl, by decide⟩

end EntityMapper
