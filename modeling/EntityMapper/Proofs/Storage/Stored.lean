import EntityMapper.Proofs.Calendar.DateTime
import EntityMapper.Proofs.Checked
import EntityMapper.Proofs.Json.Reading
import EntityMapper.Proofs.Sql.Reading
import EntityMapper.Storage.Assignment
import Mathlib.Algebra.Group.Int.Defs

/-!
# Contents that are stored exactly

A content without records and floating-point numbers has a literal, and what a database reads from
the literal builds the content again (`Cell.build_readBack`), its settled form to be exact: the
fraction of a second is not stored, and a nil inside a pointer is stored as the nil of the pointer.
Assigning to any content of such a type is building a new one (`Cell.assign_eq_build`).
-/

namespace EntityMapper

variable {n : Nat} {c : Catalog n}

namespace ColumnType

/-- Whether the type is that of items that a list column stores exactly: a scalar other than a
floating-point number, or one held by reference. -/
def IsItem : ColumnType n → Prop
  | bool | integer _ | text | dateTime => True
  | boxed t => t.IsItem
  | float | double | raw | entity _ | nullable _ | list _ => False

/-- Whether the type is that of a column that is stored exactly. -/
def IsExact : ColumnType n → Prop
  | bool | integer _ | text | dateTime => True
  | nullable t | boxed t => t.IsExact
  | list t => t.IsItem
  | float | double | raw | entity _ => False

/-- Decides whether a type is that of exact items. -/
instance decidableIsItem : (t : ColumnType n) → Decidable t.IsItem
  | bool | integer _ | text | dateTime => inferInstanceAs (Decidable True)
  | boxed t => decidableIsItem t
  | float | double | raw | entity _ | nullable _ | list _ => inferInstanceAs (Decidable False)

/-- Decides whether a type is that of an exact column. -/
instance decidableIsExact : (t : ColumnType n) → Decidable t.IsExact
  | bool | integer _ | text | dateTime => inferInstanceAs (Decidable True)
  | nullable t | boxed t => decidableIsExact t
  | list t => decidableIsItem t
  | float | double | raw | entity _ => inferInstanceAs (Decidable False)

/-- An item may also stand in a column of its own. -/
theorem IsItem.isExact {t : ColumnType n} (h : t.IsItem) : t.IsExact := by
  induction t with
  | boxed t ih => exact ih h
  | bool | integer | text | dateTime => trivial
  | float | double | raw | entity | nullable | list => exact h.elim

/-- A content of an exact type holds no records. -/
theorem IsExact.base?_eq {t : ColumnType n} (h : t.IsExact) : t.base? = none := by
  induction t with
  | nullable t ih | boxed t ih => exact ih h
  | list t ih => exact ih (IsItem.isExact h)
  | bool | integer | text | dateTime => rfl
  | float | double | raw | entity => exact h.elim

end ColumnType

mutual

/-- A content as it comes back from the database. -/
def Cell.settled : {t : ColumnType n} → Cell c t → Cell c t
  | _, .dateTime t => .dateTime t.wholeSecond
  | _, .present inner => if inner.value.isNil then .absent else .present inner.settled
  | _, .boxed inner => .boxed inner.settled
  | _, .list items => .list items.settled
  | _, cell => cell

/-- The items of a list as they come back from the database. -/
def Items.settled : {t : ColumnType n} → Items c t → Items c t
  | _, .nil => .nil
  | _, .cons item items => .cons item.settled items.settled

end

/-- The columns of a record as they come back from the database. -/
def Columns.settled : {ts : List (ColumnType n)} → Columns c ts → Columns c ts
  | _, .nil => .nil
  | _, .cons cell cells => .cons cell.settled cells.settled

/-! ## Settled contents and whole seconds

A settled content differs from the content in the fractions of seconds only, unless a pointer that
may be nil is behind another one.
-/

mutual

/-- A content with its date-times cut to whole seconds. -/
def Cell.wholeSeconds : {t : ColumnType n} → Cell c t → Cell c t
  | _, .dateTime t => .dateTime t.wholeSecond
  | _, .present inner => .present inner.wholeSeconds
  | _, .boxed inner => .boxed inner.wholeSeconds
  | _, .list items => .list items.wholeSeconds
  | _, cell => cell

/-- The items of a list with their date-times cut to whole seconds. -/
def Items.wholeSeconds : {t : ColumnType n} → Items c t → Items c t
  | _, .nil => .nil
  | _, .cons item items => .cons item.wholeSeconds items.wholeSeconds

end

/-- The columns of a record with their date-times cut to whole seconds. -/
def Columns.wholeSeconds : {ts : List (ColumnType n)} → Columns c ts → Columns c ts
  | _, .nil => .nil
  | _, .cons cell cells => .cons cell.wholeSeconds cells.wholeSeconds

/-- Whether no pointer that may be nil is behind another one. -/
def ColumnType.IsFlat : ColumnType n → Prop
  | nullable t => t.classify.isNullable = false ∧ t.IsFlat
  | boxed t => t.IsFlat
  | _ => True

/-- A content is nil only where its column may be nil. -/
theorem Cell.isNil_value {t : ColumnType n} (ht : t.IsExact) (hnil : t.classify.isNullable = false)
    (cell : Cell c t) : cell.value.isNil = false := by
  induction t with
  | integer kind =>
      cases cell
      rw [value]
      split <;> rfl
  | nullable t => cases hnil
  | boxed t ih =>
      cases cell with
      | boxed inner => exact ih ht hnil inner
  | bool | text | dateTime | list =>
      cases cell
      rfl
  | float | double | raw | entity => exact ht.elim

/-- An item is settled by cutting its date-times. -/
theorem Cell.settled_of_item {t : ColumnType n} (ht : t.IsItem) (cell : Cell c t) :
    cell.settled = cell.wholeSeconds := by
  induction t with
  | boxed t ih =>
      cases cell with
      | boxed inner => rw [settled, wholeSeconds, ih ht inner]
  | bool | integer | text | dateTime =>
      cases cell
      rfl
  | float | double | raw | entity | nullable | list => exact ht.elim

/-- Items are settled by cutting their date-times. -/
theorem Items.settled_eq_wholeSeconds {t : ColumnType n} (ht : t.IsItem) : (items : Items c t) →
    items.settled = items.wholeSeconds
  | .nil => rfl
  | .cons item items => by
      rw [settled, wholeSeconds, item.settled_of_item ht, settled_eq_wholeSeconds ht items]

/-- A content without a nil inside a pointer is settled by cutting its date-times. -/
theorem Cell.settled_eq_wholeSeconds {t : ColumnType n} (ht : t.IsExact) (hflat : t.IsFlat)
    (cell : Cell c t) : cell.settled = cell.wholeSeconds := by
  induction t with
  | nullable t ih =>
      cases cell with
      | absent => rfl
      | present inner =>
          rw [settled, wholeSeconds, isNil_value (t := t) ht hflat.1 inner, ih ht hflat.2 inner]
          rfl
  | boxed t ih =>
      cases cell with
      | boxed inner => rw [settled, wholeSeconds, ih ht hflat inner]
  | list t =>
      cases cell with
      | list items => rw [settled, wholeSeconds, items.settled_eq_wholeSeconds ht]
  | bool | integer | text | dateTime =>
      cases cell
      rfl
  | float | double | raw | entity => exact ht.elim

/-- A record without nested pointers is settled by cutting its date-times. -/
theorem Columns.settled_eq_wholeSeconds {ts : List (ColumnType n)}
    (htypes : ∀ t ∈ ts, t.IsExact ∧ t.IsFlat) (columns : Columns c ts) :
    columns.settled = columns.wholeSeconds := by
  induction ts with
  | nil =>
      cases columns
      rfl
  | cons t ts ih =>
      cases columns with
      | cons cell cells =>
          obtain ⟨ht, hflat⟩ := htypes t List.mem_cons_self
          rw [settled, wholeSeconds, cell.settled_eq_wholeSeconds ht hflat,
            ih (fun t' ht' => htypes t' (List.mem_cons_of_mem _ ht')) cells]

namespace IntegerKind

/-- Numbers of a signed kind fit a signed word. -/
theorem toInt_ofInt {kind : IntegerKind} {x : Int} (hsigned : kind.signed = true)
    (h : kind.Holds x) : (Int64.ofInt x).toInt = x := by
  apply Int64.toInt_ofInt_of_le <;> cases kind <;>
    simp_all [Holds, least, greatest, signed, bits] <;> omega

/-- Numbers of an unsigned kind fit an unsigned word. -/
theorem toNat_ofNat {kind : IntegerKind} {x : Int} (hsigned : kind.signed = false)
    (h : kind.Holds x) : 0 ≤ x ∧ (UInt64.ofNat x.toNat).toNat = x.toNat := by
  have hrange : 0 ≤ x ∧ x < 2 ^ 64 := by
    cases kind <;> simp_all [Holds, least, greatest, signed, bits] <;> omega
  refine ⟨hrange.1, UInt64.toNat_ofNat_of_lt' ?_⟩
  simp [UInt64.size]
  omega

end IntegerKind

/-! ## Building from what was stored -/

/-- A number of a kind is built from its value, signed or not. -/
theorem Catalog.build_integer {kind : IntegerKind} {x : Int} (h : kind.Holds x) {v : Value}
    (hv : v.toInteger (.integer kind) = .ok x) :
    c.build (.integer kind) v = .ok (.integer x h) := by
  have hkind : v.toIntegerOf kind = .ok ⟨x, h⟩ := by
    simp only [Value.toIntegerOf, hv, bind, Except.bind, h, dif_pos]
    rfl
  rw [Catalog.build, hkind]
  rfl

/-- The number in a column of integers. -/
theorem Cell.value_toInteger {kind : IntegerKind} {x : Int} (h : kind.Holds x) :
    (Cell.integer x h : Cell c (.integer kind)).value.toInteger (.integer kind) = .ok x := by
  rw [Cell.value]
  split
  · rename_i hsigned
    simp only [Value.toInteger, IntegerKind.toInt_ofInt hsigned h]
  · rename_i hsigned
    obtain ⟨hnonneg, hvalue⟩ := IntegerKind.toNat_ofNat (by simpa using hsigned) h
    simp only [Value.toInteger, hvalue]
    congr 1
    omega

/-- An integer value stands for a number of 64 bits. -/
theorem Value.toInteger_range {v : Value} {expected : FieldKind} {x : Int}
    (h : v.toInteger expected = .ok x) :
    (∃ n, v = .int n ∧ n.toInt = x ∧ -2 ^ 63 ≤ x ∧ x < 2 ^ 63) ∨
      ∃ m, v = .uint m ∧ (m.toNat : Int) = x ∧ 0 ≤ x ∧ x < 2 ^ 64 := by
  cases v with
  | int n =>
      cases h
      exact .inl ⟨n, rfl, rfl, n.le_toInt, n.toInt_lt⟩
  | uint m =>
      cases h
      have hm : m.toNat < 2 ^ 64 := m.toNat_lt
      exact .inr ⟨m, rfl, rfl, by omega, by omega⟩
  | _ => cases h

/-- A number that is not negative is read as an unsigned word of the same value. -/
theorem toInteger_uint_ofNat {expected : FieldKind} {x : Int} (hx : 0 ≤ x ∧ x < 2 ^ 64) :
    (Value.uint (UInt64.ofNat x.toNat)).toInteger expected = .ok x := by
  have hvalue : (UInt64.ofNat x.toNat).toNat = x.toNat :=
    UInt64.toNat_ofNat_of_lt' (by simp only [UInt64.size]; omega)
  simp only [Value.toInteger, hvalue]
  congr 1
  omega

/-- An integer is lowered to a plain document, from which the same number is read. -/
theorem Value.toInteger_ofJson {v : Value} {expected : FieldKind} {x : Int}
    (h : v.toInteger expected = .ok x) :
    ∃ j, v.toJson = .ok j ∧ j.IsPlain ∧ (ofJson j).toInteger expected = .ok x := by
  rcases toInteger_range h with ⟨n, rfl, hn, hrange⟩ | ⟨m, rfl, -, -⟩
  · refine ⟨.number (intNumber n), rfl, ?_⟩
    by_cases hnegative : n < 0
    · have hnumber : intNumber n = .negative n hnegative := dif_pos hnegative
      rw [hnumber]
      exact ⟨trivial, h⟩
    · have hnumber : intNumber n = .natural (UInt64.ofNat x.toNat) := by
        rw [← hn]
        exact dif_neg hnegative
      have hnonneg : 0 ≤ x := by
        rw [← hn]
        simpa [Int64.lt_iff_toInt_lt] using hnegative
      rw [hnumber]
      exact ⟨trivial, toInteger_uint_ofNat ⟨hnonneg, by omega⟩⟩
  · exact ⟨.number (.natural m), rfl, trivial, h⟩

/-- An integer has a literal, from which the same number is read. -/
theorem Value.toInteger_readLiteral {v : Value} {expected : FieldKind} {x : Int}
    (h : v.toInteger expected = .ok x) :
    ∃ l, v.literal? = .ok (some l) ∧ (Sql.readLiteral l.text).toInteger expected = .ok x := by
  have hread : -2 ^ 63 ≤ x → x < 2 ^ 64 →
      (Sql.readLiteral (integerText x)).toInteger expected = .ok x := by
    intro hlow hhigh
    by_cases hnegative : x < 0
    · rw [Sql.readLiteral_negative hnegative, toInteger, Int64.toInt_ofInt_of_le hlow (by omega)]
    · have hnonneg : 0 ≤ x := by omega
      rw [Sql.readLiteral_nonneg hnonneg]
      exact toInteger_uint_ofNat ⟨hnonneg, hhigh⟩
  rcases toInteger_range h with ⟨n, rfl, rfl, hlow, hhigh⟩ | ⟨m, rfl, rfl, hlow, hhigh⟩
  · exact ⟨.integer n.toInt, rfl, hread hlow (by omega)⟩
  · exact ⟨.integer m.toNat, rfl, hread (by omega) hhigh⟩

/-- An item is lowered to a plain document, from which it is built again. -/
theorem Cell.build_ofJson {t : ColumnType n} (ht : t.IsItem) (cell : Cell c t) :
    ∃ j, cell.value.toJson = .ok j ∧ j.IsPlain ∧ c.build t (Value.ofJson j) = .ok cell.settled := by
  induction t with
  | bool =>
      cases cell with
      | bool b => exact ⟨.bool b, rfl, trivial, by rw [Catalog.build]; rfl⟩
  | integer kind =>
      cases cell with
      | integer x hx =>
          obtain ⟨j, hj, hplain, hread⟩ := Value.toInteger_ofJson (Cell.value_toInteger hx)
          exact ⟨j, hj, hplain, Catalog.build_integer hx hread⟩
  | text =>
      cases cell with
      | text s => exact ⟨.string s, rfl, trivial, by rw [Catalog.build]; rfl⟩
  | dateTime =>
      cases cell with
      | dateTime t =>
          refine ⟨.string t.text, rfl, trivial, ?_⟩
          rw [Catalog.build]
          simp only [Value.ofJson, Value.toDateTime, DateTime.ofText_text]
          rfl
  | boxed t ih =>
      cases cell with
      | boxed inner =>
          obtain ⟨j, hj, hplain, hbuild⟩ := ih ht inner
          refine ⟨j, hj, hplain, ?_⟩
          rw [Catalog.build, hbuild]
          rfl
  | float | double | raw | entity | nullable | list => exact ht.elim

/-- The items of a list are lowered to plain documents, from which they are built again. -/
theorem Items.build_ofJson {t : ColumnType n} (ht : t.IsItem) : (items : Items c t) →
    ∃ js, Value.listToJson items.values = .ok js ∧ (∀ j ∈ js, j.IsPlain) ∧
      (Value.listOfJson js).mapM (c.build t) = .ok items.settled.toList
  | .nil => ⟨[], rfl, by simp, rfl⟩
  | .cons item items => by
      obtain ⟨j, hj, hplain, hbuild⟩ := item.build_ofJson ht
      obtain ⟨js, hjs, hplains, hbuilds⟩ := build_ofJson ht items
      refine ⟨j :: js, ?_, ?_, ?_⟩
      · exact bind_eq_ok.2 ⟨j, hj, bind_eq_ok.2 ⟨js, hjs, rfl⟩⟩
      · intro i hi
        rcases List.mem_cons.1 hi with rfl | hi
        exacts [hplain, hplains i hi]
      · rw [Value.listOfJson, mapM_eq_ok_iff]
        exact .cons hbuild (mapM_eq_ok_iff.1 hbuilds)

/-- Items are what their list makes. -/
theorem Items.ofList_toList {t : ColumnType n} : (items : Items c t) →
    Items.ofList items.toList = items
  | .nil => rfl
  | .cons item items => by rw [Items.toList, Items.ofList, ofList_toList items]

/-- The text of a list of plain documents is not blank. -/
theorem allBlank_array (js : List Json) : allBlank (Json.array js).text = false := by
  have htext : (Json.array js).text.toList
      = '[' :: ((String.intercalate "," (Json.itemTexts js)).toList ++ [']']) := by
    rw [Json.text, String.toList_append, String.toList_append]
    rfl
  rw [allBlank, htext, List.all_cons, Bool.and_eq_false_iff]
  exact .inl (by decide)

/-- A content has a literal, and what the database reads from it builds the settled content. -/
theorem Cell.build_readBack {t : ColumnType n} (ht : t.IsExact) (cell : Cell c t) :
    ∃ l, cell.value.literal? = .ok l ∧ c.build t (Sql.readBack l) = .ok cell.settled := by
  induction t with
  | bool =>
      cases cell with
      | bool b =>
          cases b with
          | false =>
              refine ⟨some (.integer 0), rfl, ?_⟩
              rw [Catalog.build, Sql.readBack, Sql.Literal.text, Sql.readLiteral_nonneg (by decide)]
              rfl
          | true =>
              refine ⟨some (.integer 1), rfl, ?_⟩
              rw [Catalog.build, Sql.readBack, Sql.Literal.text, Sql.readLiteral_nonneg (by decide)]
              rfl
  | integer kind =>
      cases cell with
      | integer x hx =>
          obtain ⟨l, hl, hread⟩ := Value.toInteger_readLiteral (Cell.value_toInteger hx)
          exact ⟨some l, hl, Catalog.build_integer hx hread⟩
  | text =>
      cases cell with
      | text s =>
          refine ⟨some (.string s), rfl, ?_⟩
          have hread : Sql.readBack (some (.string s)) = .text s := Sql.readLiteral_quote s
          rw [Catalog.build, hread]
          rfl
  | dateTime =>
      cases cell with
      | dateTime t =>
          refine ⟨some (.string t.text), rfl, ?_⟩
          have hread : Sql.readBack (some (.string t.text)) = .text t.text :=
            Sql.readLiteral_quote t.text
          rw [Catalog.build, hread]
          simp only [Value.toDateTime, DateTime.ofText_text]
          rfl
  | nullable t ih =>
      cases cell with
      | absent => exact ⟨none, rfl, by rw [Catalog.build]; rfl⟩
      | present inner =>
          obtain ⟨l, hl, hbuild⟩ := ih ht inner
          have hnil := Value.isNil_of_literal? hl
          refine ⟨l, hl, ?_⟩
          cases l with
          | none =>
              rw [Catalog.build, Cell.settled, hnil]
              rfl
          | some l =>
              rw [Catalog.build, Cell.settled, hnil, Sql.readBack, Sql.isNil_readLiteral]
              rw [Sql.readBack] at hbuild
              simp only [hbuild]
              rfl
  | boxed t ih =>
      cases cell with
      | boxed inner =>
          obtain ⟨l, hl, hbuild⟩ := ih ht inner
          refine ⟨l, hl, ?_⟩
          rw [Catalog.build, hbuild]
          rfl
  | list t =>
      cases cell with
      | list items =>
          obtain ⟨js, hjs, hplain, hbuild⟩ := items.build_ofJson ht
          refine ⟨some (.string (Json.array js).text), bind_eq_ok.2 ⟨js, hjs, rfl⟩, ?_⟩
          have hread : Sql.readBack (some (.string (Json.array js).text))
              = .text (Json.array js).text := Sql.readLiteral_quote _
          have hlist : (Value.text (Json.array js).text).toList (ColumnType.list t).classify.kind
              = .ok (Value.listOfJson js) := by
            simp [Value.toList, allBlank_array, Json.parse?_array hplain]
          rw [Catalog.build, hread, hlist]
          refine bind_eq_ok.2 ⟨_, rfl, bind_eq_ok.2 ⟨_, hbuild, ?_⟩⟩
          rw [Items.ofList_toList]
          rfl
  | float | double | raw | entity => exact ht.elim

/-- Assigning to a content without records builds a new content, whatever the content was. -/
theorem Cell.assign_eq_build_of_base? {t : ColumnType n} (hbase : t.base? = none) (cell : Cell c t)
    (v : Value) : cell.assign v = c.build t v := by
  induction t with
  | nullable t ih =>
      cases cell with
      | absent => rfl
      | present inner => rw [Cell.assign, Catalog.build, ih hbase inner]
  | boxed t ih =>
      cases cell with
      | boxed inner => rw [Cell.assign, Catalog.build, ih hbase inner]
  | bool | integer | float | double | text | dateTime | raw | list =>
      cases cell
      rfl
  | entity => cases hbase

/-- Assigning to a content of an exact type builds a new content. -/
theorem Cell.assign_eq_build {t : ColumnType n} (ht : t.IsExact) (cell : Cell c t) (v : Value) :
    cell.assign v = c.build t v :=
  cell.assign_eq_build_of_base? ht.base?_eq v

end EntityMapper
