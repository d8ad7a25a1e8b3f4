import EntityMapper.Proofs.Model.Verdict
import EntityMapper.Proofs.Storage.Agreement
import EntityMapper.Proofs.Storage.Rows
import Mathlib.Logic.Function.Iterate

/-!
# Keys of records

The key of a record is read in two ways: through the field that its description flags as the key,
and through the column at the position that its model offers, as the key of the reference that the
record reads as. Where the model can be described and offers all its columns, the two render the
same literal or fail with errors of one class, and a record that is assigned a key renders it
(`Record.keys_agree`).
-/

namespace EntityMapper

open Sql

variable {n : Nat} {c : Catalog n} {k : Fin n}

/-! ## Values of keys -/

/-- The literal of a key, or the class of the error where it has none. -/
def Value.keyLiteral (v : Value) : Except ErrorClass Literal :=
  match v.literal? with
  | .ok (some literal) => .ok literal
  | .ok none => .error .missingPrimaryKey
  | .error e => .error (MapperError.value e).errorClass

/-- A key is the same inside any number of references. -/
theorem Value.key_iterate (v : Value) (m : Nat) : (Value.reference^[m] v).key = v.key := by
  induction m with
  | zero => rfl
  | succ m ih =>
      rw [Function.iterate_succ_apply', key]
      exact ih

/-- What stands in a scalar column is no reference. -/
theorem Cell.key_value {t : ColumnType n} (hkind : t.classify.kind.isComposite = false)
    (cell : Cell c t) : cell.value.key = cell.value := by
  induction t with
  | integer kind =>
      cases cell
      rw [value]
      split <;> rfl
  | nullable t ih =>
      cases cell with
      | absent => rfl
      | present inner => exact ih hkind inner
  | boxed t ih =>
      cases cell with
      | boxed inner => exact ih hkind inner
  | bool | float | double | text | dateTime =>
      cases cell
      rfl
  | raw | entity => cases hkind
  | list t =>
      cases cell
      rfl

/-! ## The two ways of reading a key -/

/-- The literal of a related record's key is that of the value of the key. -/
theorem Record.keyLiteral_eq (r : Record c) :
    r.keyLiteral.mapError (·.errorClass) = r.key.keyLiteral := by
  rw [keyLiteral, Value.keyLiteral]
  rcases r.key.literal? with e | _ | literal <;> rfl

namespace Bound

variable {b : Bound c k}

/-- The literal of a described record's key is that of the value of the key field. -/
theorem keyLiteral_eq {f : Field c} (hkey : b.key? = some f) :
    b.keyLiteral.mapError (·.errorClass) = f.value.keyLiteral := by
  rw [keyLiteral, hkey, Value.keyLiteral]
  dsimp only
  rw [Field.literal?]
  rcases f.value.literal? with e | _ | literal <;> rfl

/-- A described record without a key field has no key. -/
theorem keyLiteral_eq_none (hkey : b.key? = none) :
    b.keyLiteral.mapError (·.errorClass) = .error .missingPrimaryKey := by
  rw [keyLiteral, hkey]
  rfl

/-- A key field is a scalar column. -/
theorem key_value {f : Field c} (hkey : b.key? = some f) : f.value.key = f.value := by
  obtain ⟨hf, hflag⟩ := b.key?_eq_some hkey
  have hkind := (EntityModel.describe_flags b.described (b.descriptor_mem hf)).2 hflag
  rw [b.columns.field_type b.types_eq hf] at hkind
  exact f.cell.key_value hkind

/-- A described record has a key field where its model has a key. -/
theorem keyIndex?_of_key? {f : Field c} (hkey : b.key? = some f) :
    ∃ index, (c.model k).keyIndex? = some index := by
  obtain ⟨hf, hflag⟩ := b.key?_eq_some hkey
  obtain ⟨i, hi⟩ := List.getElem?_of_mem (b.descriptor_mem hf)
  exact ⟨i, (EntityModel.keyIndex?_eq_some_iff b.described).2 ⟨_, hi, hflag⟩⟩

end Bound

namespace EntityModel

variable {m : EntityModel n}

/-- A model offers all its columns unless it says otherwise. -/
theorem offeredCount_of_derived (h : m.offered = none) : m.offeredCount = m.fields.length := by
  rw [offeredCount, h]
  exact Nat.min_self _

/-- A model that offers all its columns offers its key. -/
theorem offeredKey?_of_derived (h : m.offered = none) : m.offeredKey? = m.keyIndex? := by
  rw [offeredKey?, offeredCount_of_derived h]
  cases hindex : m.keyIndex? with
  | none => rfl
  | some index =>
      have hlt : index < m.fields.length :=
        (List.findIdx?_eq_some_iff_getElem.1 hindex).1
      rw [Option.filter_some, if_pos (decide_eq_true hlt)]

end EntityModel

/-- Both ways of reading the key of a record that offers all its columns agree. -/
theorem Bound.keyLiteral_record (hderived : (c.model k).offered = none) (b : Bound c k) :
    b.keyLiteral.mapError (·.errorClass) = b.record.keyLiteral.mapError (·.errorClass) := by
  have hoffered := EntityModel.offeredKey?_of_derived hderived
  rw [Record.keyLiteral_eq]
  cases hkey : b.key? with
  | none =>
      have hindex : (c.model k).offeredKey? = none := by
        cases hindex : (c.model k).offeredKey? with
        | none => rfl
        | some index =>
            obtain ⟨f, hf, -⟩ := b.key?_value hindex
            cases hkey.symm.trans hf
      -- Without a key field the record reads as a reference to nil, which has no literal either.
      have hnil : b.record.key = .nil := by
        show (Cell.entity b.columns).value.key = _
        rw [Cell.value, hindex]
        rfl
      rw [keyLiteral_eq_none hkey, hnil]
      rfl
  | some f =>
      obtain ⟨index, hindex⟩ := b.keyIndex?_of_key? hkey
      rw [← hoffered] at hindex
      obtain ⟨g, hg, hvalue⟩ := b.key?_value hindex
      obtain rfl := Option.some.inj (hkey.symm.trans hg)
      have hread : b.record.key = f.value := by
        rw [← key_value hkey, hvalue]
        exact Record.key_eq hindex
      rw [keyLiteral_eq hkey, hread]

/-! ## Assigned keys -/

/-- The first field that is flagged as the key is assigned to where the fields so flagged are. -/
theorem find?_becomes {v : Value} {fs gs : List (Field c)}
    (h : List.Forall₂ (fun f g => if f.descriptor.tag.isKey then f.Becomes v g else g = f) fs gs)
    {f : Field c} (hf : fs.find? (·.descriptor.tag.isKey) = some f) :
    ∃ cell, f.cell.assign v = .ok cell ∧
      gs.find? (·.descriptor.tag.isKey) = some { f with cell } := by
  induction h with
  | nil => cases hf
  | @cons x y xs ys hxy _ ih =>
      rw [List.find?_cons] at hf ⊢
      cases hflag : x.descriptor.tag.isKey with
      | true =>
          rw [hflag] at hf
          cases hf
          rw [if_pos hflag] at hxy
          obtain ⟨cell, hcell, rfl⟩ := hxy
          exact ⟨cell, hcell, by simp only [hflag]⟩
      | false =>
          rw [hflag] at hf
          rw [if_neg (by simp [hflag])] at hxy
          subst hxy
          simp only [hflag]
          exact ih hf

/-- A record is assigned a key through its key field, and its description then has that field. -/
theorem Bound.key?_of_assign (b : Bound c k) {v : Value}
    {columns : Columns c (c.model k).columnTypes}
    (h : (Cell.entity b.columns : Cell c (.entity k)).assign v = .ok (.entity columns)) :
    ∃ f cell, b.key? = some f ∧ f.cell.assign v.key = .ok cell ∧
      ({ b with columns } : Bound c k).key? = some { f with cell } := by
  rw [Cell.assign_entity] at h
  split at h
  · rename_i index hindex
    obtain ⟨columns', hcolumns, h⟩ := bind_eq_ok.1 h
    cases h
    obtain ⟨f, hf, -⟩ := b.key?_value hindex
    obtain ⟨d, hd, rfl, hflag⟩ := EntityModel.offeredKey?_descriptor b.described hindex
    obtain ⟨cell, hcell, hkey⟩ := find?_becomes (b.forall₂_assignKey hd hflag hcolumns) hf
    exact ⟨f, cell, hf, hcell, hkey⟩
  · cases h

/-- The two ways of reading a record's key agree. A record of a model that can be described and
offers all its columns binds; the key of the bound record and that of the record have the same
literal, or fail with errors of one class; and once the record is assigned a value, inside any
number of references, both have the literal of what the key field holds when it is assigned the
value without the references. -/
theorem Record.keys_agree (r : Record c) {ds : List (Descriptor n)}
    (hds : (c.model r.model).describe = .ok ds) (hderived : (c.model r.model).offered = none) :
    ∃ b : Bound c r.model, r.columns.bind = .ok b ∧
      b.keyLiteral.mapError (·.errorClass) = r.keyLiteral.mapError (·.errorClass) ∧
      ∀ (m : Nat) (v : Value) (columns : Columns c (c.model r.model).columnTypes),
        (Cell.entity r.columns : Cell c (.entity r.model)).assign (Value.reference^[m] v)
          = .ok (.entity columns) →
        ∃ (b' : Bound c r.model) (f : Field c) (cell : Cell c f.type),
          columns.bind = .ok b' ∧ b.key? = some f ∧ f.cell.assign v.key = .ok cell ∧
          b'.keyLiteral.mapError (·.errorClass) = cell.value.keyLiteral ∧
          (Record.mk r.model columns).keyLiteral.mapError (·.errorClass)
            = cell.value.keyLiteral := by
  have hoffered : (c.model r.model).offeredCount = ds.length := by
    rw [EntityModel.offeredCount_of_derived hderived, (EntityModel.describe_forall₂ hds).length_eq]
  let b : Bound c r.model := ⟨r.columns, ds, hds⟩
  refine ⟨b, Columns.bind_eq_ok_iff.2 ⟨rfl, hoffered⟩, b.keyLiteral_record hderived,
    fun m v columns h => ?_⟩
  obtain ⟨f, cell, hf, hcell, hkey⟩ := b.key?_of_assign h
  rw [Value.key_iterate] at hcell
  have hliteral := Bound.keyLiteral_eq hkey
  refine ⟨⟨columns, ds, hds⟩, f, cell, Columns.bind_eq_ok_iff.2 ⟨rfl, hoffered⟩, hf, hcell,
    hliteral, ?_⟩
  exact (Bound.keyLiteral_record hderived ⟨columns, ds, hds⟩).symm.trans hliteral

/-- A label has its code for a key, and the code that it is assigned inside two references. -/
theorem label_keys_agree :
    (∃ ds, (shelf.model 0).describe = .ok ds) ∧ (shelf.model 0).offered = none ∧
      (∃ b : Bound shelf 0, (label "a" "red").bind = .ok b ∧
        b.keyLiteral.mapError (·.errorClass) = .ok (.string "a")) ∧
      (Cell.entity (label "a" "red") : Cell shelf (.entity 0)).assign
        (.reference (.reference (.text "b"))) = .ok (.entity (label "b" "red")) ∧
      ∃ b : Bound shelf 0, (label "b" "red").bind = .ok b ∧
        b.keyLiteral.mapError (·.errorClass) = .ok (.string "b") := by
  have hdescribed : ∃ ds, (shelf.model 0).describe = .ok ds := by
    have hok : (shelf.model 0).describe.isOk = true := by decide +kernel
    cases h : (shelf.model 0).describe with
    | error e => rw [h] at hok; cases hok
    | ok ds => exact ⟨ds, rfl⟩
  obtain ⟨ds, hds⟩ := hdescribed
  have hassign : (Cell.entity (label "a" "red") : Cell shelf (.entity 0)).assign
      (.reference (.reference (.text "b"))) = .ok (.entity (label "b" "red")) := by
    rw [assign_label]
    rfl
  obtain ⟨b, hb, hagree, hassigned⟩ := Record.keys_agree ⟨0, label "a" "red"⟩ hds rfl
  obtain ⟨b', f, cell, hb', hf, hcell, hliteral, hrecord⟩ := hassigned 2 (.text "b") _ hassign
  exact ⟨⟨ds, hds⟩, rfl, ⟨b, hb, hagree⟩, hassign, b', hb', hliteral.trans hrecord.symm⟩

end EntityMapper
