import EntityMapper.Proofs.Checked
import EntityMapper.Proofs.Sql.Quoting

/-!
# Reading literals back

What a database that takes a backslash as the start of an escape makes of a literal: a quoted text
stands for what it is read as (`readString`), and a number is signed when it is negative and
unsigned otherwise.
-/

namespace EntityMapper.Sql

/-- The value that a literal without a point is read as. -/
def readLiteral (text : String) : Value :=
  match readString .escapes text.toList with
  | some (read, _) => .text (String.ofList read)
  | none =>
      match text.toList with
      | '-' :: ds => .int (Int64.ofInt (-(Nat.ofDigitChars 10 ds 0 : Int)))
      | ds => .uint (UInt64.ofNat (Nat.ofDigitChars 10 ds 0))

/-- The value under a column that is given a literal, or none. -/
def readBack : Option Literal → Value
  | none => .nil
  | some l => readLiteral l.text

/-- No literal is read as nil. -/
theorem isNil_readLiteral (text : String) : (readLiteral text).isNil = false := by
  unfold readLiteral
  split
  · rfl
  · split <;> rfl

/-- A quoted text is read as the text. -/
theorem readLiteral_quote (s : String) : readLiteral (quote s) = .text s := by
  simp only [readLiteral, readString_quote_self, BackslashMode.decoded, String.ofList_toList]

/-- A negative integer is read as a signed number. -/
theorem readLiteral_negative {n : Int} (h : n < 0) :
    readLiteral (integerText n) = .int (Int64.ofInt n) := by
  have htext : (integerText n).toList = '-' :: n.natAbs.repr.toList := by
    rw [integerText, String.toList_append, decide_eq_true h]
    rfl
  have hvalue : -(n.natAbs : Int) = n := by omega
  have hnone : readString .escapes ('-' :: n.natAbs.repr.toList) = none :=
    readString_cons (by decide)
  simp only [readLiteral, htext, hnone, ofDigitChars_repr, hvalue]

/-- Any other integer is read as an unsigned number. -/
theorem readLiteral_nonneg {n : Int} (h : 0 ≤ n) :
    readLiteral (integerText n) = .uint (UInt64.ofNat n.toNat) := by
  have htext : (integerText n).toList = n.natAbs.repr.toList := by
    rw [integerText, String.toList_append, decide_eq_false (by omega)]
    rfl
  obtain ⟨d, ds, hds⟩ := List.exists_cons_of_ne_nil (repr_toList_ne_nil n.natAbs)
  have hd : d.isDigit = true := isDigit_of_mem_repr (n := n.natAbs) (by simp [hds])
  -- The first character decides how a literal is read, and here it is a digit.
  have hquote : readString .escapes n.natAbs.repr.toList = none := by
    rw [hds, readString_cons (ne_of_isDigit hd rfl)]
  have hsign : d ≠ '-' := ne_of_isDigit hd rfl
  have hvalue : n.natAbs = n.toNat := by omega
  rw [readLiteral, htext, hquote, ← hvalue]
  dsimp only
  split
  · rename_i heq
    rw [hds] at heq
    exact absurd (List.cons.inj heq).1 hsign
  · rw [ofDigitChars_repr]

end EntityMapper.Sql

namespace EntityMapper

/-- A value has a literal exactly when it is not nil. -/
theorem Value.isNil_of_literal? {v : Value} {l : Option Sql.Literal} (h : v.literal? = .ok l) :
    v.isNil = l.isNone := by
  cases v with
  | float x =>
      unfold literal? at h
      split at h <;> cases h
      rfl
  | reference inner =>
      obtain ⟨m, -, hm⟩ := bind_eq_ok.1 h
      cases m with
      | none => cases hm
      | some literal =>
          cases hm
          rfl
  | list items =>
      obtain ⟨m, -, hm⟩ := bind_eq_ok.1 h
      cases hm
      rfl
  | _ =>
      cases h
      rfl

end EntityMapper
