import EntityMapper.Model.Tag
import Mathlib.Tactic.Common

/-!
# Tags of one word

A text without spaces names a column and flags nothing: it is read as the tag of a column of that
name when columns can have the name (`FieldTag.parse_columnName`), and refused otherwise
(`FieldTag.parse_word`).
-/

namespace EntityMapper

/-- Whether columns can have a name. -/
def IsColumnName (name : String) : Prop := name ≠ "" ∧ name.toList.all isNameChar = true

instance (name : String) : Decidable (IsColumnName name) := by
  unfold IsColumnName; infer_instance

/-- The characters of column names belong to ASCII. -/
theorem toNat_lt_of_isNameChar {c : Char} (h : isNameChar c = true) : c.toNat < 0x80 := by
  -- Letters and digits form three intervals, of which only the upper ends matter here.
  have below {last : Char} (hc : c.val ≤ last.val) (hlast : last.toNat < 0x80) : c.toNat < 0x80 :=
    Nat.lt_of_le_of_lt (UInt32.le_iff_toNat_le.1 hc) hlast
  have hupper : c.isUpper = true → c.val ≤ 'Z'.val := fun h => (of_decide_eq_true h).2
  have hlower : c.isLower = true → c.val ≤ 'z'.val := fun h =>
    of_decide_eq_true (Bool.and_eq_true_iff.1 h).2
  have hdigit : c.isDigit = true → c.val ≤ '9'.val := fun h =>
    of_decide_eq_true (Bool.and_eq_true_iff.1 h).2
  rcases Bool.or_eq_true_iff.1 h with h | h
  · rcases Bool.or_eq_true_iff.1 h with h | h
    · rcases Bool.or_eq_true_iff.1 h with h | h
      · exact below (hupper h) (by decide)
      · exact below (hlower h) (by decide)
    · exact below (hdigit h) (by decide)
  · rw [beq_iff_eq.1 h]
    decide

namespace IsColumnName

variable {name : String}

/-- A column name is one word. -/
theorem space_not_mem (h : IsColumnName name) : ' ' ∉ name.toList := by
  intro hspace
  have hchar : isNameChar ' ' = true := List.all_eq_true.1 h.2 ' ' hspace
  revert hchar
  decide

/-- No character of a column name lies beyond ASCII. -/
theorem toNat_lt (h : IsColumnName name) {c : Char} (hc : c ∈ name.toList) : c.toNat < 0x80 :=
  toNat_lt_of_isNameChar (List.all_eq_true.1 h.2 c hc)

end IsColumnName

namespace FieldTag

variable {name : String}

/-- A text without spaces is one word. -/
theorem words_of_space_not_mem {cs : List Char} (h : ' ' ∉ cs) : words cs = [cs] := by
  induction cs with
  | nil => rfl
  | cons c cs ih =>
      rw [List.mem_cons, not_or] at h
      rw [words, if_neg (Ne.symm h.1), ih h.2]

/-- The tag of a column without flags. -/
def ofName (name : String) (h : IsColumnName name) : FieldTag where
  name := name
  isKey := false
  isAuto := false
  name_ne := h.1
  name_chars := h.2

/-- A column name is read as the tag of that column, without flags. -/
theorem parse_columnName (h : IsColumnName name) : parse name = .ok (ofName name h) := by
  have hwords : words name.toList = [name.toList] := words_of_space_not_mem h.space_not_mem
  simp [parse, flags, hwords, h.1, h.2, ofName]

/-- A word that is no column name is refused as such. -/
theorem parse_word (hne : name ≠ "") (hspace : ' ' ∉ name.toList) (hname : ¬ IsColumnName name) :
    parse name = .error (.invalidName name) := by
  have hwords : words name.toList = [name.toList] := words_of_space_not_mem hspace
  have hchars : ¬ name.toList.all isNameChar = true := fun hchars => hname ⟨hne, hchars⟩
  simp [parse, hwords, hne, hchars]

end FieldTag

end EntityMapper
