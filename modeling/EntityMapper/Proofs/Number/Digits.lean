import EntityMapper.Calendar.DateTime
import EntityMapper.Json.Number
import Mathlib.Algebra.Group.Nat.Defs

/-!
# Decimal digits

The digits that a natural number is written with, and the three readers of digits: the value of a
run of characters, the run of digits at the start of a text (`Json.digits_append`), and a fixed
number of digits (`DateTime.readDigits_append`). All of them read back what was written.
-/

namespace EntityMapper

/-- The digits of a natural number are digits. -/
theorem isDigit_of_mem_repr {n : Nat} {c : Char} (h : c ∈ n.repr.toList) : c.isDigit = true := by
  rw [Nat.toList_repr] at h
  exact Nat.isDigit_of_mem_toDigits (by decide) (by decide) h

/-- A natural number has digits. -/
theorem repr_toList_ne_nil (n : Nat) : n.repr.toList ≠ [] := by
  rw [Nat.toList_repr]
  exact Nat.toDigits_ne_nil

/-- The digits of a natural number stand for it. -/
theorem ofDigitChars_repr (n : Nat) : Nat.ofDigitChars 10 n.repr.toList 0 = n := by
  rw [Nat.toList_repr, Nat.ofDigitChars_ten_toDigits]

/-- A positive number does not start with a zero. -/
theorem toDigits_head_ne_zero {n : Nat} (h : 0 < n) : (Nat.toDigits 10 n).head? ≠ some '0' := by
  induction n using Nat.strongRecOn with
  | ind n ih =>
      by_cases hsmall : n < 10
      · rw [Nat.toDigits_of_lt_base hsmall, List.head?_cons, ne_eq, Option.some.injEq,
          Nat.digitChar_eq_zero]
        omega
      · have hshort := ih (n / 10) (by omega) (by omega)
        have hne : Nat.toDigits 10 (n / 10) ≠ [] := Nat.toDigits_ne_nil
        obtain ⟨d, ds, hds⟩ := List.exists_cons_of_ne_nil hne
        rw [Nat.toDigits_of_base_le (by decide) (by omega), hds]
        rw [hds] at hshort
        exact hshort

/-- A digit is none of the other characters. -/
theorem ne_of_isDigit {c d : Char} (hc : c.isDigit = true) (hd : d.isDigit = false) : c ≠ d := by
  rintro rfl
  rw [hc] at hd
  cases hd

/-- A digit is one of the ten. -/
theorem digit_range {c : Char} (h : c.isDigit = true) : '0' ≤ c ∧ c ≤ '9' := by
  simpa [Char.isDigit, Char.le_def] using h

namespace Json

/-- Whether a text starts with something else than a digit. -/
def EndsDigits (cs : List Char) : Prop := ∀ c ∈ cs.head?, c.isDigit = false

/-- A run of digits is read up to its end. -/
theorem digits_append {ds rest : List Char} (hds : ∀ c ∈ ds, c.isDigit = true)
    (hrest : EndsDigits rest) :
    digits (ds ++ rest) = (ds.map fun c => c.toNat - '0'.toNat, rest) := by
  induction ds with
  | nil =>
      cases rest with
      | nil => rfl
      | cons c rest =>
          have hc : c.isDigit = false := hrest c rfl
          simp [digits, hc]
  | cons d ds ih =>
      have hd : d.isDigit = true := hds d List.mem_cons_self
      have htail := ih fun c hc => hds c (List.mem_cons_of_mem _ hc)
      simp [digits, hd, htail]

/-- The number of a run of digits is that of its characters. -/
theorem ofDigits_map (cs : List Char) :
    ofDigits (cs.map fun c => c.toNat - '0'.toNat) = Nat.ofDigitChars 10 cs 0 := by
  rw [ofDigits, List.foldl_map, Nat.ofDigitChars_eq_foldl]

/-- The digits of a number are read up to their end, and no other number has them. -/
theorem wholeDigits_repr (n : Nat) {rest : List Char} (hrest : EndsDigits rest) :
    ∃ ds, wholeDigits (n.repr.toList ++ rest) = some (ds, rest) ∧ ofDigits ds = n := by
  refine ⟨n.repr.toList.map fun c => c.toNat - '0'.toNat, ?_, by
    rw [ofDigits_map, ofDigitChars_repr]⟩
  -- A zero before other digits is no numeral, so the first of several digits is told from zero.
  have hstart : ∀ d e ds, n.repr.toList = d :: e :: ds → d.toNat - '0'.toNat ≠ 0 := by
    intro d e ds hds hzero
    have hdigit := digit_range (isDigit_of_mem_repr (n := n) (c := d) (by simp [hds]))
    have hlow : '0'.toNat ≤ d.toNat := hdigit.1
    have hd : d = '0' := Char.toNat_inj.1 (by omega)
    by_cases hn : 0 < n
    · refine toDigits_head_ne_zero hn ?_
      rw [← Nat.toList_repr, hds, List.head?_cons, hd]
    · obtain rfl : n = 0 := by omega
      have hlone : (Nat.repr 0).toList = ['0'] := by decide
      rw [hlone] at hds
      cases hds
  unfold wholeDigits
  rw [digits_append (fun c hc => isDigit_of_mem_repr hc) hrest]
  split
  · rename_i heq
    have hnil : n.repr.toList = [] := by simpa using (Prod.mk.inj heq).1
    exact absurd hnil (repr_toList_ne_nil n)
  · rename_i heq
    obtain ⟨d, ds, hds, hd, hrest⟩ := List.map_eq_cons_iff.1 (Prod.mk.inj heq).1
    obtain ⟨e, ds, rfl, -⟩ := List.map_eq_cons_iff.1 hrest
    exact absurd hd (hstart d e ds hds)
  · rename_i heq
    cases heq
    rfl

end Json

namespace DateTime

/-- The value of a digit. -/
theorem digitValue?_of_isDigit {c : Char} (h : c.isDigit = true) :
    digitValue? c = some (c.toNat - '0'.toNat) := by
  simp [digitValue?, digit_range h]

/-- As many digits as there are stand for the number of their characters. -/
theorem readDigits_append {cs : List Char} (hcs : ∀ c ∈ cs, c.isDigit = true)
    (rest : List Char) (soFar : Nat) :
    readDigits cs.length soFar (cs ++ rest) = some (Nat.ofDigitChars 10 cs soFar, rest) := by
  induction cs generalizing soFar with
  | nil => rfl
  | cons c cs ih =>
      have hc := digitValue?_of_isDigit (hcs c List.mem_cons_self)
      have htail := ih (fun d hd => hcs d (List.mem_cons_of_mem _ hd))
        (10 * soFar + (c.toNat - '0'.toNat))
      simp only [List.length_cons, List.cons_append, readDigits, hc, Nat.ofDigitChars_cons]
      exact htail

/-- A number that fits a width is written with that many digits. -/
theorem padded_length {width n : Nat} (hwidth : 0 < width) (h : n < 10 ^ width) :
    (padded width n).toList.length = width := by
  have hdigits : n.repr.toList.length ≤ width := by
    rw [Nat.toList_repr]
    exact (Nat.length_toDigits_le_iff (by decide) hwidth).2 h
  rw [padded, String.toList_ofList, List.leftpad, List.length_append, List.length_replicate]
  omega

/-- Padding with zeros adds digits only. -/
theorem isDigit_of_mem_padded {width n : Nat} {c : Char} (h : c ∈ (padded width n).toList) :
    c.isDigit = true := by
  rw [padded, String.toList_ofList, List.leftpad, List.mem_append] at h
  rcases h with h | h
  · rw [List.eq_of_mem_replicate h]
    decide
  · exact isDigit_of_mem_repr h

/-- Padding with zeros does not change the number. -/
theorem ofDigitChars_padded (width n : Nat) :
    Nat.ofDigitChars 10 (padded width n).toList 0 = n := by
  rw [padded, String.toList_ofList, List.leftpad, Nat.ofDigitChars_append,
    Nat.ofDigitChars_replicate_zero, Nat.mul_zero, ofDigitChars_repr]

/-- A padded number is read back. -/
theorem readDigits_padded {width n : Nat} (hwidth : 0 < width) (h : n < 10 ^ width)
    (rest : List Char) :
    readDigits width 0 ((padded width n).toList ++ rest) = some (n, rest) := by
  have hdigits : ∀ c ∈ (padded width n).toList, c.isDigit = true := fun c hc =>
    isDigit_of_mem_padded hc
  have hread := readDigits_append hdigits rest 0
  rwa [padded_length hwidth h, ofDigitChars_padded] at hread

end DateTime

end EntityMapper
