import EntityMapper.Proofs.Number.Digits
import Mathlib.Tactic.Common

/-!
# The text of a date-time

The canonical text of a date-time is read back as the date-time without its fraction of a second
(`DateTime.ofText_text`), for every year from -9999 to 9999.
-/

namespace EntityMapper

/-- Characters that are not blank at either end stay when a text is trimmed. -/
theorem trimBlank_eq_self {cs : List Char} (hfirst : ∀ c ∈ cs.head?, isBlank c = false)
    (hlast : ∀ c ∈ cs.getLast?, isBlank c = false) : trimBlank cs = cs := by
  have hkeep : ∀ ds : List Char, (∀ c ∈ ds.head?, isBlank c = false) →
      ds.dropWhile isBlank = ds := by
    intro ds hds
    cases ds with
    | nil => rfl
    | cons d ds => rw [List.dropWhile_cons_of_neg (by simp [hds d rfl])]
  have hreverse : ∀ c ∈ cs.reverse.head?, isBlank c = false := by
    rw [List.head?_reverse]
    exact hlast
  rw [trimBlank, hkeep cs hfirst, hkeep cs.reverse hreverse, List.reverse_reverse]

/-- A digit is not blank. -/
theorem isBlank_of_isDigit {c : Char} (h : c.isDigit = true) : isBlank c = false := by
  obtain ⟨hlow, hhigh⟩ := digit_range h
  have hlow : 48 ≤ c.toNat := hlow
  have hhigh : c.toNat ≤ 57 := hhigh
  simp only [isBlank, inRanges, blankRanges, List.any_cons, List.any_nil, Bool.or_false,
    Bool.or_eq_false_iff, decide_eq_false_iff_not]
  omega

namespace DateTime

/-- The date-time without its fraction of a second. -/
def wholeSecond (t : DateTime) : DateTime :=
  { t with
    nanosecond := 0
    nanosecond_range := epoch.nanosecond_range }

/-- A written component is read back. -/
theorem readComponent_padded {c : Component} {width low high n : Nat} (hwidth : 0 < width)
    (hn : n < 10 ^ width) (hrange : low ≤ n ∧ n ≤ high) (rest : List Char) :
    readComponent c width low high ((padded width n).toList ++ rest) = .ok (⟨n, hrange⟩, rest) := by
  simp [readComponent, readDigits_padded hwidth hn, hrange]

/-- A padded number starts with a digit. -/
theorem padded_toList_cons (width n : Nat) (hwidth : 0 < width) (hn : n < 10 ^ width) :
    ∃ d ds, (padded width n).toList = d :: ds ∧ d.isDigit = true := by
  have hlength := padded_length hwidth hn
  have hpos : 0 < (padded width n).toList.length := by omega
  obtain ⟨d, ds, hds⟩ := List.exists_cons_of_length_pos hpos
  have hd : d ∈ (padded width n).toList := by simp [hds]
  exact ⟨d, ds, hds, isDigit_of_mem_padded hd⟩

/-- A padded number ends with a digit. -/
theorem padded_getLast? (width n : Nat) (hwidth : 0 < width) (hn : n < 10 ^ width) :
    ∃ d, (padded width n).toList.getLast? = some d ∧ d.isDigit = true := by
  obtain ⟨d, ds, hds, -⟩ := padded_toList_cons width n hwidth hn
  refine ⟨_, List.getLast?_eq_some_getLast (by simp [hds]), ?_⟩
  exact isDigit_of_mem_padded (List.getLast_mem _)

/-- The sign of a year. -/
def yearSign (year : Int) : List Char := if year < 0 then ['-'] else []

/-- A written year is read back. -/
theorem readYear_text {year : Int} (hyear : -9999 ≤ year ∧ year ≤ 9999) (rest : List Char) :
    readYear (yearSign year ++ ((padded 4 year.natAbs).toList ++ rest))
      = .ok (⟨year, hyear⟩, rest) := by
  have hread : readComponent .year 4 0 9999 ((padded 4 year.natAbs).toList ++ rest)
      = .ok (⟨year.natAbs, by omega⟩, rest) :=
    readComponent_padded (by decide) (by omega) (by omega) rest
  by_cases hnegative : year < 0
  · have hvalue : (-(year.natAbs : Int)) = year := by omega
    simp only [yearSign, hnegative, if_true, List.singleton_append, readYear, hread, bind,
      Except.bind, pure, Except.pure, hvalue]
  · have hvalue : (year.natAbs : Int) = year := by omega
    obtain ⟨d, ds, hds, hd⟩ := padded_toList_cons 4 year.natAbs (by decide) (by omega)
    -- Without a sign in front, the reader looks at the first digit.
    have hsign : d ≠ '-' ∧ d ≠ '+' := ⟨ne_of_isDigit hd rfl, ne_of_isDigit hd rfl⟩
    rw [hds] at hread
    simp only [yearSign, hnegative, if_false, List.nil_append, hds, List.cons_append] at hread ⊢
    unfold readYear
    split
    · rename_i heq
      exact absurd (List.cons.inj heq).1 hsign.1
    · rename_i heq
      exact absurd (List.cons.inj heq).1 hsign.2
    · rw [hread]
      simp only [bind, Except.bind, pure, Except.pure, hvalue]

/-- The characters of the canonical text. -/
theorem text_toList (t : DateTime) :
    t.text.toList = yearSign t.year ++ ((padded 4 t.year.natAbs).toList ++ '-' ::
      ((padded 2 t.month).toList ++ '-' :: ((padded 2 t.day).toList ++ ' ' ::
        ((padded 2 t.hour).toList ++ ':' :: ((padded 2 t.minute).toList ++ ':' ::
          ((padded 2 t.second).toList ++ [])))))) := by
  have hsign : (if t.year < 0 then "-" else "").toList = yearSign t.year := by
    unfold yearSign
    split <;> rfl
  simp [text, String.toList_append, hsign]

/-- No month has more than 31 days. -/
theorem daysInMonth_le (year : Int) (month : Nat) : daysInMonth year month ≤ 31 := by
  unfold daysInMonth
  repeat' split
  all_goals omega

/-- The canonical text is read back as the date-time without its fraction of a second. -/
theorem ofChars_text (t : DateTime) : ofChars t.text.toList = .ok t.wholeSecond := by
  have hmonth := t.month_range
  have hday : 1 ≤ t.day ∧ t.day ≤ 31 :=
    ⟨t.day_range.1, Nat.le_trans t.day_range.2 (daysInMonth_le _ _)⟩
  have hhour := t.hour_range
  have hminute := t.minute_range
  have hsecond : t.second ≤ 60 := Nat.le_succ_of_le t.second_range
  -- One reader for the parts of the date, which start at 1, and one for those of the clock.
  have hseparator : ∀ (c : Char) (cs : List Char), readSeparator c (c :: cs) = .ok cs := by
    intro c cs
    rw [readSeparator, if_pos rfl]
  have hdate : ∀ {c high n} (hrange : 1 ≤ n ∧ n ≤ high) (hn : n < 10 ^ 2) (rest : List Char),
      readComponent c 2 1 high ((padded 2 n).toList ++ rest) = .ok (⟨n, hrange⟩, rest) :=
    fun hrange hn rest => readComponent_padded (by decide) hn hrange rest
  have hclock : ∀ {c high n} (hhigh : n ≤ high) (hn : n < 10 ^ 2) (rest : List Char),
      readComponent c 2 0 high ((padded 2 n).toList ++ rest)
        = .ok (⟨n, Nat.zero_le n, hhigh⟩, rest) :=
    fun hhigh hn rest => readComponent_padded (by decide) hn ⟨Nat.zero_le _, hhigh⟩ rest
  rw [text_toList, ofChars, readYear_text t.year_range]
  simp only [bind, Except.bind, hseparator, hdate hmonth (by omega), hdate hday (by omega),
    hclock hhour (by omega), hclock hminute (by omega), hclock hsecond (by omega)]
  -- What is left are the checks that no single component makes.
  have hdayOfMonth := t.day_range
  have hsecondOfMinute := t.second_range
  simp only [ne_eq, not_true_eq_false, if_false, hdayOfMonth, hsecondOfMinute, dif_pos]
  rfl

/-- The canonical text starts with a sign or a digit. -/
theorem text_head (t : DateTime) : ∀ c ∈ t.text.toList.head?, isBlank c = false := by
  have hyear := t.year_range
  obtain ⟨d, ds, hds, hd⟩ := padded_toList_cons 4 t.year.natAbs (by decide) (by omega)
  rw [text_toList, hds, yearSign]
  split
  · intro c hc
    obtain rfl : '-' = c := Option.some.inj hc
    decide
  · intro c hc
    obtain rfl : d = c := Option.some.inj hc
    exact isBlank_of_isDigit hd

/-- The canonical text ends with a digit. -/
theorem text_getLast (t : DateTime) : ∀ c ∈ t.text.toList.getLast?, isBlank c = false := by
  have hsecond := t.second_range
  obtain ⟨d, hd, hdigit⟩ := padded_getLast? 2 t.second (by decide) (by omega)
  intro c hc
  rw [text, String.toList_append, List.getLast?_append, hd] at hc
  obtain rfl : d = c := Option.some.inj hc
  exact isBlank_of_isDigit hdigit

/-- The canonical text stands for the date-time without its fraction of a second. -/
theorem ofText_text (t : DateTime) : ofText t.text = .ok t.wholeSecond := by
  rw [ofText, trimBlank_eq_self t.text_head t.text_getLast, ofChars_text]

end DateTime

end EntityMapper
