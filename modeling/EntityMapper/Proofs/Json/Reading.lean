import EntityMapper.Json.Parser
import EntityMapper.Json.Printer
import EntityMapper.Proofs.Number.Digits
import Mathlib.Tactic.Common

/-!
# Reading JSON text back

The text of an array of texts, truth values and integers is read back as the same array
(`Json.parse?_array`): strings by one step per escaped character, numbers by their digits, and the
items one after the other.
-/

namespace EntityMapper.Json

/-! ## Strings -/

/-- A digit of base sixteen is read back. -/
theorem hexValue?_hexDigit : ∀ n < 16, hexValue? (hexDigit n) = some n := by decide

/-- A control character is read back from its code. -/
theorem stringToken?_codeEscape {c : Char} (h : c.toNat < 0x20) (cs : List Char) :
    stringToken? (codeEscape c ++ cs) = some (.char c, cs) := by
  have hdigit : ∀ m, hexValue? (hexDigit (m % 16)) = some (m % 16) := fun m =>
    hexValue?_hexDigit _ (Nat.mod_lt _ (by decide))
  -- The four digits stand for the code, which is too small to be half of a surrogate pair.
  have hunit : ((c.toNat / 4096 % 16 * 16 + c.toNat / 256 % 16) * 16 + c.toNat / 16 % 16) * 16 +
      c.toNat / 1 % 16 = c.toNat := by omega
  have hhigh : isHighSurrogate c.toNat = false := by
    simp only [isHighSurrogate, decide_eq_false_iff_not]
    omega
  have hlow : isLowSurrogate c.toNat = false := by
    simp only [isLowSurrogate, decide_eq_false_iff_not]
    omega
  have hread : unit? (hexDigit (c.toNat / 4096 % 16)) (hexDigit (c.toNat / 256 % 16))
      (hexDigit (c.toNat / 16 % 16)) (hexDigit (c.toNat / 1 % 16)) = some c.toNat := by
    simp only [unit?, hdigit, bind, Option.bind, pure]
    rw [hunit]
  simp only [codeEscape, List.map_cons, List.map_nil, List.cons_append, List.nil_append]
  rw [stringToken?, hread]
  simp [hhigh, hlow]

/-- How a character stands inside a string: as an escape of one letter, by its code, or as it
is. -/
theorem escaped_cases (c : Char) :
    (∃ e, escaped c = ['\\', e] ∧ e ≠ 'u' ∧ simpleEscape? e = some c) ∨
      (c.toNat < 0x20 ∧ escaped c = codeEscape c) ∨
      (escaped c = [c] ∧ c ≠ '"' ∧ c ≠ '\\' ∧ ¬ c.toNat < 0x20) := by
  have hcode : ∀ n, c.toNat = n → Char.ofNat n = c := fun n hn => by rw [← hn, Char.ofNat_toNat]
  unfold escaped
  split_ifs with hquote hbackslash hline hreturn htab hbackspace hfeed hcontrol
  · exact .inl ⟨'"', rfl, by decide, by rw [hquote]; rfl⟩
  · exact .inl ⟨'\\', rfl, by decide, by rw [hbackslash]; rfl⟩
  · exact .inl ⟨'n', rfl, by decide, by rw [hline]; rfl⟩
  · exact .inl ⟨'r', rfl, by decide, by rw [hreturn]; rfl⟩
  · exact .inl ⟨'t', rfl, by decide, by rw [htab]; rfl⟩
  · exact .inl ⟨'b', rfl, by decide, congrArg some (hcode _ hbackspace)⟩
  · exact .inl ⟨'f', rfl, by decide, congrArg some (hcode _ hfeed)⟩
  · exact .inr (.inl ⟨hcontrol, rfl⟩)
  · exact .inr (.inr ⟨rfl, hquote, hbackslash, hcontrol⟩)

/-- An escaped character is read back as itself. -/
theorem stringToken?_escaped (c : Char) (cs : List Char) :
    stringToken? (escaped c ++ cs) = some (.char c, cs) := by
  rcases escaped_cases c with ⟨e, hescaped, hunicode, hsimple⟩ | ⟨hcontrol, hescaped⟩ |
    ⟨hescaped, hquote, hbackslash, hcontrol⟩
  · rw [hescaped, List.cons_append, List.singleton_append, stringToken?.eq_def]
    simp [hunicode, hsimple]
  · rw [hescaped]
    exact stringToken?_codeEscape hcontrol cs
  · rw [hescaped, List.singleton_append, stringToken?.eq_def]
    simp [hbackslash, hcontrol]

/-- Escaping makes no text shorter. -/
theorem length_le_escaped (cs : List Char) : cs.length ≤ (cs.flatMap escaped).length := by
  induction cs with
  | nil => simp
  | cons c cs ih =>
      have hc : 0 < (escaped c).length := by
        rcases escaped_cases c with ⟨e, hescaped, -, -⟩ | ⟨-, hescaped⟩ | ⟨hescaped, -, -, -⟩ <;>
          simp [hescaped, codeEscape]
      rw [List.flatMap_cons, List.length_append, List.length_cons]
      omega

/-- Escaped characters up to a quotation mark are read back. -/
theorem stringRest_escaped {bound : Nat} (cs rest : List Char) (hbound : cs.length < bound) :
    stringRest bound (cs.flatMap escaped ++ '"' :: rest) = some (cs, rest) := by
  induction cs generalizing bound with
  | nil =>
      obtain ⟨bound, rfl⟩ := Nat.exists_eq_succ_of_ne_zero (Nat.ne_of_gt hbound)
      rfl
  | cons c cs ih =>
      obtain ⟨bound, rfl⟩ := Nat.exists_eq_succ_of_ne_zero (Nat.ne_of_gt (Nat.zero_lt_of_lt hbound))
      have hrest : stringRest bound (cs.flatMap escaped ++ '"' :: rest) = some (cs, rest) :=
        ih (by simpa using hbound)
      rw [List.flatMap_cons, List.append_assoc, stringRest, stringToken?_escaped]
      simp only [bind, Option.bind, hrest]

/-- The text of a string is read back. -/
theorem string?_text (s : String) (rest : List Char) :
    string? ((stringText s).toList ++ rest) = some (s, rest) := by
  have hlength := length_le_escaped s.toList
  have hbound : s.toList.length < (s.toList.flatMap escaped ++ '"' :: rest).length := by
    rw [List.length_append, List.length_cons]
    omega
  have hread := stringRest_escaped s.toList rest hbound
  simp only [stringText, String.toList_ofList, List.cons_append, List.append_assoc,
    List.nil_append, string?, hread, Option.map_some, String.ofList_toList]

/-! ## Numbers -/

/-- Whether a text starts with what follows an item of an array. -/
def EndsItem (cs : List Char) : Prop := ∃ c rest, cs = c :: rest ∧ (c = ',' ∨ c = ']')

/-- What follows an item is no digit. -/
theorem EndsItem.endsDigits {cs : List Char} (h : EndsItem cs) : EndsDigits cs := by
  obtain ⟨c, rest, rfl, hc⟩ := h
  intro d hd
  obtain rfl : c = d := Option.some.inj hd
  rcases hc with rfl | rfl <;> decide

/-- Digits without a point or an exponent behind them are a whole numeral. -/
theorem fraction_exponent_absent {cs : List Char} (h : EndsItem cs) :
    fractionDigits cs = some (none, cs) ∧ exponentPart cs = some (none, cs) := by
  obtain ⟨c, rest, rfl, hc⟩ := h
  rcases hc with rfl | rfl <;> exact ⟨rfl, rfl⟩

/-- The text of a natural number is read back. -/
theorem number?_natural (n : UInt64) {rest : List Char} (h : EndsItem rest) :
    number? ((Number.natural n).text.toList ++ rest) = some (.natural n, rest) := by
  obtain ⟨ds, hwhole, hvalue⟩ := wholeDigits_repr n.toNat h.endsDigits
  obtain ⟨hfraction, hexponent⟩ := fraction_exponent_absent h
  obtain ⟨d, cs, hds⟩ := List.exists_cons_of_ne_nil (repr_toList_ne_nil n.toNat)
  have hd : d.isDigit = true := isDigit_of_mem_repr (n := n.toNat) (by simp [hds])
  have hsign : d ≠ '-' := ne_of_isDigit hd rfl
  have hnumeral : numeral (n.toNat.repr.toList ++ rest) = some (⟨false, ds, none, none⟩, rest) := by
    rw [hds, List.cons_append] at hwhole ⊢
    simp [numeral, hsign, hwhole, hfraction, hexponent]
  have hlt : n.toNat < Nat.pow 2 64 := n.toNat_lt
  have hinteger : Numeral.integer? ⟨false, ds, none, none⟩ = some (.natural n) := by
    simp [Numeral.integer?, hvalue, hlt]
  rw [number?, Number.text, hnumeral]
  simp [hinteger]

/-- The text of a negative number is read back. -/
theorem number?_negative (n : Int64) (hn : n < 0) {rest : List Char} (h : EndsItem rest) :
    number? ((Number.negative n hn).text.toList ++ rest) = some (.negative n hn, rest) := by
  obtain ⟨ds, hwhole, hvalue⟩ := wholeDigits_repr n.toInt.natAbs h.endsDigits
  obtain ⟨hfraction, hexponent⟩ := fraction_exponent_absent h
  have hnumeral : numeral ('-' :: (n.toInt.natAbs.repr.toList ++ rest))
      = some (⟨true, ds, none, none⟩, rest) := by
    simp only [numeral, hwhole, hfraction, hexponent, bind, Option.bind, pure]
  have hneg : n.toInt < 0 := by
    have h := Int64.lt_iff_toInt_lt.1 hn
    simpa using h
  have hword : Int64.ofInt (-(n.toInt.natAbs : Int)) = n := by
    have hmagnitude : -(n.toInt.natAbs : Int) = n.toInt := by omega
    rw [hmagnitude, Int64.ofInt_toInt]
  have hle : n.toInt.natAbs ≤ Nat.pow 2 63 := by
    have h := n.le_toInt
    have hlimit : (-2 ^ 63 : Int) ≤ n.toInt := h
    show n.toInt.natAbs ≤ 2 ^ 63
    omega
  have hinteger : Numeral.integer? ⟨true, ds, none, none⟩ = some (.negative n hn) := by
    simp only [Numeral.integer?, Option.isSome_none, Bool.false_eq_true, or_self, if_false,
      hvalue, hword, hn, hle, if_true, dif_pos]
  have htext : (Number.negative n hn).text.toList ++ rest
      = '-' :: (n.toInt.natAbs.repr.toList ++ rest) := by
    rw [Number.text, String.toList_append]
    rfl
  rw [number?, htext, hnumeral]
  simp [hinteger]

/-! ## Items and arrays -/

/-- Whether a document is a text, a truth value, an integer or nothing. -/
def IsPlain : Json → Prop
  | .null | .bool _ | .string _ | .number (.natural _) | .number (.negative _ _) => True
  | .number (.float _ _) | .array _ | .object _ => False

/-- A document that starts neither with a blank nor with a bracket is a scalar. -/
theorem value?_scalar {depth : Nat} {c : Char} (cs : List Char) (hspace : isSpace c = false)
    (hbracket : c ≠ '[') (hbrace : c ≠ '\x7b') : value? depth (c :: cs) = scalar? (c :: cs) := by
  have hskip : skipSpaces (c :: cs) = c :: cs := by
    rw [skipSpaces, List.dropWhile_cons_of_neg (by simp [hspace])]
  rw [value?.eq_def]
  simp only [hskip]
  split
  · rename_i heq
    exact absurd (List.cons.inj heq).1 hbracket
  · rename_i heq
    exact absurd (List.cons.inj heq).1 hbrace
  · rfl

/-- A digit is not blank. -/
theorem isSpace_of_isDigit {c : Char} (h : c.isDigit = true) : isSpace c = false := by
  by_contra hspace
  simp only [isSpace, Bool.not_eq_false, Bool.or_eq_true, decide_eq_true_eq] at hspace
  rcases hspace with ((rfl | rfl) | rfl) | rfl <;> revert h <;> decide

/-- A text that starts with a digit or a sign is read as a number. -/
theorem scalar?_number {c : Char} (cs : List Char) (h : c.isDigit = true ∨ c = '-') :
    scalar? (c :: cs) = (number? (c :: cs)).map fun (n, rest) => (.number n, rest) := by
  have hword : c ≠ 'n' ∧ c ≠ 't' ∧ c ≠ 'f' ∧ c ≠ '"' := by
    refine ⟨?_, ?_, ?_, ?_⟩ <;> rintro rfl <;> revert h <;> decide
  rw [scalar?.eq_def]
  simp [hword]

/-- A number is read as a document. -/
theorem value?_number {depth : Nat} {n : Number} {text rest : List Char}
    (hstart : ∃ c cs, text = c :: cs ∧ (c.isDigit = true ∨ c = '-'))
    (hread : number? (text ++ rest) = some (n, rest)) :
    value? depth (text ++ rest) = some (.number n, rest) := by
  obtain ⟨c, cs, rfl, hc⟩ := hstart
  have hother : isSpace c = false ∧ c ≠ '[' ∧ c ≠ '\x7b' := by
    rcases hc with hc | rfl
    · exact ⟨isSpace_of_isDigit hc, ne_of_isDigit hc rfl, ne_of_isDigit hc rfl⟩
    · decide
  rw [List.cons_append] at hread ⊢
  rw [value?_scalar _ hother.1 hother.2.1 hother.2.2, scalar?_number _ hc, hread]
  rfl

/-- An integer starts with a digit or a sign. -/
theorem Number.text_start {n : Number} (h : IsPlain (.number n)) :
    ∃ c cs, n.text.toList = c :: cs ∧ (c.isDigit = true ∨ c = '-') := by
  cases n with
  | natural n =>
      obtain ⟨d, ds, hds⟩ := List.exists_cons_of_ne_nil (repr_toList_ne_nil n.toNat)
      exact ⟨d, ds, hds, .inl (isDigit_of_mem_repr (n := n.toNat) (by simp [hds]))⟩
  | negative n hn =>
      refine ⟨'-', n.toInt.natAbs.repr.toList, ?_, .inr rfl⟩
      rw [Number.text, String.toList_append]
      rfl
  | float x hx => exact h.elim

/-- The text of a plain document is read back. -/
theorem value?_text {j : Json} (hj : IsPlain j) {depth : Nat} {rest : List Char}
    (h : EndsItem rest) : value? depth (j.text.toList ++ rest) = some (j, rest) := by
  cases j with
  | null =>
      show value? depth ('n' :: 'u' :: 'l' :: 'l' :: rest) = _
      rw [value?_scalar _ (by decide) (by decide) (by decide)]
      simp [scalar?, word?]
  | bool b =>
      cases b with
      | true =>
          show value? depth ('t' :: 'r' :: 'u' :: 'e' :: rest) = _
          rw [value?_scalar _ (by decide) (by decide) (by decide)]
          simp [scalar?, word?]
      | false =>
          show value? depth ('f' :: 'a' :: 'l' :: 's' :: 'e' :: rest) = _
          rw [value?_scalar _ (by decide) (by decide) (by decide)]
          simp [scalar?, word?]
  | string s =>
      have hread := string?_text s rest
      have htext : (stringText s).toList ++ rest
          = '"' :: (s.toList.flatMap escaped ++ '"' :: rest) := by
        simp [stringText]
      show value? depth ((stringText s).toList ++ rest) = _
      rw [htext] at hread ⊢
      rw [value?_scalar _ (by decide) (by decide) (by decide), scalar?, hread]
      rfl
  | number m =>
      have hstart := Number.text_start hj
      cases m with
      | natural n => exact value?_number hstart (number?_natural n h)
      | negative n hn => exact value?_number hstart (number?_negative n hn h)
      | float x hx => exact hj.elim
  | array items => exact hj.elim
  | object members => exact hj.elim

/-- The items of an array are read back one after the other. -/
theorem items?_text {depth bound : Nat} {items : List Json} (hne : items ≠ [])
    (hitems : ∀ j ∈ items, IsPlain j) (hbound : items.length ≤ bound) (rest : List Char) :
    items? (value? depth) bound ((String.intercalate "," (itemTexts items)).toList ++ ']' :: rest)
      = some (items, rest) := by
  induction items generalizing bound with
  | nil => exact absurd rfl hne
  | cons j items ih =>
      obtain ⟨bound, rfl⟩ := Nat.exists_eq_succ_of_ne_zero (n := bound) (by
        rintro rfl
        simp at hbound)
      have hj := hitems j List.mem_cons_self
      have hbracket : skipSpaces (']' :: rest) = ']' :: rest := rfl
      -- The last item is followed by the closing bracket, every other one by a comma.
      cases items with
      | nil =>
          have hread : value? depth (j.text.toList ++ ']' :: rest) = some (j, ']' :: rest) :=
            value?_text hj ⟨']', rest, rfl, .inr rfl⟩
          simp only [itemTexts, String.intercalate_singleton, items?, hread, bind, Option.bind]
          rw [hbracket]
          rfl
      | cons next items =>
          have hshort : (next :: items).length ≤ bound := by simpa using hbound
          have hlater := ih (by simp) (fun i hi => hitems i (List.mem_cons_of_mem _ hi)) hshort
          have htext :
              (String.intercalate "," (itemTexts (j :: next :: items))).toList ++ ']' :: rest
                = j.text.toList ++ ',' ::
                  ((String.intercalate "," (itemTexts (next :: items))).toList ++ ']' :: rest) := by
            simp only [itemTexts, String.intercalate_cons_cons, String.toList_append,
              List.append_assoc]
            rfl
          have hread : ∀ cs, value? depth (j.text.toList ++ ',' :: cs) = some (j, ',' :: cs) :=
            fun cs => value?_text hj ⟨',', cs, rfl, .inl rfl⟩
          have hcomma : ∀ cs, skipSpaces (',' :: cs) = ',' :: cs := fun cs => rfl
          rw [htext]
          simp only [items?, hread, bind, Option.bind, hcomma, hlater]

/-- An array has at most one item more than its text has characters between the brackets. -/
theorem length_le_itemTexts (items : List Json) :
    items.length ≤ (String.intercalate "," (itemTexts items)).toList.length + 1 := by
  induction items with
  | nil => simp
  | cons j items ih =>
      cases items with
      | nil => simp
      | cons next items =>
          have hcomma : ",".toList.length = 1 := rfl
          simp only [itemTexts, String.intercalate_cons_cons, String.toList_append,
            List.length_append, List.length_cons, hcomma] at ih ⊢
          omega

/-- The text of a plain document starts with neither a blank nor a closing bracket. -/
theorem text_start {j : Json} (hj : IsPlain j) :
    ∃ c cs, j.text.toList = c :: cs ∧ isSpace c = false ∧ c ≠ ']' := by
  cases j with
  | null => exact ⟨'n', _, rfl, by decide, by decide⟩
  | bool b => cases b <;> exact ⟨_, _, rfl, by decide, by decide⟩
  | string s =>
      refine ⟨'"', s.toList.flatMap escaped ++ ['"'], ?_, by decide, by decide⟩
      simp [text, stringText]
  | number n =>
      obtain ⟨c, cs, htext, hc⟩ := Number.text_start hj
      refine ⟨c, cs, htext, ?_⟩
      rcases hc with hc | rfl
      · exact ⟨isSpace_of_isDigit hc, ne_of_isDigit hc rfl⟩
      · decide
  | array items => exact hj.elim
  | object members => exact hj.elim

/-- The text of an array of plain documents is read back. -/
theorem parse?_array {items : List Json} (hitems : ∀ j ∈ items, IsPlain j) :
    parse? (array items).text = some (array items) := by
  have htext : (array items).text.toList
      = '[' :: ((String.intercalate "," (itemTexts items)).toList ++ [']']) := by
    rw [text, String.toList_append, String.toList_append]
    rfl
  have hopen : ∀ cs, skipSpaces ('[' :: cs) = '[' :: cs := fun cs => rfl
  cases items with
  | nil => rfl
  | cons j items =>
      have hbound : (j :: items).length
          ≤ ((String.intercalate "," (itemTexts (j :: items))).toList ++ [']']).length := by
        rw [List.length_append]
        exact length_le_itemTexts (j :: items)
      have hread : items? (value? 126) _ _ = some (j :: items, []) :=
        items?_text (List.cons_ne_nil j items) hitems hbound []
      -- The first item does not start with the bracket that closes an empty array.
      obtain ⟨c, cs, hstart, hspace, hbracket⟩ := text_start (hitems j List.mem_cons_self)
      obtain ⟨rest, hrest⟩ : ∃ rest,
          (String.intercalate "," (itemTexts (j :: items))).toList ++ [']'] = c :: rest := by
        cases items with
        | nil => exact ⟨cs ++ [']'], by simp [itemTexts, hstart]⟩
        | cons next items => exact ⟨_, by simp [itemTexts, hstart]; rfl⟩
      have hskip : skipSpaces (c :: rest) = c :: rest := by
        rw [skipSpaces, List.dropWhile_cons_of_neg (by simp [hspace])]
      rw [hrest] at hread
      have hvalue : value? maxDepth (array (j :: items)).text.toList
          = some (array (j :: items), []) := by
        rw [htext, hrest, maxDepth, value?.eq_def]
        simp only [hopen, hskip]
        split
        · rename_i heq
          exact absurd (List.cons.inj heq).1 hbracket
        · rw [hread]
          rfl
      simp only [parse?, hvalue, bind, Option.bind]
      rfl

end EntityMapper.Json
