import EntityMapper.Proofs.Model.Tag

/-!
# Tags by their slots

A tag is its name and two slots for flags, each behind a single space; what follows the second slot
is not looked at. How a tag is read depends on the name and on the two words in the slots, not on
their order, and a slot that a tag does not have is like one with an unknown word in it
(`FieldTag.parse_slots`). Words may be empty: a space at the start leaves the name empty, and two
spaces in a row leave a slot empty.
-/

namespace EntityMapper

/-! ## Words and slots -/

/-- Whether a text is one word of a tag. -/
def IsWord (s : String) : Prop := ' ' ∉ s.toList

/-- Whether a text is empty or begins with a space, so that a word in front of it ends there. -/
def EndsWord (s : String) : Prop := ∀ c ∈ s.toList.head?, c = ' '

/-- Whether a word is no flag. -/
def IsUnknownFlag (s : String) : Prop := s ≠ "key" ∧ s ≠ "auto"

/-- Whether a character is a letter or a digit of ASCII, or the underscore. -/
def IsAsciiNameChar (c : Char) : Prop :=
  'A' ≤ c ∧ c ≤ 'Z' ∨ 'a' ≤ c ∧ c ≤ 'z' ∨ '0' ≤ c ∧ c ≤ '9' ∨ c = '_'

instance (s : String) : Decidable (IsWord s) := by
  unfold IsWord; infer_instance

instance (s : String) : Decidable (EndsWord s) :=
  decidable_of_iff (s.toList.head?.all (· = ' ') = true) (by simp [EndsWord, Option.all_eq_true])

instance (s : String) : Decidable (IsUnknownFlag s) := by
  unfold IsUnknownFlag; infer_instance

theorem isNameChar_iff {c : Char} : isNameChar c = true ↔ IsAsciiNameChar c := by
  have hupper : c.isUpper = true ↔ 'A' ≤ c ∧ c ≤ 'Z' := decide_eq_true_iff
  have hlower : c.isLower = true ↔ 'a' ≤ c ∧ c ≤ 'z' :=
    Bool.and_eq_true_iff.trans (and_congr decide_eq_true_iff decide_eq_true_iff)
  have hdigit : c.isDigit = true ↔ '0' ≤ c ∧ c ≤ '9' :=
    Bool.and_eq_true_iff.trans (and_congr decide_eq_true_iff decide_eq_true_iff)
  have halphanum : c.isAlphanum = true ↔ (c.isUpper = true ∨ c.isLower = true) ∨ c.isDigit = true :=
    Bool.or_eq_true_iff.trans (or_congr_left Bool.or_eq_true_iff)
  rw [isNameChar, Bool.or_eq_true_iff, halphanum, hupper, hlower, hdigit, beq_iff_eq,
    IsAsciiNameChar, or_assoc, or_assoc]

/-- Column names are what is written with letters and digits of ASCII and underscores. -/
theorem isColumnName_iff {name : String} :
    IsColumnName name ↔ name ≠ "" ∧ ∀ c ∈ name.toList, IsAsciiNameChar c := by
  simp only [IsColumnName, List.all_eq_true, isNameChar_iff]

/-- Every text is a word and what ends it. -/
theorem exists_word (s : String) : ∃ word rest, IsWord word ∧ EndsWord rest ∧ s = word ++ rest := by
  refine ⟨.ofList (s.toList.takeWhile (· ≠ ' ')), .ofList (s.toList.dropWhile (· ≠ ' ')),
    ?_, ?_, ?_⟩
  · intro hspace
    rw [String.toList_ofList] at hspace
    simpa using List.all_eq_true.1 List.all_takeWhile ' ' hspace
  · intro c hc
    rw [String.toList_ofList] at hc
    have hhead := List.head?_dropWhile_not (· ≠ ' ') s.toList
    rw [hc] at hhead
    simpa using hhead
  · rw [← String.ofList_append, List.takeWhile_append_dropWhile, String.ofList_toList]

/-- What ends a word is empty, or it is a space and another word with what ends that one. -/
theorem EndsWord.eq_empty_or {s : String} (h : EndsWord s) :
    s = "" ∨ ∃ word rest, IsWord word ∧ EndsWord rest ∧ s = " " ++ word ++ rest := by
  cases hs : s.toList with
  | nil => exact .inl (String.toList_inj.1 hs)
  | cons c cs =>
      have hc : c = ' ' := h c (by rw [hs]; rfl)
      obtain ⟨word, rest, hword, hrest, hcs⟩ := exists_word (.ofList cs)
      refine .inr ⟨word, rest, hword, hrest, String.toList_inj.1 ?_⟩
      rw [String.append_assoc, ← hcs]
      simp [hs, hc]

/-- The shapes of tags with a name: the name alone, with one slot, or with two slots and whatever
follows them. -/
inductive HasSlots (name tag : String) : Prop
  | bare (text : tag = name)
  | one (a : String) (word : IsWord a) (text : tag = name ++ " " ++ a)
  | two (a b rest : String) (first : IsWord a) (second : IsWord b) (ends : EndsWord rest)
      (text : tag = name ++ " " ++ a ++ " " ++ b ++ rest)

/-- Every text has one of the shapes. Its name is empty only where the text begins with what ends a
word. -/
theorem exists_hasSlots (tag : String) :
    ∃ name, IsWord name ∧ HasSlots name tag ∧ (name = "" → EndsWord tag) := by
  obtain ⟨name, rest, hname, hrest, rfl⟩ := exists_word tag
  refine ⟨name, hname, ?_, fun hempty => ?_⟩
  · rcases hrest.eq_empty_or with rfl | ⟨a, later, ha, hlater, rfl⟩
    · exact .bare String.append_empty
    · rcases hlater.eq_empty_or with rfl | ⟨b, last, hb, hlast, rfl⟩
      · exact .one a ha (by simp [String.append_assoc])
      · exact .two a b last ha hb hlast (by simp [String.append_assoc])
  · rw [hempty, String.empty_append]
    exact hrest

namespace FieldTag

variable {name a b rest tag : String}

/-- A space ends a word, and what follows it are the other words. -/
theorem words_append_space {cs ds : List Char} (h : ' ' ∉ cs) :
    words (cs ++ ' ' :: ds) = cs :: words ds := by
  induction cs with
  | nil => simp [words]
  | cons c cs ih =>
      rw [List.mem_cons, not_or] at h
      rw [List.cons_append, words, if_neg (Ne.symm h.1), ih h.2]

/-- The first word of a text ends where something ends it. -/
theorem exists_words_append (h : IsWord name) (hends : EndsWord rest) :
    ∃ others, words (name ++ rest).toList = name.toList :: others := by
  rw [String.toList_append]
  cases hrest : rest.toList with
  | nil => exact ⟨[], by rw [List.append_nil, words_of_space_not_mem h]⟩
  | cons c cs =>
      have hc : c = ' ' := hends c (by rw [hrest]; rfl)
      exact ⟨words cs, by rw [hc, words_append_space h]⟩

/-- The words of a tag with one slot. -/
theorem words_one_slot (hname : IsWord name) (ha : IsWord a) :
    words (name ++ " " ++ a).toList = [name.toList, a.toList] := by
  have htext : (name ++ " " ++ a).toList = name.toList ++ ' ' :: a.toList := by simp
  rw [htext, words_append_space hname, words_of_space_not_mem ha]

/-- The words of a tag with two slots are its name, its slots, and others. -/
theorem exists_words_two_slots (hname : IsWord name) (ha : IsWord a) (hb : IsWord b)
    (hrest : EndsWord rest) :
    ∃ others, words (name ++ " " ++ a ++ " " ++ b ++ rest).toList
      = name.toList :: a.toList :: b.toList :: others := by
  have htext : (name ++ " " ++ a ++ " " ++ b ++ rest).toList
      = name.toList ++ ' ' :: (a.toList ++ ' ' :: (b ++ rest).toList) := by
    simp
  obtain ⟨others, hothers⟩ := exists_words_append hb hrest
  exact ⟨others, by rw [htext, words_append_space hname, words_append_space ha, hothers]⟩

/-! ## What a tag is read as -/

/-- The tag of a column with flags, where columns can have the name. -/
def ofFlags (name : String) (isKey isAuto : Bool) : Except TagError FieldTag :=
  if name_ne : name = "" then .error .emptyName
  else if name_chars : name.toList.all isNameChar then
    .ok { name, isKey, isAuto, name_ne, name_chars }
  else .error (.invalidName name)

/-- A tag is read from its first word and from the flags among the two words after it. -/
theorem parse_of_words {slots : List (List Char)} (h : words tag.toList = name.toList :: slots) :
    parse tag = ofFlags name ("key".toList ∈ slots.take 2) ("auto".toList ∈ slots.take 2) := by
  have hname : String.ofList ((words tag.toList).headD []) = name := by
    rw [h, List.headD_cons, String.ofList_toList]
  have hflags : flags tag = slots.take 2 := by rw [flags, h, List.drop_one, List.tail_cons]
  rw [← hflags, ← hname]
  rfl

/-- A tag without slots has no flags. -/
theorem parse_no_slot (hname : IsWord name) : parse name = ofFlags name false false := by
  rw [parse_of_words (words_of_space_not_mem hname)]
  rfl

/-- The flags of a tag with one slot are the word in it. -/
theorem parse_one_slot (hname : IsWord name) (ha : IsWord a) :
    parse (name ++ " " ++ a) = ofFlags name (a = "key") (a = "auto") := by
  rw [parse_of_words (words_one_slot hname ha)]
  simp only [List.take_succ_cons, List.take_nil, List.mem_singleton, String.toList_inj,
    @eq_comm _ a]

/-- The flags of a tag with two slots are the words in them, whatever follows. -/
theorem parse_two_slots (hname : IsWord name) (ha : IsWord a) (hb : IsWord b)
    (hrest : EndsWord rest) :
    parse (name ++ " " ++ a ++ " " ++ b ++ rest)
      = ofFlags name (a = "key" ∨ b = "key") (a = "auto" ∨ b = "auto") := by
  obtain ⟨others, hwords⟩ := exists_words_two_slots hname ha hb hrest
  rw [parse_of_words hwords]
  simp only [List.take_succ_cons, List.take_zero, List.mem_cons, List.not_mem_nil, or_false,
    String.toList_inj, @eq_comm _ a, @eq_comm _ b]

/-- What a name with two words in its slots is read as: a column of that name with the flags that
the words are, where columns can have the name, and an error that says what is wrong with the name
otherwise. -/
structure ReadsSlots (name a b : String) (result : Except TagError FieldTag) : Prop where
  succeeds_iff : (∃ tag, result = .ok tag) ↔ name ≠ "" ∧ ∀ c ∈ name.toList, IsAsciiNameChar c
  name_eq : ∀ tag, result = .ok tag → tag.name = name
  isKey_iff : ∀ tag, result = .ok tag → (tag.isKey = true ↔ a = "key" ∨ b = "key")
  isAuto_iff : ∀ tag, result = .ok tag → (tag.isAuto = true ↔ a = "auto" ∨ b = "auto")
  error_eq : ∀ e, result = .error e → e = if name = "" then .emptyName else .invalidName name

theorem readsSlots_ofFlags (name a b : String) :
    ReadsSlots name a b (ofFlags name (a = "key" ∨ b = "key") (a = "auto" ∨ b = "auto")) := by
  rw [ofFlags]
  split_ifs with hempty hchars
  · constructor <;> simp [hempty]
  · have hname : name ≠ "" ∧ ∀ c ∈ name.toList, IsAsciiNameChar c :=
      isColumnName_iff.1 ⟨hempty, hchars⟩
    constructor
    case succeeds_iff => exact iff_of_true ⟨_, rfl⟩ hname
    all_goals simp
  · have hname : ¬ (name ≠ "" ∧ ∀ c ∈ name.toList, IsAsciiNameChar c) := fun h =>
      hchars (isColumnName_iff.2 h).2
    constructor
    case succeeds_iff => exact iff_of_false (by simp) hname
    all_goals simp [hempty]

/-- A slot that is missing is like one with an unknown word in it. -/
theorem parse_missing_slots {u v : String} (hname : IsWord name) (ha : IsWord a) (hu : IsWord u)
    (hunknown : IsUnknownFlag u) (hv : IsWord v) (hunknown' : IsUnknownFlag v)
    (hrest : EndsWord rest) :
    parse (name ++ " " ++ a) = parse (name ++ " " ++ a ++ " " ++ u ++ rest) ∧
      parse name = parse (name ++ " " ++ u ++ " " ++ v ++ rest) := by
  constructor
  · rw [parse_one_slot hname ha, parse_two_slots hname ha hu hrest]
    simp only [hunknown.1, hunknown.2, or_false]
  · rw [parse_no_slot hname, parse_two_slots hname hu hv hrest]
    simp only [hunknown.1, hunknown.2, hunknown'.1, hunknown'.2, or_false, decide_false]

/-- A text that is empty or begins with a space has no name. -/
theorem parse_nameless (h : EndsWord tag) : parse tag = .error .emptyName := by
  obtain ⟨others, hwords⟩ := exists_words_append (show IsWord "" by decide) h
  rw [String.empty_append] at hwords
  rw [parse_of_words hwords]
  rfl

/-- The name and the words in the two slots decide how a tag is read, in either order and whatever
follows the slots: it succeeds exactly for the names that columns can have, with the flags that the
slots hold. A slot that is missing is like one with an unknown word. A text that is empty or begins
with a space has no name, and every other one is a tag of one of these shapes with a name. -/
theorem parse_slots :
    (∀ name a b rest rest', IsWord name → IsWord a → IsWord b → EndsWord rest → EndsWord rest' →
      parse (name ++ " " ++ a ++ " " ++ b ++ rest) = parse (name ++ " " ++ b ++ " " ++ a ++ rest') ∧
      ReadsSlots name a b (parse (name ++ " " ++ a ++ " " ++ b ++ rest))) ∧
    (∀ name a u v rest, IsWord name → IsWord a → IsWord u → IsUnknownFlag u → IsWord v →
      IsUnknownFlag v → EndsWord rest →
      parse (name ++ " " ++ a) = parse (name ++ " " ++ a ++ " " ++ u ++ rest) ∧
      parse name = parse (name ++ " " ++ u ++ " " ++ v ++ rest)) ∧
    (∀ tag, EndsWord tag → parse tag = .error .emptyName) ∧
    ∀ tag, ¬ EndsWord tag → ∃ name, name ≠ "" ∧ IsWord name ∧ HasSlots name tag := by
  refine ⟨fun name a b rest rest' hname ha hb hrest hrest' => ⟨?_, ?_⟩,
    fun name a u v rest hname ha hu hunknown hv hunknown' hrest =>
      parse_missing_slots hname ha hu hunknown hv hunknown' hrest,
    fun tag => parse_nameless, fun tag hnamed => ?_⟩
  · rw [parse_two_slots hname ha hb hrest, parse_two_slots hname hb ha hrest']
    simp only [or_comm]
  · rw [parse_two_slots hname ha hb hrest]
    exact readsSlots_ofFlags name a b
  · obtain ⟨name, hname, hslots, hends⟩ := exists_hasSlots tag
    exact ⟨name, fun hempty => hnamed (hends hempty), hname, hslots⟩

/-- A flag behind the second slot does not count, an empty word in a slot is no flag, a missing slot
is like an unknown word, a name that no column has is refused alike with its slots swapped, and a
space at the start leaves no name. -/
theorem id_parse_slots :
    parse "id auto  key" = parse "id  auto" ∧ ReadsSlots "id" "auto" "" (parse "id auto  key") ∧
      parse "id auto" = parse "id auto size key" ∧
      parse "größe key auto" = parse "größe auto key key" ∧
      parse " id key" = .error .emptyName := by
  obtain ⟨hslots, hmissing, hnameless, -⟩ := parse_slots
  have hid := hslots "id" "auto" "" " key" "" (by decide) (by decide) (by decide) (by decide)
    (by decide)
  have hsize := (hmissing "id" "auto" "size" "" " key" (by decide) (by decide) (by decide)
    (by decide) (by decide) (by decide) (by decide)).1
  have hrefused := (hslots "größe" "key" "auto" "" " key" (by decide) (by decide) (by decide)
    (by decide) (by decide)).1
  exact ⟨hid.1, hid.2, hsize, hrefused, hnameless " id key" (by decide)⟩

end FieldTag

end EntityMapper
