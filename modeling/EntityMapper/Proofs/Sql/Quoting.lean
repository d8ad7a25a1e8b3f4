import EntityMapper.Proofs.Sql.Token
import EntityMapper.Sql.Quoted

/-!
# Reading quoted texts

A database reads a string literal from its opening quote to the first quote that is neither doubled
nor, where a backslash escapes, behind a backslash. A quoted text is read to its end and no further
under both readings of the backslash: as the text itself where a backslash escapes, and with every
backslash doubled where it does not (`quote_decodes`).
-/

namespace EntityMapper.Sql

/-! ## The reader -/

/-- What a backslash and the character behind it stand for. The two wildcards of patterns keep the
backslash, and a character without a meaning of its own stands for itself. -/
def escapeMeaning : Char → List Char
  | '0' => [Char.ofNat 0]
  | 'b' => [Char.ofNat 0x8]
  | 'n' => ['\n']
  | 'r' => ['\r']
  | 't' => ['\t']
  | 'Z' => [Char.ofNat 0x1a]
  | '%' => ['\\', '%']
  | '_' => ['\\', '_']
  | c => [c]

/-- What is read when some characters are read before it. -/
def readBefore (cs : List Char) : List Char × List Char → List Char × List Char
  | (read, rest) => (cs ++ read, rest)

/-- Reads a literal after its opening quote: the characters that it stands for, and what follows
its closing quote. -/
def readRest (mode : BackslashMode) : List Char → Option (List Char × List Char)
  | [] => none
  | '\'' :: '\'' :: cs => (readRest mode cs).map (readBefore ['\''])
  | '\'' :: cs => some ([], cs)
  | '\\' :: c :: cs =>
      match mode with
      | .escapes => (readRest mode cs).map (readBefore (escapeMeaning c))
      | .ordinary => (readRest mode (c :: cs)).map (readBefore ['\\'])
  | c :: cs => (readRest mode cs).map (readBefore [c])

/-- Reads the literal that a text starts with. -/
def readString (mode : BackslashMode) : List Char → Option (List Char × List Char)
  | '\'' :: cs => readRest mode cs
  | _ => none

/-- Characters with every backslash doubled. -/
def doubleBackslashes (cs : List Char) : List Char :=
  cs.flatMap fun c => if c = '\\' then ['\\', '\\'] else [c]

/-- What quoted characters are read as. -/
def BackslashMode.decoded : BackslashMode → List Char → List Char
  | escapes, cs => cs
  | ordinary, cs => doubleBackslashes cs

variable {mode : BackslashMode} {cs ts read rest : List Char}

theorem readBefore_append (cs ds : List Char) :
    readBefore (cs ++ ds) = readBefore cs ∘ readBefore ds := by
  funext ⟨read, rest⟩
  simp [readBefore]

/-- A character that is neither a quote nor a backslash stands for itself. -/
theorem readRest_cons {c : Char} (hquote : c ≠ '\'') (hbackslash : c ≠ '\\') :
    readRest mode (c :: cs) = (readRest mode cs).map (readBefore [c]) := by
  rw [readRest.eq_def]
  simp [hquote, hbackslash]

/-- A text that starts with another character than a quote starts with no literal. -/
theorem readString_cons {c : Char} (hquote : c ≠ '\'') : readString mode (c :: cs) = none := by
  rw [readString.eq_def]
  simp [hquote]

/-- Doubled backslashes are one where the first escapes the second, and two otherwise. -/
theorem readRest_backslashes :
    readRest mode ('\\' :: '\\' :: cs)
      = (readRest mode cs).map (readBefore (mode.decoded ['\\'])) := by
  cases mode with
  | escapes => simp [readRest, BackslashMode.decoded, escapeMeaning]
  | ordinary =>
      have hone : ∀ ds, readRest .ordinary ('\\' :: ds)
          = (readRest .ordinary ds).map (readBefore ['\\']) := by
        intro ds
        cases ds <;> simp [readRest]
      rw [hone, hone, Option.map_map, ← readBefore_append]
      rfl

/-- What is left behind some characters is left as well when more are read before them. -/
theorem exists_of_readBefore {x : Option (List Char × List Char)}
    (h : x.map (readBefore cs) = some (read, rest)) : ∃ read', x = some (read', rest) := by
  obtain ⟨⟨read', rest'⟩, hx, heq⟩ := Option.map_eq_some_iff.1 h
  cases heq
  exact ⟨read', hx⟩

/-- The reader takes at least one character and leaves the others as they are. -/
theorem suffix_of_readRest (h : readRest mode cs = some (read, rest)) : rest <:+ cs.tail := by
  fun_induction readRest mode cs generalizing read with
  | case1 => cases h
  | case2 cs ih =>
      obtain ⟨read', hread⟩ := exists_of_readBefore h
      exact ((ih hread).trans cs.tail_suffix).trans (List.suffix_cons _ _)
  | case3 cs =>
      cases h
      exact List.suffix_refl _
  | case4 c cs hmode ih =>
      subst hmode
      obtain ⟨read', hread⟩ := exists_of_readBefore h
      exact ((ih hread).trans cs.tail_suffix).trans (List.suffix_cons _ _)
  | case5 c cs hmode ih =>
      subst hmode
      obtain ⟨read', hread⟩ := exists_of_readBefore h
      exact (ih hread).trans (List.suffix_cons _ _)
  | case6 c cs _ _ _ ih =>
      obtain ⟨read', hread⟩ := exists_of_readBefore h
      exact (ih hread).trans cs.tail_suffix

/-! ## Quoted texts -/

/-- Quoted characters are read piece by piece, and reading goes on behind them. -/
theorem readRest_encode (cs ts : List Char) :
    readRest mode (encode cs ++ ts)
      = (readRest mode ts).map (readBefore (mode.decoded cs)) := by
  have hcons : ∀ c cs, mode.decoded (c :: cs) = mode.decoded [c] ++ mode.decoded cs := by
    intro c cs
    cases mode <;> simp [BackslashMode.decoded, doubleBackslashes]
  have hsingle : ∀ c, c ≠ '\\' → mode.decoded [c] = [c] := by
    intro c hc
    cases mode <;> simp [BackslashMode.decoded, doubleBackslashes, hc]
  fun_induction encode cs with
  | case1 =>
      have hnil : readBefore (mode.decoded []) = id := by
        cases mode <;> rfl
      rw [hnil, Option.map_id, List.nil_append, id]
  | case2 cs ih =>
      rw [List.cons_append, List.cons_append, readRest_backslashes, ih, Option.map_map,
        ← readBefore_append, ← hcons]
  | case3 cs ih =>
      rw [List.cons_append, List.cons_append, readRest, ih, Option.map_map, ← readBefore_append,
        ← hsingle '\'' (by decide), ← hcons]
  | case4 c cs hbackslash hquote ih =>
      rw [List.cons_append, readRest_cons hquote hbackslash, ih, Option.map_map,
        ← readBefore_append, ← hsingle c hbackslash, ← hcons]

/-- A quoted text is read as its characters, and what follows is read from its closing quote on. -/
theorem readString_quote (mode : BackslashMode) (s : String) (ts : List Char) :
    readString mode ((quote s).toList ++ ts)
      = (readRest mode ('\'' :: ts)).map (readBefore (mode.decoded s.toList)) := by
  have htext : (quote s).toList ++ ts = '\'' :: (encode s.toList ++ '\'' :: ts) := by
    simp [quote]
  rw [htext, readString, readRest_encode]

/-- A quote that no other follows ends the literal. -/
theorem readRest_closing (h : ts.head? ≠ some '\'') :
    readRest mode ('\'' :: ts) = some ([], ts) := by
  cases ts with
  | nil => rfl
  | cons c cs =>
      have hc : c ≠ '\'' := fun hc => h (congrArg some hc)
      rw [readRest.eq_def]
      simp [hc]

/-- A quoted text that no other quote follows is read to its end. -/
theorem readString_quote_end (mode : BackslashMode) (s : String) (h : ts.head? ≠ some '\'') :
    readString mode ((quote s).toList ++ ts) = some (mode.decoded s.toList, ts) := by
  rw [readString_quote, readRest_closing h]
  simp [readBefore]

/-- A quoted text with nothing behind it is read as a whole. -/
theorem readString_quote_self (mode : BackslashMode) (s : String) :
    readString mode (quote s).toList = some (mode.decoded s.toList, []) := by
  have hnil : ([] : List Char).head? ≠ some '\'' := by simp
  have hend := readString_quote_end mode s hnil
  rwa [List.append_nil] at hend

/-- A quoted text is read to its end and no further, unless another quote follows: as itself where a
backslash escapes, and with every backslash doubled otherwise. Whatever follows, it is not read as
a literal that ends before the quoted text does, and different texts are quoted differently. -/
theorem quote_decodes :
    (∀ (s : String) (t : List Char), t.head? ≠ some '\'' →
      readString .escapes ((quote s).toList ++ t) = some (s.toList, t) ∧
      readString .ordinary ((quote s).toList ++ t) = some (doubleBackslashes s.toList, t)) ∧
    (∀ (mode : BackslashMode) (s : String) (t read rest : List Char),
      readString mode ((quote s).toList ++ t) = some (read, rest) → rest <:+ t) ∧
    Function.Injective quote := by
  refine ⟨fun s t ht => ⟨readString_quote_end .escapes s ht, readString_quote_end .ordinary s ht⟩,
    ?_, ?_⟩
  · intro mode s t read rest h
    rw [readString_quote] at h
    obtain ⟨read', hclosing⟩ := exists_of_readBefore h
    exact suffix_of_readRest hclosing
  · intro s s' h
    have hs := readString_quote_self .escapes s
    rw [h, readString_quote_self .escapes s'] at hs
    exact (String.toList_inj.1 (Prod.mk.inj (Option.some.inj hs)).1).symm

/-- Quotes and backslashes at the end of a text, before what would be a second literal. -/
theorem quote_decodes_trailing :
    readString .escapes ((quote "it's \\'\\").toList ++ " OR 'x'".toList)
        = some ("it's \\'\\".toList, " OR 'x'".toList) ∧
      readString .ordinary ((quote "it's \\'\\").toList ++ " OR 'x'".toList)
        = some ("it's \\\\'\\\\".toList, " OR 'x'".toList) :=
  quote_decodes.1 "it's \\'\\" " OR 'x'".toList (by decide)

end EntityMapper.Sql
