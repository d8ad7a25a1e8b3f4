import EntityMapper.Proofs.Number.Digits
import EntityMapper.Sql.Literal
import Mathlib.Tactic.Common

/-!
# Tokens of statements

How a database splits the text of a statement: identifiers between backquotes, strings between
single quotes, signed numbers, words, and punctuation. The splitter is a state machine that reads
one character after the other, so the tokens of a longer text follow from those of its pieces
(`run_append`). Every literal is read as one token, whatever it holds (`run_literal`).
-/

namespace EntityMapper.Sql

/-- How the database reads a backslash inside a string: as the start of an escape, or as itself. -/
inductive BackslashMode
  | escapes
  | ordinary
  deriving DecidableEq

/-- The sort of a token; an unfinished one is a quote that nothing closes. -/
inductive TokenKind
  | identifier | string | number | word | punctuation | unfinished
  deriving DecidableEq

/-- A token with its text as it stands in the statement. -/
structure Token where
  kind : TokenKind
  text : String
  deriving DecidableEq

/-- What is being read inside a token. -/
inductive Reading
  | word
  /-- A minus sign, which starts a number or stands alone. -/
  | sign
  | number
  | fraction
  | identifier
  /-- A backquote inside an identifier, which ends it unless another one follows. -/
  | identifierQuote
  | string
  /-- A backslash inside a string that escapes what follows. -/
  | stringEscape
  /-- A quote inside a string, which ends it unless another one follows. -/
  | stringQuote
  deriving DecidableEq

namespace Reading

/-- The sort of the token when it ends here. -/
def kind : Reading → TokenKind
  | word => .word
  | sign => .punctuation
  | number | fraction => .number
  | identifierQuote => .identifier
  | stringQuote => .string
  | identifier | string | stringEscape => .unfinished

/-- Whether any character at all belongs to the token. -/
def isQuoted : Reading → Bool
  | identifier | string | stringEscape => true
  | _ => false

end Reading

/-- Characters of words. -/
def isWordChar (c : Char) : Bool := c.isAlphanum || c = '_' || c = '$' || 0x80 ≤ c.toNat

/-- Goes on with a token by one more character, if that belongs to it. -/
def Reading.next? (mode : BackslashMode) : Reading → Char → Option Reading
  | .word, c => if isWordChar c then some .word else none
  | .sign, c => if c.isDigit then some .number else none
  | .number, c => if c.isDigit then some .number else if c = '.' then some .fraction else none
  | .fraction, c => if c.isDigit then some .fraction else none
  | .identifier, c => some (if c = '`' then .identifierQuote else .identifier)
  | .identifierQuote, c => if c = '`' then some .identifier else none
  | .string, c =>
      some (if c = '\'' then .stringQuote
        else if c = '\\' ∧ mode = .escapes then .stringEscape else .string)
  | .stringEscape, _ => some .string
  | .stringQuote, c => if c = '\'' then some .string else none

/-- Where a splitter stands: between tokens, or inside one of which it has read some text. -/
abbrev LexState := Option (Reading × List Char)

/-- The token that a state leaves when it is cut off. -/
def flush : LexState → List Token
  | none => []
  | some (reading, read) => [⟨reading.kind, String.ofList read⟩]

/-- Starts a token with a character; punctuation is a token by itself. -/
def start (c : Char) : List Token × LexState :=
  if c.isWhitespace then ([], none)
  else if c = '`' then ([], some (.identifier, [c]))
  else if c = '\'' then ([], some (.string, [c]))
  else if c.isDigit then ([], some (.number, [c]))
  else if isWordChar c then ([], some (.word, [c]))
  else if c = '-' then ([], some (.sign, [c]))
  else ([⟨.punctuation, String.ofList [c]⟩], none)

/-- Reads one character. -/
def step (mode : BackslashMode) (state : LexState) (c : Char) : List Token × LexState :=
  match state with
  | none => start c
  | some (reading, read) =>
      match reading.next? mode c with
      | some reading => ([], some (reading, read ++ [c]))
      | none => (flush state ++ (start c).1, (start c).2)

/-- Reads a text: the tokens that end in it, and the state after it. -/
def run (mode : BackslashMode) : LexState → List Char → List Token × LexState
  | state, [] => ([], state)
  | state, c :: cs =>
      ((step mode state c).1 ++ (run mode (step mode state c).2 cs).1,
        (run mode (step mode state c).2 cs).2)

/-- The tokens of a text. -/
def tokens (mode : BackslashMode) (text : String) : List Token :=
  (run mode none text.toList).1 ++ flush (run mode none text.toList).2

variable {mode : BackslashMode} {state : LexState}

@[simp] theorem run_nil : run mode state [] = ([], state) := rfl

theorem run_cons (c : Char) (cs : List Char) :
    run mode state (c :: cs) =
      ((step mode state c).1 ++ (run mode (step mode state c).2 cs).1,
        (run mode (step mode state c).2 cs).2) := rfl

/-- A text is read piece by piece. -/
theorem run_append (xs ys : List Char) :
    run mode state (xs ++ ys) =
      ((run mode state xs).1 ++ (run mode (run mode state xs).2 ys).1,
        (run mode (run mode state xs).2 ys).2) := by
  induction xs generalizing state with
  | nil => rfl
  | cons c xs ih => rw [List.cons_append, run_cons, ih, run_cons, List.append_assoc]

/-- A character that belongs to the token is added to it. -/
theorem step_of_next? {reading after : Reading} {read : List Char} {c : Char}
    (h : reading.next? mode c = some after) :
    step mode (some (reading, read)) c = ([], some (after, read ++ [c])) := by
  simp only [step, h]

/-- A run of characters that leaves the reading as it is belongs to the token as a whole. -/
theorem run_of_next? {reading : Reading} {read cs : List Char}
    (h : ∀ c ∈ cs, reading.next? mode c = some reading) :
    run mode (some (reading, read)) cs = ([], some (reading, read ++ cs)) := by
  induction cs generalizing read with
  | nil => simp
  | cons c cs ih =>
      rw [run_cons, step_of_next? (h c List.mem_cons_self),
        ih fun c' hc' => h c' (List.mem_cons_of_mem _ hc')]
      simp

/-! ## Breaks -/

/-- The characters that end every token but an open quote: blanks and punctuation that starts
nothing. -/
def isBreak (c : Char) : Bool :=
  c = ' ' || c = ',' || c = ')' || c = '('  || c = '=' || c = '\n'

/-- Whether a state is outside every quote. -/
def Outside (state : LexState) : Prop := ∀ entry ∈ state, entry.1.isQuoted = false

theorem outside_none : Outside none := by simp [Outside]

/-- A break ends the token before it and is not part of another. -/
theorem step_break {c : Char} (hstate : Outside state) (hc : isBreak c = true) :
    step mode state c = (flush state ++ (step mode none c).1, (step mode none c).2) := by
  cases state with
  | none => rfl
  | some entry =>
      obtain ⟨reading, read⟩ := entry
      have hquoted : reading.isQuoted = false := hstate (reading, read) rfl
      have hnext : reading.next? mode c = none := by
        simp only [isBreak, Bool.or_eq_true, decide_eq_true_eq] at hc
        rcases hc with ((((rfl | rfl) | rfl) | rfl) | rfl) | rfl <;> cases reading <;>
          first
            | rfl
            | cases hquoted
      simp only [step, hnext]

/-- A text that starts with a break is read as if nothing stood before it. -/
theorem run_break {c : Char} {cs : List Char} (hstate : Outside state) (hc : isBreak c = true) :
    run mode state (c :: cs)
      = (flush state ++ (run mode none (c :: cs)).1, (run mode none (c :: cs)).2) := by
  rw [run_cons, step_break hstate hc, run_cons, List.append_assoc]

/-! ## Literals -/

/-- Digits after a number's first digit belong to the number. -/
theorem run_digits {reading : Reading} {read ds : List Char}
    (hreading : reading = .number ∨ reading = .fraction) (hds : ∀ c ∈ ds, c.isDigit = true) :
    run mode (some (reading, read)) ds = ([], some (reading, read ++ ds)) := by
  apply run_of_next?
  intro c hc
  rcases hreading with rfl | rfl <;> simp [Reading.next?, hds c hc]

/-- A digit starts a number. -/
theorem start_digit {c : Char} (hc : c.isDigit = true) : start c = ([], some (.number, [c])) := by
  have hblank : c.isWhitespace = false := by
    by_contra hblank
    simp only [Char.isWhitespace, Bool.not_eq_false, Bool.or_eq_true, decide_eq_true_eq] at hblank
    rcases hblank with ((rfl | rfl) | rfl) | rfl <;> revert hc <;> decide
  have hquote : c ≠ '`' ∧ c ≠ '\'' := ⟨ne_of_isDigit hc rfl, ne_of_isDigit hc rfl⟩
  simp [start, hblank, hquote, hc]

/-- Digits behind an optional sign are a number. -/
theorem run_number (negative : Bool) {ds : List Char} (hne : ds ≠ [])
    (hds : ∀ c ∈ ds, c.isDigit = true) :
    run mode none ((signText negative).toList ++ ds)
      = ([], some (.number, (signText negative).toList ++ ds)) := by
  obtain ⟨d, ds, rfl⟩ := List.exists_cons_of_ne_nil hne
  have hd : d.isDigit = true := hds d List.mem_cons_self
  have hrest : ∀ read, run mode (some (.number, read)) ds = ([], some (.number, read ++ ds)) :=
    fun read => run_digits (.inl rfl) fun c hc => hds c (List.mem_cons_of_mem _ hc)
  cases negative with
  | false =>
      have hstep : step mode none d = ([], some (.number, [d])) := start_digit hd
      simp [signText, run_cons, hstep, hrest]
  | true =>
      have hsign : step mode none '-' = ([], some (.sign, ['-'])) := by rfl
      have hstep : step mode (some (.sign, ['-'])) d = ([], some (.number, ['-', d])) :=
        step_of_next? (by simp [Reading.next?, hd])
      simp [signText, run_cons, hsign, hstep, hrest]

/-- Positional notation is digits, with a point and further digits behind them or not. -/
theorem positional_shape (d : Decimal) :
    ∃ ds es, ds ≠ [] ∧ (∀ c ∈ ds, c.isDigit = true) ∧ (∀ c ∈ es, c.isDigit = true) ∧
      (d.positional.toList = ds ∨ d.positional.toList = ds ++ '.' :: es) := by
  have hdigits : ∀ c ∈ d.text.toList, c.isDigit = true := fun c hc => isDigit_of_mem_repr hc
  have hzeros : ∀ count, ∀ c ∈ (Decimal.zeros count).toList, c.isDigit = true := by
    intro count c hc
    rw [Decimal.zeros, String.toList_ofList] at hc
    rw [List.eq_of_mem_replicate hc]
    decide
  have hboth : ∀ count, ∀ c ∈ (Decimal.zeros count).toList ++ d.text.toList, c.isDigit = true := by
    intro count c hc
    rcases List.mem_append.1 hc with hc | hc
    exacts [hzeros count c hc, hdigits c hc]
  -- Zeros behind the digits, a point among them, or zeros and a point before them.
  simp only [Decimal.positional]
  split
  · refine ⟨(d.text ++ Decimal.zeros d.exponent.toNat).toList, [], ?_, ?_, ?_, .inl rfl⟩
    · rw [String.toList_append]
      exact List.append_ne_nil_of_left_ne_nil (repr_toList_ne_nil d.digits) _
    · intro c hc
      rw [String.toList_append] at hc
      rcases List.mem_append.1 hc with hc | hc
      exacts [hdigits c hc, hzeros _ c hc]
    · simp
  · split
    · rename_i hplaces
      rw [← String.length_toList] at hplaces
      refine ⟨d.text.toList.take (d.text.length - (-d.exponent).toNat),
        d.text.toList.drop (d.text.length - (-d.exponent).toNat), ?_, ?_, ?_, .inr ?_⟩
      · rw [← List.length_pos_iff, List.length_take, ← String.length_toList]
        omega
      · exact fun c hc => hdigits c (List.mem_of_mem_take hc)
      · exact fun c hc => hdigits c (List.mem_of_mem_drop hc)
      · simp [String.toList_append]
    · have hzero : ∀ c ∈ ['0'], c.isDigit = true := by
        intro c hc
        rw [List.mem_singleton.1 hc]
        decide
      refine ⟨['0'], (Decimal.zeros ((-d.exponent).toNat - d.text.length)).toList ++ d.text.toList,
        List.cons_ne_nil _ _, hzero, hboth _, .inr ?_⟩
      simp [String.toList_append]

/-- The text inside a string literal leaves the string open: doubled quotes do not end it, and
doubled backslashes are read in pairs whether or not a backslash escapes. -/
theorem run_encode (cs read : List Char) :
    run mode (some (.string, read)) (encode cs) = ([], some (.string, read ++ encode cs)) := by
  fun_induction encode cs generalizing read with
  | case1 => simp
  | case2 cs ih =>
      -- The second backslash is what the first one escapes, or one like the first.
      cases mode <;> simp [run_cons, step, Reading.next?, ih]
  | case3 cs ih => simp [run_cons, step, Reading.next?, ih]
  | case4 c cs hbackslash hquote ih =>
      have hother : c ≠ '\'' ∧ c ≠ '\\' := ⟨hquote, hbackslash⟩
      simp [run_cons, step, Reading.next?, hother, ih]

/-- The token of a literal. -/
def Literal.token : Literal → Token
  | .string s => ⟨.string, (Literal.string s).text⟩
  | l => ⟨.number, l.text⟩

/-- Every literal is one token, which ends where the literal does. -/
theorem run_literal (mode : BackslashMode) (l : Literal) :
    ∃ reading : Reading, reading.isQuoted = false ∧
      run mode none l.text.toList = ([], some (reading, l.text.toList)) ∧
      flush (some (reading, l.text.toList)) = [l.token] := by
  cases l with
  | integer n =>
      refine ⟨.number, rfl, ?_, by simp [flush, Reading.kind, Literal.token]⟩
      rw [Literal.text, integerText, String.toList_append]
      exact run_number _ (repr_toList_ne_nil _) fun c hc => isDigit_of_mem_repr hc
  | float x =>
      obtain ⟨x, hfinite⟩ := x
      cases x with
      | finite negative significand exponent hvalid =>
          obtain ⟨ds, es, hne, hds, hes, htext | htext⟩ :=
            positional_shape (Decimal.shortest .larger significand exponent)
          · refine ⟨.number, rfl, ?_, by simp [flush, Reading.kind, Literal.token]⟩
            rw [Literal.text, String.toList_append, htext]
            exact run_number _ hne hds
          · refine ⟨.fraction, rfl, ?_, by simp [flush, Reading.kind, Literal.token]⟩
            rw [Literal.text, String.toList_append, htext, ← List.append_assoc, run_append,
              run_number _ hne hds]
            have hpoint : ∀ read, step mode (some (.number, read)) '.'
                = ([], some (.fraction, read ++ ['.'])) := fun read => step_of_next? rfl
            simp [run_cons, hpoint, run_digits (.inr rfl) hes]
      | _ => simp [Binary.isFinite] at hfinite
  | string s =>
      refine ⟨.stringQuote, rfl, ?_, by simp [flush, Reading.kind, Literal.token]⟩
      have hopen : step mode none '\'' = ([], some (.string, ['\''])) := by rfl
      have hclose : ∀ read, step mode (some (.string, read)) '\''
          = ([], some (.stringQuote, read ++ ['\''])) := fun read => step_of_next? rfl
      simp [Literal.text, quote, run_cons, run_append, hopen, hclose, run_encode]

end EntityMapper.Sql
