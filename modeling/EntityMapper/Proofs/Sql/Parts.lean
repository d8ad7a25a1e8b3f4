import EntityMapper.Proofs.Sql.Token
import EntityMapper.Sql.Statement

/-!
# Statements in parts

The text of a statement about rows or links is fixed text with literals in between. When the
identifiers hold no backquote, the parts are read one by one (`Statement.tokens_text`): a literal
is one token, and the tokens of the fixed text do not depend on the literals. Two statements with
the same fixed text therefore have the same tokens but for their literals (`Statement.sameBut`).
-/

namespace EntityMapper.Sql

/-- A stretch of a statement: fixed text, or a literal. -/
inductive Part
  | fixed (text : String)
  | literal (l : Literal)

namespace Part

/-- The text of a part. -/
def text : Part → String
  | fixed text => text
  | literal l => l.text

/-- The tokens of a part. -/
def tokens (mode : BackslashMode) : Part → List Token
  | fixed text => Sql.tokens mode text
  | literal l => [l.token]

/-- The literal of a part. -/
def literal? : Part → Option Literal
  | fixed _ => none
  | literal l => some l

/-- What a part is when the literals are left out. -/
def frame : Part → Option String
  | fixed text => some text
  | literal _ => none

end Part

/-- The text of a list of parts. -/
def partsText (parts : List Part) : List Char := parts.flatMap (·.text.toList)

@[simp] theorem partsText_nil : partsText [] = [] := rfl

@[simp] theorem partsText_cons (part : Part) (parts : List Part) :
    partsText (part :: parts) = part.text.toList ++ partsText parts := rfl

@[simp] theorem partsText_append (ps qs : List Part) :
    partsText (ps ++ qs) = partsText ps ++ partsText qs :=
  List.flatMap_append

variable {mode : BackslashMode}

/-! ## Reading the parts one by one -/

/-- Whether the last token of a text ends in it. -/
def Whole (mode : BackslashMode) (text : String) : Prop := (run mode none text.toList).2 = none

/-- Whether a text ends the token before it. -/
def Breaks (text : String) : Prop := ∃ c cs, text.toList = c :: cs ∧ isBreak c = true

/-- Whether no token spans two parts: each fixed text is whole, and where a literal may be open,
the next part breaks it off. -/
def Sound (mode : BackslashMode) : (pending : Bool) → List Part → Prop
  | _, [] => True
  | pending, .fixed text :: parts =>
      Whole mode text ∧ (pending = true → Breaks text) ∧ Sound mode false parts
  | pending, .literal _ :: parts => pending = false ∧ Sound mode true parts

/-- A text that breaks is read as if nothing stood before it. -/
theorem run_of_breaks {state : LexState} {text : String} {cs : List Char}
    (hstate : Outside state) (h : Breaks text) :
    run mode state (text.toList ++ cs)
      = (flush state ++ (run mode none (text.toList ++ cs)).1,
          (run mode none (text.toList ++ cs)).2) := by
  obtain ⟨c, rest, htext, hc⟩ := h
  rw [htext, List.cons_append]
  exact run_break hstate hc

/-- The tokens of sound parts are those of each part, after what was read before them. -/
theorem run_parts {pending : Bool} {parts : List Part} {state : LexState}
    (hsound : Sound mode pending parts) (hstate : Outside state)
    (hnone : pending = false → state = none) :
    (run mode state (partsText parts)).1 ++ flush (run mode state (partsText parts)).2
      = flush state ++ parts.flatMap (·.tokens mode) := by
  induction parts generalizing pending state with
  | nil => simp [partsText]
  | cons part parts ih =>
      cases part with
      | fixed text =>
          obtain ⟨hwhole, hbreaks, hrest⟩ := hsound
          -- A literal before the text ends where the text starts.
          have hread : run mode state (text.toList ++ partsText parts)
              = (flush state ++ (run mode none (text.toList ++ partsText parts)).1,
                  (run mode none (text.toList ++ partsText parts)).2) := by
            cases pending with
            | false => simp [hnone rfl, flush]
            | true => exact run_of_breaks hstate (hbreaks rfl)
          have hih := ih hrest outside_none fun _ => rfl
          have hnext : (run mode none text.toList).2 = none := hwhole
          have htokens : Sql.tokens mode text = (run mode none text.toList).1 := by
            simp [Sql.tokens, hnext, flush]
          rw [partsText_cons, Part.text, hread, run_append, hnext, List.flatMap_cons, Part.tokens,
            htokens]
          simp only [List.append_assoc]
          rw [hih]
          rfl
      | literal l =>
          obtain ⟨hpending, hrest⟩ := hsound
          obtain ⟨reading, hquoted, hrun, hflush⟩ := run_literal mode l
          -- A literal may go on with what follows it, but it is not inside a quote.
          have houtside : Outside (some (reading, l.text.toList)) := by
            simp [Outside, hquoted]
          rw [partsText_cons, Part.text, hnone hpending, run_append, hrun, List.nil_append,
            ih hrest houtside (by simp), hflush]
          rfl

/-! ## Fixed text -/

/-- Whether a name can stand between backquotes as it is. -/
def PlainName (name : String) : Prop := '`' ∉ name.toList

instance (name : String) : Decidable (PlainName name) := by unfold PlainName; infer_instance

/-- A text that breaks does so whatever follows it. -/
theorem Breaks.append {s : String} (h : Breaks s) (t : String) : Breaks (s ++ t) := by
  obtain ⟨c, cs, htext, hc⟩ := h
  exact ⟨c, cs ++ t.toList, by rw [String.toList_append, htext, List.cons_append], hc⟩

/-- Two whole texts make a whole text. -/
theorem Whole.append {s t : String} (hs : Whole mode s) (ht : Whole mode t) :
    Whole mode (s ++ t) := by
  simp only [Whole, String.toList_append, run_append] at *
  rw [hs, ht]

/-- An identifier is one token. -/
theorem run_identifier {name : String} (h : PlainName name) :
    run mode none (identifier name).toList
      = ([], some (.identifierQuote, (identifier name).toList)) := by
  have hopen : step mode none '`' = ([], some (.identifier, ['`'])) := rfl
  have hinside : run mode (some (.identifier, ['`'])) name.toList
      = ([], some (.identifier, '`' :: name.toList)) := by
    apply run_of_next?
    intro c hc
    have hne : c ≠ '`' := fun heq => h (heq ▸ hc)
    simp [Reading.next?, hne]
  have hclose : ∀ read, step mode (some (.identifier, read)) '`'
      = ([], some (.identifierQuote, read ++ ['`'])) := fun read => step_of_next? rfl
  simp [identifier, String.toList_append, run_cons, run_append, hopen, hinside, hclose]

/-- An identifier before a text that breaks is whole with it. -/
theorem whole_identifier_append {name t : String} (hname : PlainName name) (hbreaks : Breaks t)
    (ht : Whole mode t) : Whole mode (identifier name ++ t) := by
  have houtside : Outside (some (Reading.identifierQuote, (identifier name).toList)) := by
    simp [Outside, Reading.isQuoted]
  have hrun : run mode (some (.identifierQuote, (identifier name).toList)) (t.toList ++ []) = _ :=
    run_of_breaks houtside hbreaks
  simp only [List.append_nil] at hrun
  simp only [Whole, String.toList_append, run_append, run_identifier hname, hrun]
  exact ht

/-- The columns of a list before a text that breaks are whole with it. -/
theorem whole_columnList_append {columns : List String} {t : String}
    (hcolumns : ∀ column ∈ columns, PlainName column) (hbreaks : Breaks t) (ht : Whole mode t) :
    Whole mode (columnList columns ++ t) := by
  induction columns with
  | nil => simpa [columnList, separated] using ht
  | cons column columns ih =>
      have hcolumn := hcolumns column List.mem_cons_self
      cases columns with
      | nil => simpa [columnList, separated] using whole_identifier_append hcolumn hbreaks ht
      | cons next columns =>
          have hrest := ih fun c hc => hcolumns c (List.mem_cons_of_mem _ hc)
          have hsplit : columnList (column :: next :: columns) ++ t
              = identifier column ++ ("," ++ (columnList (next :: columns) ++ t)) := by
            simp [columnList, separated, String.append_assoc]
          have hcomma : Whole mode "," := by cases mode <;> rfl
          have hcommaBreaks : Breaks "," := ⟨',', [], rfl, rfl⟩
          rw [hsplit]
          exact whole_identifier_append hcolumn (hcommaBreaks.append _) (hcomma.append hrest)

/-! ## Statements -/

/-- Groups of parts with commas between them. -/
def commaParts (groups : List (List Part)) : List Part := [Part.fixed ","].intercalate groups

/-- The parts of a column and the literal it is given or compared with. -/
def Assignment.parts (a : Assignment) : List Part :=
  [.fixed (identifier a.column ++ "="), .literal a.literal]

namespace Statement

/-- The parts of a statement about rows or links. -/
def parts : Statement → List Part
  | insertRow table assignments =>
      .fixed ("INSERT INTO " ++ identifier table ++ " (" ++
          columnList (assignments.map (·.column)) ++ ") VALUES (") ::
        (commaParts (assignments.map fun a => [.literal a.literal]) ++ [.fixed ")"])
  | updateRow table assignments key =>
      .fixed ("UPDATE " ++ identifier table ++ " SET ") ::
        (commaParts (assignments.map (·.parts)) ++ .fixed " WHERE " :: key.parts)
  | deleteRow table key => .fixed ("DELETE FROM " ++ identifier table ++ " WHERE ") :: key.parts
  | selectRow table columns key =>
      .fixed ("SELECT " ++ columnList columns ++ " FROM " ++ identifier table ++ " WHERE ") ::
        key.parts
  | insertLink table left right =>
      [.fixed ("INSERT INTO " ++ identifier table ++ " (" ++ columnList ["left", "right"] ++
          ") VALUES ("), .literal left, .fixed ",", .literal right, .fixed ")"]
  | deleteLink table left right =>
      [.fixed ("DELETE FROM " ++ identifier table ++ " WHERE " ++ identifier "left" ++ "="),
        .literal left, .fixed (" AND " ++ identifier "right" ++ "="), .literal right]
  | clearLinks table left =>
      [.fixed ("DELETE FROM " ++ identifier table ++ " WHERE " ++ identifier "left" ++ "="),
        .literal left]
  | selectLinks table left =>
      [.fixed ("SELECT " ++ identifier "right" ++ " FROM " ++ identifier table ++ " WHERE " ++
          identifier "left" ++ "="), .literal left]
  | createTable table columns key => [.fixed (createTable table columns key).text]
  | createLinks table => [.fixed (createLinks table).text]
  | dropTable table => [.fixed (dropTable table).text]

/-- The literals of a statement, in the order in which its text has them. -/
def literals : Statement → List Literal
  | insertRow _ assignments => assignments.map (·.literal)
  | updateRow _ assignments key => assignments.map (·.literal) ++ [key.literal]
  | deleteRow _ key | selectRow _ _ key => [key.literal]
  | insertLink _ left right | deleteLink _ left right => [left, right]
  | clearLinks _ left | selectLinks _ left => [left]
  | createTable .. | createLinks _ | dropTable _ => []

/-- Whether a statement is about rows or links and its identifiers hold no backquote. -/
def Plain : Statement → Prop
  | insertRow table assignments => PlainName table ∧ ∀ a ∈ assignments, PlainName a.column
  | updateRow table assignments key =>
      PlainName table ∧ (∀ a ∈ assignments, PlainName a.column) ∧ PlainName key.column
  | deleteRow table key => PlainName table ∧ PlainName key.column
  | selectRow table columns key =>
      PlainName table ∧ (∀ column ∈ columns, PlainName column) ∧ PlainName key.column
  | insertLink table _ _ | deleteLink table _ _ | clearLinks table _ | selectLinks table _ =>
      PlainName table
  | createTable .. | createLinks _ | dropTable _ => False

end Statement

/-- Groups of parts with commas between them have the text of the groups with commas. -/
theorem partsText_commaParts {α : Type} (items : List α) (parts : α → List Part)
    (text : α → String) (h : ∀ a ∈ items, partsText (parts a) = (text a).toList) :
    partsText (commaParts (items.map parts)) = (separated "," (items.map text)).toList := by
  induction items with
  | nil => simp [commaParts, separated, partsText]
  | cons a items ih =>
      have ha := h a List.mem_cons_self
      have hrest := ih fun b hb => h b (List.mem_cons_of_mem _ hb)
      cases items with
      | nil => simpa [commaParts, separated] using ha
      | cons b items =>
          simp only [List.map_cons, commaParts, separated, List.intercalate_cons_cons,
            String.intercalate_cons_cons, partsText_append, String.toList_append] at hrest ⊢
          rw [ha, hrest]
          simp [Part.text]

/-- The text of an assignment is that of its parts. -/
theorem Assignment.partsText_parts (a : Assignment) : partsText a.parts = a.text.toList := by
  simp [parts, text, Part.text]

/-- The text of literals with commas between them is that of their parts. -/
theorem partsText_literals (assignments : List Assignment) :
    partsText (commaParts (assignments.map fun a => [.literal a.literal]))
      = (separated "," (assignments.map fun a => a.literal.text)).toList := by
  apply partsText_commaParts
  intro a _
  simp [Part.text]

/-- The text of assignments with commas between them is that of their parts. -/
theorem partsText_assignments (assignments : List Assignment) :
    partsText (commaParts (assignments.map (·.parts)))
      = (separated "," (assignments.map (·.text))).toList := by
  apply partsText_commaParts
  intro a _
  exact a.partsText_parts

namespace Statement

/-- The text of a statement is that of its parts. -/
theorem partsText_parts (s : Statement) : partsText s.parts = s.text.toList := by
  cases s with
  | insertRow table assignments =>
      show partsText (_ :: (_ ++ [_])) = String.toList ("INSERT INTO " ++ identifier table ++
        " (" ++ columnList (assignments.map (·.column)) ++ ") VALUES (" ++
        separated "," (assignments.map (·.literal.text)) ++ ")")
      rw [partsText_cons, partsText_append, partsText_literals]
      simp [Part.text]
  | updateRow table assignments key =>
      show partsText (_ :: (_ ++ _ :: key.parts)) = String.toList ("UPDATE " ++ identifier table ++
        " SET " ++ separated "," (assignments.map (·.text)) ++ " WHERE " ++ key.text)
      rw [partsText_cons, partsText_append, partsText_assignments, partsText_cons,
        key.partsText_parts]
      simp [Part.text]
  | deleteRow table key =>
      show partsText (_ :: key.parts)
        = String.toList ("DELETE FROM " ++ identifier table ++ " WHERE " ++ key.text)
      rw [partsText_cons, key.partsText_parts]
      simp [Part.text]
  | selectRow table columns key =>
      show partsText (_ :: key.parts) = String.toList ("SELECT " ++ columnList columns ++
        " FROM " ++ identifier table ++ " WHERE " ++ key.text)
      rw [partsText_cons, key.partsText_parts]
      simp [Part.text]
  | insertLink table left right =>
      show _ = String.toList ("INSERT INTO " ++ identifier table ++ " (" ++
        columnList ["left", "right"] ++ ") VALUES (" ++ left.text ++ "," ++ right.text ++ ")")
      simp [parts, Part.text]
  | deleteLink table left right =>
      show _ = String.toList ("DELETE FROM " ++ identifier table ++ " WHERE " ++
        identifier "left" ++ "=" ++ left.text ++ " AND " ++ identifier "right" ++ "=" ++ right.text)
      simp [parts, Part.text]
  | clearLinks table left =>
      show _ = String.toList ("DELETE FROM " ++ identifier table ++ " WHERE " ++
        identifier "left" ++ "=" ++ left.text)
      simp [parts, Part.text]
  | selectLinks table left =>
      show _ = String.toList ("SELECT " ++ identifier "right" ++ " FROM " ++ identifier table ++
        " WHERE " ++ identifier "left" ++ "=" ++ left.text)
      simp [parts, Part.text]
  | createTable | createLinks | dropTable => simp [parts, Part.text]

end Statement

/-! ## Soundness -/

/-- Parts that may follow an open literal may also stand alone. -/
theorem Sound.of_pending {parts : List Part} (h : Sound mode true parts) :
    Sound mode false parts := by
  cases parts with
  | nil => trivial
  | cons part parts =>
      cases part with
      | fixed text => exact ⟨h.1, by simp, h.2.2⟩
      | literal l => cases h.1

/-- Groups with commas between them are sound when each group is, before parts that break. -/
theorem sound_commaParts {groups : List (List Part)} {rest : List Part}
    (hgroups : ∀ group ∈ groups, ∀ rest, Sound mode true rest → Sound mode false (group ++ rest))
    (hrest : Sound mode true rest) : Sound mode false (commaParts groups ++ rest) := by
  induction groups with
  | nil => exact hrest.of_pending
  | cons group groups ih =>
      have hgroup := hgroups group List.mem_cons_self
      cases groups with
      | nil => simpa [commaParts] using hgroup rest hrest
      | cons next groups =>
          have hcomma : Whole mode "," := by cases mode <;> rfl
          have hnext := ih fun g hg => hgroups g (List.mem_cons_of_mem _ hg)
          have htail : Sound mode true (.fixed "," :: (commaParts (next :: groups) ++ rest)) :=
            ⟨hcomma, fun _ => ⟨',', [], rfl, rfl⟩, hnext⟩
          simpa [commaParts] using hgroup _ htail

/-- An assignment to a plain column is sound before parts that break. -/
theorem Assignment.sound_parts {a : Assignment} {rest : List Part} (h : PlainName a.column)
    (hrest : Sound mode true rest) : Sound mode false (a.parts ++ rest) := by
  have hequals : Whole mode "=" := by cases mode <;> rfl
  exact ⟨whole_identifier_append h ⟨'=', [], rfl, rfl⟩ hequals, by simp, rfl, hrest⟩

/-- An assignment to a plain column is sound at the end. -/
theorem Assignment.sound_last {a : Assignment} (h : PlainName a.column) :
    Sound mode false a.parts := by
  have hparts : Sound mode false (a.parts ++ []) := sound_parts h trivial
  rwa [List.append_nil] at hparts

/-- A list of a single literal is sound before parts that break. -/
theorem sound_literal {l : Literal} {rest : List Part} (hrest : Sound mode true rest) :
    Sound mode false ([.literal l] ++ rest) :=
  ⟨rfl, hrest⟩

namespace Statement

/-- No token of a plain statement spans two of its parts. -/
theorem sound_parts {s : Statement} (h : s.Plain) : Sound mode false s.parts := by
  -- The fixed words are read by running the splitter; identifiers and columns are put between them.
  have hwhere : Whole mode " WHERE " := by cases mode <;> rfl
  have hwhereBreaks : Breaks " WHERE " := ⟨' ', _, rfl, rfl⟩
  have hdelete : Whole mode "DELETE FROM " := by cases mode <;> rfl
  have hequals : Whole mode "=" := by cases mode <;> rfl
  have hequalsBreaks : Breaks "=" := ⟨'=', [], rfl, rfl⟩
  have hclose : Sound mode true [.fixed ")"] :=
    ⟨by cases mode <;> rfl, fun _ => ⟨')', [], rfl, rfl⟩, trivial⟩
  have hleft : PlainName "left" := by simp [PlainName]
  have hright : PlainName "right" := by simp [PlainName]
  have hinsert : ∀ {table columns}, PlainName table → (∀ column ∈ columns, PlainName column) →
      Whole mode ("INSERT INTO " ++ identifier table ++ " (" ++ columnList columns ++
        ") VALUES (") := by
    intro table columns htable hcolumns
    have hinto : Whole mode "INSERT INTO " := by cases mode <;> rfl
    have hopen : Whole mode " (" := by cases mode <;> rfl
    have hvalues : Whole mode ") VALUES (" := by cases mode <;> rfl
    have hlist := whole_columnList_append hcolumns ⟨')', _, rfl, rfl⟩ hvalues
    simp only [String.append_assoc]
    refine hinto.append (whole_identifier_append htable ?_ (hopen.append hlist))
    exact Breaks.append ⟨' ', _, rfl, rfl⟩ _
  have hlink : ∀ {table}, PlainName table →
      Whole mode ("DELETE FROM " ++ identifier table ++ " WHERE " ++ identifier "left" ++ "=") := by
    intro table htable
    have hcolumn := hwhere.append (whole_identifier_append hleft hequalsBreaks hequals)
    simp only [String.append_assoc]
    exact hdelete.append (whole_identifier_append htable (hwhereBreaks.append _) hcolumn)
  cases s with
  | insertRow table assignments =>
      obtain ⟨htable, hcolumns⟩ := h
      refine ⟨hinsert htable ?_, by simp, sound_commaParts ?_ hclose⟩
      · intro column hcolumn
        obtain ⟨a, ha, rfl⟩ := List.mem_map.1 hcolumn
        exact hcolumns a ha
      · intro group hgroup rest hrest
        obtain ⟨a, ha, rfl⟩ := List.mem_map.1 hgroup
        exact sound_literal hrest
  | updateRow table assignments key =>
      obtain ⟨htable, hcolumns, hkey⟩ := h
      have hset : Whole mode " SET " := by cases mode <;> rfl
      have hupdate : Whole mode "UPDATE " := by cases mode <;> rfl
      have hend : Sound mode false key.parts := Assignment.sound_last hkey
      refine ⟨?_, by simp, sound_commaParts ?_ ⟨hwhere, fun _ => hwhereBreaks, hend⟩⟩
      · simp only [String.append_assoc]
        exact hupdate.append (whole_identifier_append htable ⟨' ', _, rfl, rfl⟩ hset)
      · intro group hgroup rest hrest
        obtain ⟨a, ha, rfl⟩ := List.mem_map.1 hgroup
        exact Assignment.sound_parts (hcolumns a ha) hrest
  | deleteRow table key =>
      refine ⟨?_, by simp, Assignment.sound_last h.2⟩
      simp only [String.append_assoc]
      exact hdelete.append (whole_identifier_append h.1 hwhereBreaks hwhere)
  | selectRow table columns key =>
      obtain ⟨htable, hcolumns, hkey⟩ := h
      refine ⟨?_, by simp, Assignment.sound_last hkey⟩
      have hselect : Whole mode "SELECT " := by cases mode <;> rfl
      have hfrom : Whole mode " FROM " := by cases mode <;> rfl
      have htail := hfrom.append (whole_identifier_append htable hwhereBreaks hwhere)
      simp only [String.append_assoc]
      exact hselect.append
        (whole_columnList_append hcolumns (Breaks.append ⟨' ', _, rfl, rfl⟩ _) htail)
  | insertLink table left right =>
      refine ⟨hinsert h ?_, by simp, rfl, ?_, fun _ => ⟨',', [], rfl, rfl⟩, rfl, hclose⟩
      · simp [hleft, hright]
      · cases mode <;> rfl
  | deleteLink table left right =>
      have hand : Whole mode " AND " := by cases mode <;> rfl
      have hcolumn := whole_identifier_append hright hequalsBreaks hequals
      refine ⟨hlink h, by simp, rfl, ?_, fun _ => ?_, rfl, trivial⟩
      · simp only [String.append_assoc]
        exact hand.append hcolumn
      · simp only [String.append_assoc]
        exact Breaks.append ⟨' ', _, rfl, rfl⟩ _
  | clearLinks table left => exact ⟨hlink h, by simp, rfl, trivial⟩
  | selectLinks table left =>
      have hselect : Whole mode "SELECT " := by cases mode <;> rfl
      have hfrom : Whole mode " FROM " := by cases mode <;> rfl
      have hcolumn := hwhere.append (whole_identifier_append hleft hequalsBreaks hequals)
      have htail := hfrom.append (whole_identifier_append h (hwhereBreaks.append _) hcolumn)
      refine ⟨?_, by simp, rfl, trivial⟩
      simp only [String.append_assoc]
      exact hselect.append
        (whole_identifier_append hright (Breaks.append ⟨' ', _, rfl, rfl⟩ _) htail)
  | createTable | createLinks | dropTable => exact h.elim

/-- The tokens of a plain statement are those of its parts, one after the other. -/
theorem tokens_text {s : Statement} (h : s.Plain) :
    tokens mode s.text = s.parts.flatMap (·.tokens mode) := by
  have hsound : Sound mode false s.parts := sound_parts h
  have hread := run_parts hsound outside_none fun _ => rfl
  rwa [partsText_parts] at hread

end Statement

/-! ## Statements of one frame -/

/-- Two token sequences with their literals in order: of one length, with the same tokens at every
position but those of a literal, each of which is one token in both. -/
inductive SameBut : List Token → List Literal → List Token → List Literal → Prop
  | nil : SameBut [] [] [] []
  | token (t : Token) {ts us : List Token} {ls ms : List Literal} (rest : SameBut ts ls us ms) :
      SameBut (t :: ts) ls (t :: us) ms
  | literal (l m : Literal) {ts us : List Token} {ls ms : List Literal}
      (rest : SameBut ts ls us ms) : SameBut (l.token :: ts) (l :: ls) (m.token :: us) (m :: ms)

/-- Sequences that are the same but for literals have one length. -/
theorem SameBut.length_eq {ts us : List Token} {ls ms : List Literal} (h : SameBut ts ls us ms) :
    ts.length = us.length := by
  induction h with
  | nil => rfl
  | token t _ ih => rw [List.length_cons, List.length_cons, ih]
  | literal l m _ ih => rw [List.length_cons, List.length_cons, ih]

/-- The same tokens may stand before two sequences. -/
theorem SameBut.append_left (fixed : List Token) {ts us : List Token} {ls ms : List Literal}
    (h : SameBut ts ls us ms) : SameBut (fixed ++ ts) ls (fixed ++ us) ms := by
  induction fixed with
  | nil => exact h
  | cons t fixed ih => exact .token t ih

/-- Parts of one frame have the same tokens but for their literals. -/
theorem sameBut_parts {ps qs : List Part} (h : ps.map Part.frame = qs.map Part.frame) :
    SameBut (ps.flatMap (·.tokens mode)) (ps.filterMap Part.literal?)
      (qs.flatMap (·.tokens mode)) (qs.filterMap Part.literal?) := by
  induction ps generalizing qs with
  | nil =>
      obtain rfl : qs = [] := by simpa using h.symm
      exact .nil
  | cons p ps ih =>
      cases qs with
      | nil => simp at h
      | cons q qs =>
          obtain ⟨hpq, hrest⟩ := List.cons.inj h
          cases p with
          | fixed text =>
              cases q with
              | fixed text' =>
                  obtain rfl : text = text' := by simpa [Part.frame] using hpq
                  exact (ih hrest).append_left (tokens mode text)
              | literal m => cases hpq
          | literal l =>
              cases q with
              | fixed text' => cases hpq
              | literal m => exact .literal l m (ih hrest)

/-- What groups of parts with commas between them are when the literals are left out. -/
theorem frame_commaParts (groups : List (List Part)) :
    (commaParts groups).map Part.frame
      = [some ","].intercalate (groups.map (·.map Part.frame)) := by
  induction groups with
  | nil => rfl
  | cons group groups ih =>
      cases groups with
      | nil => simp [commaParts]
      | cons next groups =>
          simp only [commaParts, List.map_cons, List.intercalate_cons_cons, List.map_append]
            at ih ⊢
          rw [ih]
          rfl

/-- The literals among groups of parts with commas between them. -/
theorem literals_commaParts {α : Type} (items : List α) (parts : α → List Part)
    (literal : α → Literal) (h : ∀ a ∈ items, (parts a).filterMap Part.literal? = [literal a]) :
    (commaParts (items.map parts)).filterMap Part.literal? = items.map literal := by
  induction items with
  | nil => rfl
  | cons a items ih =>
      have ha := h a List.mem_cons_self
      have hrest := ih fun b hb => h b (List.mem_cons_of_mem _ hb)
      cases items with
      | nil => simpa [commaParts] using ha
      | cons b items =>
          simp only [List.map_cons, commaParts, List.intercalate_cons_cons,
            List.filterMap_append] at ha hrest ⊢
          rw [ha, hrest]
          rfl

namespace Statement

/-- The literals of a plain statement are those among its parts. -/
theorem filterMap_parts {s : Statement} (h : s.Plain) :
    s.parts.filterMap Part.literal? = s.literals := by
  cases s with
  | insertRow table assignments =>
      have hvalues := literals_commaParts assignments (fun a => [.literal a.literal]) (·.literal)
        fun a _ => rfl
      simp only [parts, List.filterMap_cons, Part.literal?, List.filterMap_append, hvalues,
        List.filterMap_nil, List.append_nil, literals]
  | updateRow table assignments key =>
      have hvalues := literals_commaParts assignments (·.parts) (·.literal) fun a _ => rfl
      have hkey : key.parts.filterMap Part.literal? = [key.literal] := rfl
      simp only [parts, List.filterMap_cons, Part.literal?, List.filterMap_append, hvalues, hkey,
        literals]
  | createTable | createLinks | dropTable => exact h.elim
  | _ => rfl

/-- What a statement is when its literals are left out. -/
def frame (s : Statement) : List (Option String) := s.parts.map Part.frame

/-- The frame of an insertion follows from its table and its columns. -/
theorem frame_insertRow {table : String} {as bs : List Assignment}
    (h : as.map (·.column) = bs.map (·.column)) :
    (insertRow table as).frame = (insertRow table bs).frame := by
  have hgroups : ∀ cs : List Assignment,
      (cs.map fun a => [Part.literal a.literal]).map (·.map Part.frame)
        = (cs.map (·.column)).map fun _ => [none] := by
    intro cs
    rw [List.map_map, List.map_map]
    rfl
  simp only [frame, parts, List.map_cons, List.map_append, frame_commaParts, hgroups, h]

/-- The frame of an update follows from its table and its columns. -/
theorem frame_updateRow {table : String} {as bs : List Assignment} {key₁ key₂ : Assignment}
    (h : as.map (·.column) = bs.map (·.column)) (hkey : key₁.column = key₂.column) :
    (updateRow table as key₁).frame = (updateRow table bs key₂).frame := by
  have hgroups : ∀ cs : List Assignment,
      (cs.map (·.parts)).map (·.map Part.frame)
        = (cs.map (·.column)).map fun column => [some (identifier column ++ "="), none] := by
    intro cs
    rw [List.map_map, List.map_map]
    rfl
  have hkeyParts : key₁.parts.map Part.frame = key₂.parts.map Part.frame := by
    simp [Assignment.parts, Part.frame, hkey]
  simp only [frame, parts, List.map_cons, List.map_append, frame_commaParts, hgroups, h, hkeyParts]

/-- Plain statements of one frame have the same tokens but for their literals. -/
theorem sameBut {s t : Statement} (hs : s.Plain) (ht : t.Plain) (hframe : s.frame = t.frame) :
    SameBut (tokens mode s.text) s.literals (tokens mode t.text) t.literals := by
  rw [tokens_text hs, tokens_text ht, ← filterMap_parts hs, ← filterMap_parts ht]
  exact sameBut_parts hframe

end Statement

end EntityMapper.Sql
