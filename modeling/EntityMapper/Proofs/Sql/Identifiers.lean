import EntityMapper.Proofs.Sql.Parts
import Mathlib.Data.List.Flatten

/-!
# Identifiers of statements

The names between the backquotes of a statement, read as the database reads them: from a backquote
to the next one that is not doubled. A statement is put together from fixed words, identifiers and
literals, and no token spans two of these, so a statement whose names hold no backquote is read as
those names (`Statement.readsAs`). A name that holds one is lost where it stands alone between
backquotes: an identifier has more backquotes than its name by two, and each one inside it stands
for half of a pair (`identifiers_dropTable_iff`).
-/

namespace EntityMapper.Sql

/-! ## Names of tokens -/

/-- The characters up to the closing backquote, with doubled backquotes undone. Where nothing closes
there are none. -/
def unquote : List Char → Option (List Char)
  | '`' :: '`' :: cs => (unquote cs).map ('`' :: ·)
  | '`' :: _ => some []
  | c :: cs => (unquote cs).map (c :: ·)
  | [] => none

/-- The name that an identifier stands for. -/
def Token.name? (t : Token) : Option String :=
  match t.kind, t.text.toList with
  | .identifier, '`' :: cs => (unquote cs).map String.ofList
  | _, _ => none

/-- The names of the identifiers in a text, in order. -/
def identifiers (mode : BackslashMode) (text : String) : List String :=
  (tokens mode text).filterMap Token.name?

/-- Whether the identifiers in a text are read as the given names, and every quote is closed. -/
structure ReadsAs (mode : BackslashMode) (text : String) (names : List String) : Prop where
  identifiers_eq : identifiers mode text = names
  finished : ∀ t ∈ tokens mode text, t.kind ≠ .unfinished

variable {mode : BackslashMode} {state : LexState} {s t : String}

/-- A name without backquotes ends where the first one stands. -/
theorem unquote_append {cs : List Char} (h : '`' ∉ cs) : unquote (cs ++ ['`']) = some cs := by
  induction cs with
  | nil => rfl
  | cons c cs ih =>
      have hc : c ≠ '`' := fun heq => h (heq ▸ List.mem_cons_self)
      have hrest := ih fun hmem => h (List.mem_cons_of_mem c hmem)
      rw [List.cons_append, unquote.eq_3 c _ (by simp [hc]) (by simp [hc]), hrest]
      rfl

/-- A token between plain quotes stands for what is between them. -/
theorem name?_identifier {name : String} (h : PlainName name) :
    Token.name? ⟨.identifier, identifier name⟩ = some name := by
  have htext : (identifier name).toList = '`' :: (name.toList ++ ['`']) := by
    simp [identifier, String.toList_append]
  simp only [Token.name?, htext, unquote_append h, Option.map_some, String.ofList_toList]

/-- Literals are no identifiers. -/
theorem name?_literal (l : Literal) : l.token.name? = none := by
  cases l <;> rfl

/-! ## Reading piece by piece -/

/-- A text behind one that is whole, or outside of quotes before a break, is read by itself. -/
theorem tokens_append (h : Whole mode s ∨ Outside (run mode none s.toList).2 ∧ Breaks t) :
    tokens mode (s ++ t) = tokens mode s ++ tokens mode t ∧
      (run mode none (s ++ t).toList).2 = (run mode none t.toList).2 := by
  rcases h with hwhole | ⟨houtside, hbreaks⟩
  · have hstate : (run mode none s.toList).2 = none := hwhole
    simp [tokens, String.toList_append, run_append, hstate, flush]
  · have hrun : run mode (run mode none s.toList).2 (t.toList ++ []) = _ :=
      run_of_breaks houtside hbreaks
    rw [List.append_nil] at hrun
    simp [tokens, String.toList_append, run_append, hrun]

/-- How a piece of a statement is read where no token is open: as the given names, and up to its end
or, where the last token may go on, outside of quotes. -/
structure Reads (mode : BackslashMode) (isOpen : Bool) (text : String) (names : List String) :
    Prop where
  identifiers_eq : identifiers mode text = names
  outside : Outside (run mode none text.toList).2
  whole : isOpen = false → Whole mode text

/-- Whether a text holds no identifier and is whole or, where that is allowed, ends outside of
quotes. -/
def isBare (isOpen : Bool) (text : String) : Bool :=
  [BackslashMode.escapes, .ordinary].all fun mode =>
    (identifiers mode text).isEmpty &&
      (run mode none text.toList).2.all fun entry => isOpen && !entry.1.isQuoted

/-- Whether a bare text ends the token before it. -/
def isFiller (isOpen : Bool) (text : String) : Bool :=
  match text.toList with
  | c :: _ => isBreak c && isBare isOpen text
  | [] => false

namespace Reads

variable {o o' : Bool} {ns ms : List String} {text : String}

/-- Two pieces that are read one after the other have the names of both. -/
theorem join (hs : Reads mode o s ns) (ht : Reads mode o' t ms)
    (h : Whole mode s ∨ Outside (run mode none s.toList).2 ∧ Breaks t) :
    Reads mode o' (s ++ t) (ns ++ ms) := by
  obtain ⟨htokens, hstate⟩ := tokens_append h
  refine ⟨?_, hstate ▸ ht.outside, fun ho => hstate.trans (ht.whole ho)⟩
  rw [identifiers, htokens, List.filterMap_append]
  exact congrArg₂ (· ++ ·) hs.identifiers_eq ht.identifiers_eq

/-- A piece behind one that is whole adds its names. -/
theorem append (hs : Reads mode false s ns) (ht : Reads mode o t ms) :
    Reads mode o (s ++ t) (ns ++ ms) :=
  hs.join ht (.inl (hs.whole rfl))

/-- A bare text has no names. -/
theorem bare (h : isBare o text = true) : Reads mode o text [] := by
  have hboth := List.all_eq_true.1 h mode (by cases mode <;> simp)
  obtain ⟨hnames, hstate⟩ := Bool.and_eq_true_iff.1 hboth
  refine ⟨List.isEmpty_iff.1 hnames, ?_, ?_⟩
  · intro entry hentry
    simpa using (Bool.and_eq_true_iff.1 (Option.all_eq_true _ _ |>.1 hstate entry hentry)).2
  · rintro rfl
    simpa [Whole] using hstate

/-- A filler may stand behind every piece. -/
theorem filler (hs : Reads mode o s ns) (h : isFiller o' text = true) :
    Reads mode o' (s ++ text) ns := by
  unfold isFiller at h
  split at h
  · rename_i c cs htext
    obtain ⟨hbreak, hbare⟩ := Bool.and_eq_true_iff.1 h
    have hjoin := hs.join (bare hbare) (.inr ⟨hs.outside, c, cs, htext, hbreak⟩)
    rwa [List.append_nil] at hjoin
  · cases h

/-- A plain identifier has its own name. -/
theorem ofName {name : String} (h : PlainName name) :
    Reads mode true (identifier name) [name] := by
  have hrun : run mode none (identifier name).toList = _ := run_identifier h
  refine ⟨?_, ?_, Bool.noConfusion⟩
  · rw [identifiers, tokens, hrun]
    simp [flush, Reading.kind, name?_identifier h]
  · rw [hrun]
    simp [Outside, Reading.isQuoted]

/-- A literal has no name. -/
theorem ofLiteral (l : Literal) : Reads mode true l.text [] := by
  obtain ⟨reading, hquoted, hrun, hflush⟩ := run_literal mode l
  refine ⟨?_, ?_, Bool.noConfusion⟩
  · rw [identifiers, tokens, hrun, hflush]
    simp [name?_literal]
  · rw [hrun]
    simp [Outside, hquoted]

/-- An identifier behind a piece that is whole adds its name. -/
theorem identifier (hs : Reads mode false s ns) {name : String} (h : PlainName name) :
    Reads mode true (s ++ Sql.identifier name) (ns ++ [name]) :=
  hs.append (ofName h)

/-- A literal behind a piece that is whole adds no name. -/
theorem literal (hs : Reads mode false s ns) (l : Literal) : Reads mode true (s ++ l.text) ns := by
  have happend := hs.append (ofLiteral l)
  rwa [List.append_nil] at happend

/-- Pieces with a filler between them have the names of all. -/
theorem separated {α : Type} {separator : String} (hseparator : isFiller false separator = true)
    {items : List α} {text : α → String} {names : α → List String}
    (h : ∀ a ∈ items, Reads mode true (text a) (names a)) :
    Reads mode true (Sql.separated separator (items.map text)) (items.flatMap names) := by
  induction items with
  | nil => exact bare rfl
  | cons a items ih =>
      have ha := h a List.mem_cons_self
      have hrest := ih fun b hb => h b (List.mem_cons_of_mem _ hb)
      cases items with
      | nil => simpa [Sql.separated] using ha
      | cons b items =>
          have happend := (ha.filler hseparator).append hrest
          simpa only [Sql.separated, List.map_cons, String.intercalate_cons_cons, List.flatMap_cons]
            using happend

/-- Pieces of one name each, with a filler between them, have their names. -/
theorem separated_names {α : Type} {separator : String}
    (hseparator : isFiller false separator = true) {items : List α} {text name : α → String}
    (h : ∀ a ∈ items, Reads mode true (text a) [name a]) :
    Reads mode true (Sql.separated separator (items.map text)) (items.map name) := by
  have hall := separated hseparator h
  rwa [← List.map_eq_flatMap] at hall

/-- Columns with commas between them have their own names. -/
theorem columnList {columns : List String} (h : ∀ column ∈ columns, PlainName column) :
    Reads mode true (Sql.columnList columns) columns := by
  have hall : Reads mode true (Sql.columnList columns) (columns.map id) :=
    separated_names rfl fun column hcolumn => ofName (h column hcolumn)
  rwa [List.map_id] at hall

/-- Literals with commas between them have no names. -/
theorem literals (assignments : List Assignment) :
    Reads mode true (Sql.separated "," (assignments.map (·.literal.text))) [] := by
  have hall : Reads mode true (Sql.separated "," (assignments.map (·.literal.text)))
      (assignments.flatMap fun _ => []) :=
    separated rfl fun a _ => ofLiteral a.literal
  rwa [List.flatMap_eq_nil_iff.2 fun _ _ => rfl] at hall

end Reads

/-! ## Names of statements -/

/-- What follows the name of a column in its declaration. -/
def ColumnDeclaration.modifiers (d : ColumnDeclaration) : String :=
  " " ++ d.type.name ++ " NOT NULL " ++ (if d.isAuto then "AUTO_INCREMENT" else "")

/-- A declaration is the name of the column and what follows it. -/
theorem ColumnDeclaration.text_eq (d : ColumnDeclaration) :
    d.text = identifier d.name ++ d.modifiers := by
  simp only [text, modifiers, String.append_assoc]

/-- What follows the name of a column starts with a break. -/
theorem ColumnDeclaration.breaks_modifiers (d : ColumnDeclaration) : Breaks d.modifiers := by
  have hblank : Breaks " " := ⟨' ', [], rfl, rfl⟩
  exact ((hblank.append _).append _).append _

/-- What follows the name of a column has no name. -/
theorem ColumnDeclaration.reads_modifiers (d : ColumnDeclaration) :
    Reads mode true d.modifiers [] := by
  have htype : Reads mode true d.type.name [] := .bare (by cases d.type <;> rfl)
  have hmark : Reads mode true (if d.isAuto then "AUTO_INCREMENT" else "") [] := by
    split <;> exact .bare rfl
  exact (((Reads.bare rfl).append htype).filler rfl).append hmark

/-- A declaration has the name of its column. -/
theorem ColumnDeclaration.reads {d : ColumnDeclaration} (h : PlainName d.name) :
    Reads mode true d.text [d.name] := by
  have hname : Reads mode true (identifier d.name) [d.name] := .ofName h
  rw [d.text_eq]
  exact hname.join d.reads_modifiers (.inr ⟨hname.outside, d.breaks_modifiers⟩)

/-- A key clause has the name of its column. -/
theorem reads_primaryKeyClause {column : String} (h : PlainName column) :
    Reads mode true (primaryKeyClause column) [column] :=
  ((Reads.bare rfl).identifier h).filler rfl

/-- An assignment has the name of its column. -/
theorem Assignment.reads {a : Assignment} (h : PlainName a.column) :
    Reads mode true a.text [a.column] :=
  ((Reads.ofName h).filler rfl).literal a.literal

/-- Assignments with commas between them have the names of their columns. -/
theorem reads_assignments {assignments : List Assignment}
    (h : ∀ a ∈ assignments, PlainName a.column) :
    Reads mode true (separated "," (assignments.map (·.text))) (assignments.map (·.column)) :=
  .separated_names rfl fun a ha => Assignment.reads (h a ha)

/-- The definition of a table has the name of the table and those of its lines. -/
theorem reads_tableDefinition {table : String} (htable : PlainName table)
    {lines : List (String × String)} (h : ∀ line ∈ lines, Reads mode true line.1 [line.2]) :
    Reads mode true (tableDefinition table (lines.map (·.1))) (table :: lines.map (·.2)) :=
  ((((Reads.bare rfl).identifier htable).filler rfl).append (.separated_names rfl h)).filler rfl

/-- The columns of link tables are plain. -/
theorem plainName_left : PlainName "left" := by decide

theorem plainName_right : PlainName "right" := by decide

theorem plainName_id : PlainName "id" := by decide

namespace Reads

variable {table : String}

/-- The start of an insertion has the names of the table and the columns. -/
theorem insertInto (htable : PlainName table) {columns : List String}
    (hcolumns : ∀ column ∈ columns, PlainName column) :
    Reads mode false ("INSERT INTO " ++ Sql.identifier table ++ " (" ++ Sql.columnList columns ++
      ") VALUES (") (table :: columns) :=
  ((((bare rfl).identifier htable).filler rfl).append (.columnList hcolumns)).filler rfl

/-- The start of a deletion has the name of the table. -/
theorem deleteFrom (htable : PlainName table) :
    Reads mode false ("DELETE FROM " ++ Sql.identifier table ++ " WHERE ") [table] :=
  ((bare rfl).identifier htable).filler rfl

/-- The start of a deletion of links has the names of the table and the left column. -/
theorem deleteLinks (htable : PlainName table) (left : Literal) :
    Reads mode true ("DELETE FROM " ++ Sql.identifier table ++ " WHERE " ++ Sql.identifier "left" ++
      "=" ++ left.text) [table, "left"] :=
  (((deleteFrom htable).identifier plainName_left).filler rfl).literal left

end Reads

namespace Statement

/-- The names that stand between backquotes in a statement, in the order in which its text has
them. -/
def names : Statement → List String
  | createTable table columns key => table :: (columns.map (·.name) ++ key.toList)
  | createLinks table => [table, "id", "left", "right", "id"]
  | dropTable table => [table]
  | insertRow table assignments => table :: assignments.map (·.column)
  | updateRow table assignments key => table :: (assignments.map (·.column) ++ [key.column])
  | deleteRow table key => [table, key.column]
  | selectRow table columns key => columns ++ [table, key.column]
  | insertLink table _ _ | deleteLink table _ _ => [table, "left", "right"]
  | clearLinks table _ => [table, "left"]
  | selectLinks table _ => ["right", table, "left"]

/-- The creation of a table has one name in each line. -/
theorem reads_createTable {table : String} {columns : List ColumnDeclaration} {key : Option String}
    (htable : PlainName table) (hcolumns : ∀ d ∈ columns, PlainName d.name)
    (hkey : ∀ column ∈ key, PlainName column) :
    Reads mode true (createTable table columns key).text (createTable table columns key).names := by
  let lines := columns.map (fun d => (d.text, d.name)) ++
    (key.map fun column => (primaryKeyClause column, column)).toList
  have hlines : ∀ line ∈ lines, Reads mode true line.1 [line.2] := by
    simp only [lines, List.forall_mem_append, List.forall_mem_map]
    refine ⟨fun d hd => d.reads (hcolumns d hd), fun line hline => ?_⟩
    obtain ⟨column, hcolumn, rfl⟩ := Option.map_eq_some_iff.1 (Option.mem_toList.1 hline)
    exact reads_primaryKeyClause (hkey column hcolumn)
  have htexts : columns.map (·.text) ++ (key.map primaryKeyClause).toList = lines.map (·.1) := by
    cases key <;> simp [lines]
  have hnames : columns.map (·.name) ++ key.toList = lines.map (·.2) := by
    cases key <;> simp [lines]
  have hall : Reads mode true (tableDefinition table (lines.map (·.1)))
      (table :: lines.map (·.2)) := reads_tableDefinition htable hlines
  rwa [← htexts, ← hnames] at hall

/-- The creation of a link table has one name in each line. -/
theorem reads_createLinks {table : String} (htable : PlainName table) :
    Reads mode true (createLinks table).text (createLinks table).names := by
  have hlines : ∀ line ∈ [(identifier "id" ++ " INT NOT NULL AUTO_INCREMENT", "id"),
      (identifier "left" ++ " INT NOT NULL", "left"),
      (identifier "right" ++ " INT NOT NULL", "right"), (primaryKeyClause "id", "id")],
      Reads mode true line.1 [line.2] := by
    simp only [List.forall_mem_cons, List.not_mem_nil, false_implies, implies_true, and_true]
    exact ⟨(Reads.ofName plainName_id).filler rfl, (Reads.ofName plainName_left).filler rfl,
      (Reads.ofName plainName_right).filler rfl, reads_primaryKeyClause plainName_id⟩
  have hall := reads_tableDefinition htable hlines
  simp only [List.map_cons, List.map_nil] at hall
  exact hall

/-- A statement whose names are plain is read as its names. -/
theorem reads {s : Statement} (h : ∀ name ∈ s.names, PlainName name) :
    Reads mode true s.text s.names := by
  cases s with
  | createTable table columns key =>
      simp only [names, List.forall_mem_cons, List.forall_mem_append, List.forall_mem_map,
        Option.mem_toList] at h
      exact reads_createTable h.1 h.2.1 h.2.2
  | createLinks table => exact reads_createLinks (h table (.head _))
  | dropTable table => exact (Reads.bare rfl).identifier (h table (.head _))
  | insertRow table assignments =>
      simp only [names, List.forall_mem_cons] at h
      have hall : Reads mode true (insertRow table assignments).text (_ ++ []) :=
        ((Reads.insertInto h.1 h.2).append (.literals assignments)).filler rfl
      rwa [List.append_nil] at hall
  | updateRow table assignments key =>
      simp only [names, List.forall_mem_cons, List.forall_mem_append, List.forall_mem_map] at h
      obtain ⟨htable, hcolumns, hkey, -⟩ := h
      exact (((((Reads.bare rfl).identifier htable).filler rfl).append
        (reads_assignments hcolumns)).filler rfl).append (Assignment.reads hkey)
  | deleteRow table key =>
      simp only [names, List.forall_mem_cons] at h
      exact (Reads.deleteFrom h.1).append (Assignment.reads h.2.1)
  | selectRow table columns key =>
      simp only [names, List.forall_mem_cons, List.forall_mem_append] at h
      obtain ⟨hcolumns, htable, hkey, -⟩ := h
      have hall : Reads mode true (selectRow table columns key).text
          ((columns ++ [table]) ++ [key.column]) :=
        (((((Reads.bare rfl).append (.columnList hcolumns)).filler rfl).identifier htable).filler
          rfl).append (Assignment.reads hkey)
      rwa [List.append_assoc] at hall
  | insertLink table left right =>
      have hcolumns : ∀ column ∈ ["left", "right"], PlainName column := by
        simp [plainName_left, plainName_right]
      have hinto : Reads mode false _ [table, "left", "right"] :=
        .insertInto (h table (.head _)) hcolumns
      exact (((hinto.literal left).filler rfl).literal right).filler rfl
  | deleteLink table left right =>
      have hleft : Reads mode true _ [table, "left"] := .deleteLinks (h table (.head _)) left
      exact (((hleft.filler rfl).identifier plainName_right).filler rfl).literal right
  | clearLinks table left => exact .deleteLinks (h table (.head _)) left
  | selectLinks table left =>
      have htable := h table (.tail _ (.head _))
      exact (((((((Reads.bare rfl).identifier plainName_right).filler rfl).identifier htable).filler
        rfl).identifier plainName_left).filler rfl).literal left

end Statement

/-! ## Closed quotes -/

/-- A token that ends before another character is not cut off inside quotes. -/
theorem finished_step {c : Char} : ∀ t ∈ (step mode state c).1, t.kind ≠ .unfinished := by
  have hstart : ∀ t ∈ (start c).1, t.kind ≠ .unfinished := by
    intro t ht
    unfold start at ht
    split_ifs at ht <;> simp_all
  cases state with
  | none => exact hstart
  | some entry =>
      obtain ⟨reading, read⟩ := entry
      intro t ht
      cases hnext : reading.next? mode c with
      | some after =>
          rw [step_of_next? hnext] at ht
          cases ht
      | none =>
          simp only [step, hnext] at ht
          rcases List.mem_append.1 ht with ht | ht
          · obtain rfl := List.mem_singleton.1 ht
            cases reading <;> simp_all [Reading.kind, Reading.next?]
          · exact hstart t ht

/-- Only the last token of a text may be cut off inside quotes. -/
theorem finished_run {cs : List Char} : ∀ t ∈ (run mode state cs).1, t.kind ≠ .unfinished := by
  induction cs generalizing state with
  | nil => exact fun t ht => absurd ht List.not_mem_nil
  | cons c cs ih =>
      rw [run_cons]
      exact List.forall_mem_append.2 ⟨finished_step, ih⟩

/-- A token that is cut off outside of quotes is complete. -/
theorem finished_flush (h : Outside state) : ∀ t ∈ flush state, t.kind ≠ .unfinished := by
  cases state with
  | none => exact fun t ht => absurd ht List.not_mem_nil
  | some entry =>
      obtain ⟨reading, read⟩ := entry
      have hquoted : reading.isQuoted = false := h (reading, read) rfl
      intro t ht
      obtain rfl := List.mem_singleton.1 ht
      cases reading <;> simp_all [Reading.kind, Reading.isQuoted]

/-- A statement whose names are plain is read as its names. -/
theorem Statement.readsAs {s : Statement} (h : ∀ name ∈ s.names, PlainName name) :
    ReadsAs mode s.text s.names :=
  ⟨(reads h).identifiers_eq,
    List.forall_mem_append.2 ⟨finished_run, finished_flush (reads h).outside⟩⟩

/-! ## Names with backquotes -/

/-- What a splitter has read of the token it stands in. -/
def LexState.read : LexState → List Char
  | none => []
  | some (_, read) => read

/-- A character is kept in some token, or left out. -/
theorem step_sublist (c : Char) :
    List.Sublist ((step mode state c).1.flatMap (·.text.toList) ++
      LexState.read (step mode state c).2) (LexState.read state ++ [c]) := by
  have hstart :
      List.Sublist ((start c).1.flatMap (·.text.toList) ++ LexState.read (start c).2) [c] := by
    unfold start
    split_ifs <;> simp [LexState.read]
  cases state with
  | none => exact hstart
  | some entry =>
      obtain ⟨reading, read⟩ := entry
      cases hnext : reading.next? mode c with
      | some after =>
          rw [step_of_next? hnext]
          exact .refl _
      | none =>
          simp only [step, hnext, flush]
          simpa [LexState.read] using hstart

/-- The tokens read in a text, and what is open after it, are the text but for what is left out. -/
theorem run_sublist (cs : List Char) :
    List.Sublist ((run mode state cs).1.flatMap (·.text.toList) ++
      LexState.read (run mode state cs).2) (LexState.read state ++ cs) := by
  induction cs generalizing state with
  | nil => simp
  | cons c cs ih =>
      rw [run_cons, List.flatMap_append, List.append_assoc]
      refine (ih.append_left _).trans ?_
      rw [← List.append_assoc, List.append_cons]
      exact (step_sublist c).append_right cs

/-- The tokens of a text, put together, are the text but for what is left out. -/
theorem tokens_sublist (text : String) :
    List.Sublist ((tokens mode text).flatMap (·.text.toList)) text.toList := by
  have hflush : ∀ state, (flush state).flatMap (·.text.toList) = LexState.read state := by
    intro state
    cases state <;> simp [flush, LexState.read]
  rw [tokens, List.flatMap_append, hflush]
  exact run_sublist text.toList

/-- Each backquote of a name stands for two, and one more closes the identifier. -/
theorem count_of_unquote {cs name : List Char} (h : unquote cs = some name) :
    2 * name.count '`' + 1 ≤ cs.count '`' := by
  fun_induction unquote cs generalizing name with
  | case1 cs ih =>
      obtain ⟨rest, hrest, rfl⟩ := Option.map_eq_some_iff.1 h
      have hcount := ih hrest
      simp only [List.count_cons_self]
      omega
  | case2 cs =>
      cases h
      simp
  | case3 c cs hdoubled hclosing ih =>
      obtain ⟨rest, hrest, rfl⟩ := Option.map_eq_some_iff.1 h
      have hcount := ih hrest
      have hc : c ≠ '`' := hclosing
      rwa [List.count_cons_of_ne hc, List.count_cons_of_ne hc]
  | case4 => cases h

/-- An identifier holds each backquote of its name twice, and two around them. -/
theorem Token.count_of_name? {t : Token} {name : String} (h : t.name? = some name) :
    2 * name.toList.count '`' + 2 ≤ t.text.toList.count '`' := by
  unfold name? at h
  split at h
  · rename_i cs hkind htext
    obtain ⟨chars, hchars, rfl⟩ := Option.map_eq_some_iff.1 h
    have hcount := count_of_unquote hchars
    rw [htext, List.count_cons_self, String.toList_ofList]
    omega
  · cases h

/-- A name that is among those of a text has at most half of the backquotes that are left when the
two around it are taken away. -/
theorem count_of_mem_identifiers {text name : String} (h : name ∈ identifiers mode text) :
    2 * name.toList.count '`' + 2 ≤ text.toList.count '`' := by
  obtain ⟨t, ht, hname⟩ := List.mem_filterMap.1 h
  have hkept : List.Sublist ([t].flatMap (·.text.toList)) text.toList :=
    ((List.singleton_sublist.2 ht).flatMap _).trans (tokens_sublist text)
  rw [List.flatMap_singleton] at hkept
  exact Nat.le_trans (t.count_of_name? hname) (hkept.count_le '`')

/-- A table is dropped under its own name exactly when the name is plain. -/
theorem identifiers_dropTable_iff {table : String} :
    identifiers mode (Statement.dropTable table).text = [table] ↔ PlainName table := by
  constructor
  · intro h
    have hwords : "DROP TABLE IF EXISTS ".toList.count '`' = 0 := by decide
    have hquote : "`".toList.count '`' = 1 := by decide
    have htext : (Statement.dropTable table).text
        = "DROP TABLE IF EXISTS " ++ identifier table := rfl
    have hmany := count_of_mem_identifiers (h.symm ▸ List.mem_singleton_self table)
    simp only [htext, identifier, String.toList_append, List.count_append, hwords, hquote] at hmany
    exact List.count_eq_zero.1 (by omega)
  · intro h
    exact (Reads.identifier (.bare rfl) h).identifiers_eq

end EntityMapper.Sql
