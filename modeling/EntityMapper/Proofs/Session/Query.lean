import EntityMapper.Driver.Recorded
import EntityMapper.Proofs.Session.Schema
import EntityMapper.Proofs.Storage.Rows

/-!
# Querying records that are stored exactly

A query of a record that is stored exactly fetches one row. Where the driver never fails and serves
a row that builds the settled contents of all columns, the query leaves them (`query_ok`).
-/

namespace EntityMapper

variable {n : Nat} {c : Catalog n} {k : Fin n} {σ : Type} {d : Driver σ}

/-- Whether a line of a journal may come from a driver that never fails and that serves a row: every
call is answered, a cursor has a row, and reading gives the row. -/
def Entry.Serves (row : List Value) : Entry → Prop
  | .event _ | .cached _ => True
  | .call .next answer => answer = .ok true
  | .call (.read _) answer => answer.map (·.val) = .ok row
  | .call _ answer => ∃ a, answer = .ok a

/-- A driver that serves a row answers every call. -/
theorem Entry.Serves.answered {row : List Value} (call : Call)
    (answer : Except DriverError call.Answer) (h : (Entry.call call answer).Serves row) :
    ∃ a, answer = .ok a := by
  cases call with
  | next => exact ⟨true, h⟩
  | read slots =>
      cases answer with
      | error e => cases h
      | ok values => exact ⟨values, rfl⟩
  | _ => exact h

namespace Session

variable {row : List Value}

/-- Columns that are no relations are loaded by no call. -/
theorem loadRelations_run (b : Bound c k) {ts : List (ColumnType n)} {ds : List (Descriptor n)}
    (hds : ∀ d ∈ ds, d.type.isRelation = false) (columns : Columns c ts) (w : World σ) :
    (loadRelations (d := d) b columns ds).run w = ⟨⟨columns, .ok ()⟩, w, []⟩ := by
  induction ts generalizing ds with
  | nil =>
      cases columns
      rfl
  | cons t ts ih =>
      cases columns with
      | cons cell cells =>
          cases ds with
          | nil => rfl
          | cons descriptor ds =>
              have hfirst := hds descriptor List.mem_cons_self
              have hrest := ih (fun d hd => hds d (List.mem_cons_of_mem _ hd)) cells
              rw [loadRelations, hfirst]
              simp only [Bool.false_eq_true, if_false, Action.run_bind, Action.run_pure, hrest,
                List.append_nil]

/-- The row that a driver serves is scanned. -/
theorem scanFirst_serves {slots : List Value} {w : World σ}
    (h : ∀ entry ∈ ((scanFirst (d := d) slots).run w).journal, entry.Serves row) :
    ((scanFirst (d := d) slots).run w).value = .ok (some row) := by
  rw [scanFirst, Action.run_bind, Action.run_call] at h ⊢
  have hnext : (d.step .next w.driver).1 = .ok true :=
    h (.call .next _) (List.mem_append_left _ List.mem_cons_self)
  simp only [hnext] at h ⊢
  rw [Action.run_bind, Action.run_call] at h ⊢
  have hread : (d.step (.read slots) (d.step .next w.driver).2).1.map (·.val) = .ok row :=
    h (.call (.read slots) _) (List.mem_append_right _ (List.mem_append_left _ List.mem_cons_self))
  cases hanswer : (d.step (.read slots) (d.step .next w.driver).2).1 with
  | error e =>
      rw [hanswer] at hread
      cases hread
  | ok values =>
      rw [hanswer] at hread
      cases hread
      rfl

/-- The row that a driver serves is fetched. -/
theorem fetchRow_succeeds {b : Bound c k} {s : Sql.Statement} (hs : b.selectRow = .ok s)
    (w : World σ) :
    (fetchRow (d := d) b).Succeeds (Entry.Serves row) w fun answer _ => answer = row := by
  have hcall : ∀ (call : Call) (w : World σ),
      (Task.call call : Task d call.Answer).Succeeds (Entry.Serves row) w fun _ _ => True := by
    refine fun call w => .call fun hentry => ?_
    obtain ⟨a, ha⟩ := hentry.answered
    exact ⟨a, ha, trivial⟩
  have hfetch : ∀ (slots : List Value) (w : World σ),
      (fetch s (scanFirst slots) : Task d (Option (List Value))).Succeeds (Entry.Serves row) w
        fun answer _ => answer = some row := by
    intro slots w
    refine .bind (fun _ _ => True) (.report trivial) fun _ w _ => ?_
    refine .bind _ (hcall _ w) fun _ w _ => ?_
    refine .bind (fun scanned _ => scanned = .ok (some row)) (.lift scanFirst_serves) ?_
    rintro _ w rfl
    refine .bind (fun finished _ => finished = .ok ()) (.lift fun h => ?_) ?_
    · obtain ⟨_, ha⟩ := h (.call .finish _) List.mem_cons_self
      exact ha
    rintro _ w rfl
    refine .bind (fun answer _ => answer = some row) (.ofExcept rfl rfl) ?_
    rintro _ w rfl
    exact .bind (fun _ _ => True) (.ofExcept rfl trivial) fun _ w _ => .pure rfl
  refine .bind (fun statement _ => statement = s) (.ofExcept hs rfl) ?_
  rintro _ w rfl
  refine .bind (fun answer _ => answer = some row) (hfetch _ w) ?_
  rintro _ w rfl
  exact .pure rfl

/-- A query on a driver that serves a row leaves the record that the row gives back. -/
theorem query_ok (hexact : (c.model k).IsExact) {asked : Bound c k} {s : Sql.Statement}
    {columns : Columns c (c.model k).columnTypes} (hasked : asked.columns.bind = .ok asked)
    (hs : asked.selectRow = .ok s) (hrow : columns.Rebuilds row) {w : World σ}
    (hadmits : w.cache.Admits (c.model k).table (c.model k).origin)
    (hserves : ∀ entry ∈ ((query (d := d) ⟨k, asked.columns⟩).run w).journal, entry.Serves row) :
    ((query (d := d) ⟨k, asked.columns⟩).run w).value = ⟨⟨k, columns.settled⟩, .ok ()⟩ := by
  have hrelations := Models.relations_of_exact hexact asked.described
  obtain ⟨create, hcreate⟩ := Models.createTable_of_exact hexact asked.described
  have hload : ∀ w : World σ, (loadRecord (d := d) asked row).run w
      = ⟨⟨columns.settled, .ok ()⟩, w, []⟩ := by
    intro w
    have hhydrate := hydrate_of_rebuilds (fun t ht => hexact.columnTypes ht) hrow asked.columns
    rw [loadRecord, hhydrate]
    exact loadRelations_run _ (fun d hd => hexact.isRelation asked.described hd) _ w
  have hsteps : Staged.Succeeds (d := d) (Entry.Serves row) (do
      let (b, dependencies) ← Staged.ofExcept (Record.introspect ⟨k, asked.columns⟩)
      Staged.advance .schemaEnsuring
      Staged.task (ensureSchema c k dependencies)
      Staged.advance .executing
      let row ← Staged.task (fetchRow b)
      Staged.advance .hydrating
      Staged.attempt fun _ => do
        let left ← loadRecord b row
        return ⟨⟨k, left.storage⟩, left.result⟩)
      ⟨.query, (c.model k).name, .introspecting, (⟨k, asked.columns⟩ : Record c)⟩ w fun _ p _ =>
        p.storage = ⟨k, columns.settled⟩ := by
    refine .bind (fun bound _ w' => bound = (asked, []) ∧ w' = w)
      (.ofExcept (Record.introspect_of_exact hexact hasked) ⟨rfl, rfl⟩) ?_
    rintro _ p w ⟨rfl, rfl⟩
    refine .bind (fun _ _ w' => w' = w) (.advance rfl) ?_
    rintro _ p w rfl
    have hschema : (ensureSchema c k [] : Task d Unit).Succeeds (Entry.Serves row) w
        fun _ _ => True := ensureSchema_succeeds Entry.Serves.answered hrelations hcreate hadmits
    refine .bind (fun _ _ _ => True) (.task hschema fun _ _ _ => trivial) fun _ p w _ => ?_
    refine .bind (fun _ _ _ => True) (.advance trivial) fun _ p w _ => ?_
    refine .bind (fun answer _ _ => answer = row)
      (.task (fetchRow_succeeds hs w) fun _ _ hanswer => hanswer) ?_
    rintro _ p w rfl
    refine .bind (fun _ _ _ => True) (.advance trivial) fun _ p w _ => ?_
    refine .attempt (a := ()) ?_ rfl
    rw [Action.run_bind, hload]
    rfl
  obtain ⟨a, p, -, hvalue, hstorage⟩ := hsteps.operate hserves
  rw [← hstorage]
  exact hvalue

/-- A query of a record whose table the cache knows makes the calls of fetching its row only. -/
theorem query_serves (hexact : (c.model k).IsExact) {asked : Bound c k}
    (hasked : asked.columns.bind = .ok asked) {w : World σ}
    (hcheck : w.cache.check (c.model k).table (c.model k).origin = .ok true)
    (hfetch : ∀ entry ∈ ((fetchRow (d := d) asked).exec w).journal, entry.Serves row) :
    ∀ entry ∈ ((query (d := d) ⟨k, asked.columns⟩).run w).journal, entry.Serves row := by
  have hrelations := Models.relations_of_exact hexact asked.described
  have hload : ∀ (row : List Value) (w : World σ),
      ((loadRecord (d := d) asked row).run w).journal = [] := by
    intro row w
    rw [loadRecord]
    cases (hydrate asked.columns row).result with
    | error e => rfl
    | ok _ =>
        dsimp only
        rw [loadRelations_run _ fun d hd => hexact.isRelation asked.described hd]
  rw [query, Staged.run_operate]
  simp only [Staged.exec_bind, Staged.exec_ofExcept, Record.introspect_of_exact hexact hasked,
    Staged.exec_advance, Staged.exec_task, ensureSchema_known_alone hrelations hcheck,
    Staged.exec_attempt, Action.run_bind, hload, Action.run_pure]
  have hclosing : ∀ left : Except MapperError Unit × Progress (Record c),
      ∀ entry ∈ Staged.closing .query (c.model k).name left, entry.Serves row := by
    intro left entry hentry
    rw [Staged.closing] at hentry
    split at hentry <;> simp only [List.mem_cons, List.not_mem_nil, or_false] at hentry
    · rw [hentry]
      trivial
    · rcases hentry with rfl | rfl <;> trivial
  intro entry hentry
  simp only [List.nil_append, List.append_nil, List.mem_cons, List.mem_append, List.not_mem_nil,
    or_false] at hentry
  rcases hentry with rfl | (rfl | rfl | hentry) | hentry
  · trivial
  · trivial
  · trivial
  · split at hentry
    · rcases List.mem_append.1 hentry with hentry | hentry
      · exact hfetch entry hentry
      · rcases List.mem_singleton.1 hentry with rfl
        trivial
    · exact hfetch entry hentry
  · exact hclosing _ entry hentry

/-! ## The recording driver -/

/-- A row that leaves no slot as it was is read as it is. -/
theorem readRow_some {row slots : List Value} (hlength : row.length = slots.length) :
    (readRow (some (row.map some)) slots).map (·.val) = .ok row := by
  have hmap : (row.map some).length = slots.length := by rw [List.length_map, hlength]
  have hfill : ∀ (row slots : List Value), row.length = slots.length →
      fillSlots (row.map some) slots = row := by
    intro row
    induction row with
    | nil => exact fun _ _ => rfl
    | cons v row ih =>
        intro slots hlength
        cases slots with
        | nil => cases hlength
        | cons slot slots =>
            have hrest := ih slots (Nat.succ.inj hlength)
            rw [fillSlots] at hrest
            rw [fillSlots, List.map_cons, List.zipWith_cons_cons, hrest]
            rfl
  rw [readRow, dif_pos hmap]
  exact congrArg Except.ok (hfill row slots hlength)

/-- The recording driver serves the row that is queued. -/
theorem fetchRow_recorded (b : Bound c k) {s : Recorded} {cache : SchemaCache}
    {later : List (List (List Value))} (hfail : s.failOn = none)
    (hresults : s.results = [row] :: later) (hlength : row.length = b.stored.length) :
    ∀ entry ∈ ((fetchRow (d := Recorded.driver) b).exec ⟨s, cache⟩).journal, entry.Serves row := by
  have hquery : ∀ statement, (Recorded.driver.step (.query statement) s).1 = .ok () ∧
      (Recorded.driver.step (.query statement) s).2.cursor = [row] := by
    intro statement
    simp [Recorded.driver, Recorded.step, Recorded.isSilent, Call.subject?, Recorded.failure?,
      Recorded.record, hfail, Recorded.answer, hresults]
  have hnext : ∀ s : Recorded, s.cursor = [row] → (Recorded.driver.step .next s).1 = .ok true ∧
      (Recorded.driver.step .next s).2.row = some row := by
    intro s hcursor
    simp [Recorded.driver, Recorded.step, Recorded.isSilent, Recorded.answer, hcursor]
  have hread : ∀ (s : Recorded) (slots : List Value), s.row = some row →
      row.length = slots.length →
      (Recorded.driver.step (.read slots) s).1.map (·.val) = .ok row := by
    intro s slots hrow hslots
    have hstep : (Recorded.driver.step (.read slots) s).1
        = readRow (s.row.map (·.map some)) slots := rfl
    rw [hstep, hrow]
    exact readRow_some hslots
  have hscan : ∀ (s : Recorded) (slots : List Value), s.cursor = [row] →
      row.length = slots.length →
      ∀ entry ∈ ((scanFirst (d := Recorded.driver) slots).run ⟨s, cache⟩).journal,
        entry.Serves row := by
    intro s slots hcursor hslots
    obtain ⟨hrow, hat⟩ := hnext s hcursor
    rw [scanFirst, Action.run_bind, Action.run_call]
    simp only [hrow]
    rw [Action.run_bind, Action.run_call]
    intro entry hentry
    simp only [List.singleton_append, Action.run_pure, List.mem_cons, List.not_mem_nil,
      or_false] at hentry
    rcases hentry with rfl | rfl
    · exact rfl
    · exact hread _ slots hat hslots
  have hnothing : ∀ {α : Type} (result : Except MapperError α) (w : World Recorded),
      ∀ entry ∈ ((Task.ofExcept (d := Recorded.driver) result).exec w).journal, entry.Serves row :=
    fun _ _ _ hentry => absurd hentry List.not_mem_nil
  refine Task.forall_journal_bind (hnothing _ _) fun statement _ => ?_
  -- Fetching makes four calls: the query, two to scan, and the one that finishes the cursor.
  refine Task.forall_journal_bind
    (Task.forall_journal_bind (by simp [Entry.Serves]) fun _ _ => ?_) ?_
  · refine Task.forall_journal_bind ?_ fun _ _ => Task.forall_journal_bind ?_ fun _ _ =>
      Task.forall_journal_bind ?_ fun _ _ => Task.forall_journal_bind (hnothing _ _) fun _ _ =>
        Task.forall_journal_bind (hnothing _ _) fun _ _ => hnothing (.ok _) _
    · intro entry hentry
      rcases List.mem_singleton.1 hentry with rfl
      exact ⟨(), (hquery statement).1⟩
    · rw [Task.exec_lift]
      exact hscan _ _ (hquery statement).2 (by rw [List.length_map, hlength])
    · intro entry hentry
      rw [Task.exec_lift] at hentry
      rcases List.mem_singleton.1 hentry with rfl
      exact ⟨(), rfl⟩
  · intro answer _
    cases answer with
    | some values => exact hnothing (.ok values) _
    | none => exact Task.forall_journal_bind (hnothing _ _) fun _ _ => hnothing (.error _) _

end Session

end EntityMapper
