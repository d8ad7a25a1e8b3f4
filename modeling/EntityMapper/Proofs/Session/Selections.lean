import EntityMapper.Proofs.Session.JobRuns
import EntityMapper.Proofs.Session.Plans
import EntityMapper.Session.Read

/-!
# Selections

A selection is a query with the rows that are read before the next one. The selections of a journal
are found line by line (`selections`), so those of one part follow those of the part before it
(`Selects.append`). Fetching makes one selection, and what it answers are the rows of that
(`Session.fetchRow_leads`, `Session.fetchColumn_leads`).
-/

namespace EntityMapper

open Sql

variable {n : Nat} {c : Catalog n} {k : Fin n} {σ α : Type} {d : Driver σ}

/-! ## Selections in journals -/

/-- A query and the rows that were read from it. -/
structure Selection where
  statement : Statement
  rows : List (List Value)

/-- The rows that are read at the start of a journal and the selections that follow, where a line
is put in front. -/
def Entry.select (entry : Entry) (later : List (List Value) × List Selection) :
    List (List Value) × List Selection :=
  match entry with
  | .call (.query s) _ => ([], ⟨s, later.1⟩ :: later.2)
  | .call (.read _) (.ok row) => (row.val :: later.1, later.2)
  | _ => later

/-- The selections of a journal, each with the rows that were read before the next one. -/
def selections (journal : List Entry) : List Selection := (journal.foldr Entry.select ([], [])).2

/-- Whether a journal makes selections and reads no row but of these. -/
def Selects (made : List Selection) (journal : List Entry) : Prop :=
  ∀ later, journal.foldr Entry.select ([], later) = ([], made ++ later)

/-- Whether a journal reads rows and makes no selection. -/
def Reads (rows : List (List Value)) (journal : List Entry) : Prop :=
  ∀ later, journal.foldr Entry.select later = (rows ++ later.1, later.2)

variable {journal journal' : List Entry}

namespace Selects

theorem empty : Selects [] [] := fun _ => rfl

theorem append {made made' : List Selection} (h : Selects made journal)
    (h' : Selects made' journal') : Selects (made ++ made') (journal ++ journal') := by
  intro later
  rw [List.foldr_append, h', h, List.append_assoc]

/-- The selections of a journal are those it makes. -/
theorem selections_eq {made : List Selection} (h : Selects made journal) :
    selections journal = made := by
  rw [selections, h, List.append_nil]

/-- A journal without queries and rows makes no selections. -/
theorem nil (h : ∀ entry ∈ journal, ∀ later, entry.select later = later) : Selects [] journal := by
  intro later
  induction journal with
  | nil => rfl
  | cons entry journal ih =>
      rw [List.foldr_cons, ih fun entry hentry => h entry (List.mem_cons_of_mem _ hentry),
        h entry List.mem_cons_self]

/-- Lines without queries and rows may stand around those of selections. -/
theorem around {made : List Selection} {before after : List Entry}
    (hbefore : ∀ entry ∈ before, ∀ later, entry.select later = later) (h : Selects made journal)
    (hafter : ∀ entry ∈ after, ∀ later, entry.select later = later) :
    Selects made (before ++ (journal ++ after)) := by
  have hall := (nil hbefore).append (h.append (nil hafter))
  rwa [List.nil_append, List.append_nil] at hall

/-- A query whose rows are read makes one selection. -/
theorem one {s : Statement} {answer : Except DriverError (Call.query s).Answer}
    {rows : List (List Value)} (h : Reads rows journal) :
    Selects [⟨s, rows⟩] (.event (.statement .query s) :: .call (.query s) answer :: journal) := by
  intro later
  rw [List.foldr_cons, List.foldr_cons, h]
  show (([], ⟨s, rows ++ []⟩ :: later) : List (List Value) × List Selection) = _
  rw [List.append_nil]
  rfl

end Selects

namespace Reads

theorem append {rows rows' : List (List Value)} (h : Reads rows journal)
    (h' : Reads rows' journal') : Reads (rows ++ rows') (journal ++ journal') := by
  intro later
  rw [List.foldr_append, h', h, List.append_assoc]

end Reads

/-- Ensuring tables makes no selection. -/
theorem Entry.IsSchemaWork.select {entry : Entry} (h : entry.IsSchemaWork)
    (later : List (List Value) × List Selection) : entry.select later = later := by
  cases entry with
  | event e | cached cache => rfl
  | call call answer =>
      cases call with
      | query s | read slots => exact h.elim
      | _ => rfl

namespace Session

variable {b : Bound c k} {w : World σ} {s : Statement}

/-- A fetch that succeeds makes one selection, of the rows that its scan reads. -/
theorem fetch_leads {scan : Action d (Except DriverError α)} {Q : α → List (List Value) → Prop}
    (hscan : ∀ w a, (scan.run w).value = .ok a →
      ∃ rows, Reads rows (scan.run w).journal ∧ Q a rows) :
    (fetch s scan : Task d α).Leads w fun a _ journal => ∃ rows, Selects [⟨s, rows⟩] journal ∧
      Q a rows := by
  refine .bind (fun _ _ journal => journal = [.event (.statement .query s)]) (.report rfl) ?_
  rintro _ w _ rfl
  refine .bind (fun a _ journal => journal = [.call (.query s) (.ok a)]) (.call fun _ _ => rfl) ?_
  rintro answer w _ rfl
  refine .bind (fun scanned _ journal => ∀ a, scanned = .ok a →
      ∃ rows, Reads rows journal ∧ Q a rows)
    (.lift (hscan w)) fun scanned w scanJournal hscanned => ?_
  refine .bind (fun a _ journal => journal = [.call .finish a]) (.lift rfl) ?_
  rintro finished w _ rfl
  refine .ofExcept_bind fun a ha => .ofExcept_bind fun _ _ => .pure ?_
  have ha : scanned = .ok a := by
    cases scanned with
    | error e => cases ha
    | ok a' =>
        cases ha
        rfl
  obtain ⟨rows, hrows, hQ⟩ := hscanned a ha
  have hfinish : Reads [] [Entry.call .finish finished] := fun _ => rfl
  have hreads := hrows.append hfinish
  rw [List.append_nil] at hreads
  refine ⟨rows, ?_, hQ⟩
  exact .one hreads

/-- Scanning the first row reads one row, if there is one. -/
theorem scanFirst_reads {slots : List Value} {answer : Option (List Value)}
    (h : ((scanFirst slots : Action d _).run w).value = .ok answer) :
    Reads answer.toList ((scanFirst slots : Action d _).run w).journal ∧
      ∀ row ∈ answer, row.length = slots.length := by
  rw [scanFirst, Action.run_bind, Action.run_call] at h ⊢
  cases hnext : (d.step .next w.driver).1 with
  | error e =>
      simp only [hnext] at h
      cases h
  | ok found =>
      simp only [hnext] at h ⊢
      cases found with
      | false =>
          cases h
          exact ⟨fun _ => rfl, fun row hrow => by cases hrow⟩
      | true =>
          rw [Action.run_bind, Action.run_call] at h ⊢
          cases hread : (d.step (.read slots) (d.step .next w.driver).2).1 with
          | error e =>
              simp only [hread] at h
              cases h
          | ok row =>
              simp only [hread] at h ⊢
              cases h
              exact ⟨fun _ => rfl, fun _ hrow => by cases hrow; exact row.property⟩

/-- Scanning a column reads rows of one value each. -/
theorem scanColumn_reads {zero : Value} (w : World σ) {keys : List Value}
    (h : (scanColumn d zero w).value = .ok keys) :
    Reads (keys.map ([·])) (scanColumn d zero w).journal := by
  fun_induction scanColumn d zero w generalizing keys with
  | case1 => cases h
  | case2 =>
      cases h
      exact fun _ => rfl
  | case3 => cases h
  | case4 w atRow advanced entry values after scanned fewer rest =>
      rename_i ih
      obtain ⟨v, hv⟩ := List.length_eq_one_iff.1 values.property
      cases hrest : rest.value with
      | error e =>
          rw [hrest] at h
          cases h
      | ok later =>
          rw [hrest] at h
          cases h
          have hread : Reads [[v]] [entry, .call (.read [zero]) (.ok values)] := fun _ => by
            rw [← hv]
            rfl
          rw [hv, List.map_append]
          exact hread.append (ih hrest)

/-- Fetching the row of a record makes one selection, of one row with a value for each stored
column. -/
theorem fetchRow_leads : (fetchRow b : Task d (List Value)).Leads w fun row _ journal =>
    ∃ s, b.selectRow = .ok s ∧ row.length = b.stored.length ∧ Selects [⟨s, [row]⟩] journal := by
  refine .ofExcept_bind fun s hs => ?_
  let slots := b.stored.map fun f => Value.zero f.descriptor.type.kind
  have hfetch : (fetch s (scanFirst slots) : Task d (Option (List Value))).Leads w
      fun answer _ journal => ∃ rows, Selects [⟨s, rows⟩] journal ∧
        rows = answer.toList ∧ ∀ row ∈ answer, row.length = slots.length :=
    fetch_leads fun w answer hanswer =>
      let ⟨hreads, hlength⟩ := scanFirst_reads hanswer
      ⟨answer.toList, hreads, rfl, hlength⟩
  refine .bind _ hfetch fun answer w' journal hselects => ?_
  obtain ⟨_, hselects, rfl, hlength⟩ := hselects
  cases answer with
  | none => exact .ofExcept_bind fun _ _ a ha => by cases ha
  | some row =>
      refine .pure ⟨s, hs, ?_, by rwa [List.append_nil]⟩
      rw [hlength row rfl, List.length_map]

/-- Fetching a column makes one selection, of rows of one value each. -/
theorem fetchColumn_leads {zero : Value} : (fetch s (scanColumn d zero) : Task d (List Value)).Leads
    w fun keys _ journal => Selects [⟨s, keys.map ([·])⟩] journal := by
  have hfetch : (fetch s (scanColumn d zero) : Task d (List Value)).Leads w fun keys _ journal =>
      ∃ rows, Selects [⟨s, rows⟩] journal ∧ rows = keys.map ([·]) :=
    fetch_leads fun w keys hkeys => ⟨_, scanColumn_reads w hkeys, rfl⟩
  intro keys hkeys
  obtain ⟨_, hselects, rfl⟩ := hfetch keys hkeys
  exact hselects

end Session

end EntityMapper
