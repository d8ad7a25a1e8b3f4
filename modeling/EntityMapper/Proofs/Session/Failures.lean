import EntityMapper.Proofs.Session.Cursors
import EntityMapper.Proofs.Session.Insertion

/-!
# Failures of the driver

The first call that the driver fails ends a request: the request fails with the error of that call,
and makes no call after it but the finish of the cursor that is open there, whose own answer no
longer counts (`Request.halts_at_failure`). So it is with every job (`Job.halts`), and jobs in a row
go on only where none has failed (`Halts.runLaw`).
-/

namespace EntityMapper

variable {σ α β : Type} {d : Driver σ}

/-- Whether a line notes a call that failed. -/
def Entry.Fails : Entry → Prop
  | .call _ (.error _) => True
  | .call _ (.ok _) | .event _ | .cached _ => False

/-- Whether no call of a journal failed. -/
def Unfailed (journal : List Entry) : Prop := ∀ entry ∈ journal, ¬ entry.Fails

namespace Unfailed

variable {entry : Entry} {journal later : List Entry}

theorem nil : Unfailed [] := List.forall_mem_nil _

theorem cons (h : ¬ entry.Fails) (hjournal : Unfailed journal) : Unfailed (entry :: journal) :=
  List.forall_mem_cons.2 ⟨h, hjournal⟩

theorem append (h : Unfailed journal) (hlater : Unfailed later) : Unfailed (journal ++ later) :=
  List.forall_mem_append.2 ⟨h, hlater⟩

theorem quiet (events : List Event) : Unfailed (reports events) := by
  intro entry hentry
  obtain ⟨e, -, rfl⟩ := List.mem_map.1 hentry
  exact id

end Unfailed

/-- Whether calls do no more than finish the cursor, if it is open. -/
def Cursor.Closes : Cursor → List Made → Prop
  | .closed, made => made = []
  | .opened, made | .onRow, made => ∃ answer, made = [⟨.finish, answer⟩]

/-! ## Journals that halt -/

/-- Whether a journal ends with its first failure, if it has one, but for the finish of the cursor
that is open there, and the run fails with the error of the driver. -/
inductive Halts : Option MapperError → List Entry → Prop
  | unfailed {failure : Option MapperError} {journal : List Entry} (h : Unfailed journal) :
      Halts failure journal
  | failed {call : Call} {e : DriverError} {journal : List Entry} (before after : List Entry)
      (cursor : Cursor) (hjournal : journal = before ++ .call call (.error e) :: after)
      (hfirst : Unfailed before)
      (hcursor : Cursor.closed.walk? (before ++ [.call call (.error e)]) = some cursor)
      (hafter : cursor.Closes (after.filterMap Entry.made?)) : Halts (some (.driver e)) journal

namespace Halts

variable {failure : Option MapperError} {journal later : List Entry}

/-- A run that does not fail met with no failure. -/
theorem unfailed_of_none (h : Halts none journal) : Unfailed journal := by
  cases h with
  | unfailed h => exact h

/-- What halts after balanced lines without a failure halts together with them. -/
theorem append (hbalanced : Balanced journal) (h : Halts none journal)
    (hlater : Halts failure later) : Halts failure (journal ++ later) := by
  cases hlater with
  | unfailed hlater => exact .unfailed (h.unfailed_of_none.append hlater)
  | failed before after cursor hjournal hfirst hcursor hafter =>
      refine .failed (journal ++ before) after cursor (by rw [hjournal, List.append_assoc])
        (h.unfailed_of_none.append hfirst) ?_ hafter
      rw [List.append_assoc, Cursor.walk?_append, hbalanced]
      exact hcursor

/-- Reports at the end make no call. -/
theorem trail {e : MapperError} (events : List Event) (h : Halts (some e) journal) :
    Halts (some e) (journal ++ reports events) := by
  cases h with
  | unfailed h => exact .unfailed (h.append (.quiet events))
  | failed before after cursor hjournal hfirst hcursor hafter =>
      refine .failed before (after ++ reports events) cursor
        (by rw [hjournal, List.append_assoc, List.cons_append]) hfirst hcursor ?_
      rwa [List.filterMap_append, made_reports, List.append_nil]

/-- Halting in balance is a law of runs. -/
theorem runLaw : RunLaw fun failure (_ : World σ) journal _ =>
    Balanced journal ∧ Halts failure journal where
  quiet _ _ events := ⟨.quiet events, .unfailed (.quiet events)⟩
  append h hlater := ⟨h.1.append hlater.1, h.2.append h.1 hlater.2⟩
  trail events h := ⟨h.1.append (.quiet events), h.2.trail events⟩

end Halts

/-! ## Jobs -/

/-- Whether a scan ends with the call that fails, and fails as that does. -/
inductive Scanned : Except DriverError α → List Entry → Prop
  | unfailed {a : α} {journal : List Entry} (h : Unfailed journal) : Scanned (.ok a) journal
  | failed {call : Call} {e : DriverError} {journal : List Entry} (before : List Entry)
      (hjournal : journal = before ++ [.call call (.error e)]) (hfirst : Unfailed before) :
      Scanned (.error e) journal

/-- A scan that goes on after calls that did not fail. -/
theorem Scanned.after {result : Except DriverError α} {journal later : List Entry} {f : α → β}
    (h : Unfailed journal) (hlater : Scanned result later) :
    Scanned (result.map f) (journal ++ later) := by
  cases hlater with
  | unfailed hlater => exact .unfailed (h.append hlater)
  | failed before hjournal hfirst =>
      exact .failed (journal ++ before) (by rw [hjournal, List.append_assoc]) (h.append hfirst)

namespace Session

variable {s : Sql.Statement} {slots : List Value} {zero : Value}

/-- Scanning the first row ends with the call that fails. -/
theorem scanFirst_scanned (w : World σ) :
    Scanned ((scanFirst slots : Action d _).run w).value
      ((scanFirst slots : Action d _).run w).journal := by
  rw [scanFirst, Action.run_bind, Action.run_call]
  rcases d.step .next w.driver with ⟨e | found, atRow⟩
  · exact .failed [] rfl .nil
  · cases found with
    | false => exact .unfailed (.cons id .nil)
    | true =>
      dsimp only
      rw [Action.run_bind, Action.run_call]
      rcases d.step (.read slots) atRow with ⟨e | values, after⟩
      · exact .failed [.call .next (.ok true)] rfl (.cons id .nil)
      · exact .unfailed (.cons id (.cons id .nil))

/-- Scanning all rows ends with the call that fails. -/
theorem scanColumn_scanned (w : World σ) :
    Scanned (scanColumn d zero w).value (scanColumn d zero w).journal := by
  fun_induction scanColumn d zero w with
  | case1 w e atEnd hstep => exact .failed [] rfl .nil
  | case2 w atEnd hstep => exact .unfailed (.cons id .nil)
  | case3 w atRow hstep entry e after hread => exact .failed [entry] rfl (.cons id .nil)
  | case4 w atRow hstep entry values after hread _ rest ih =>
      exact Scanned.after (.cons id (.cons id .nil)) ih

/-- Fetching halts where the query, the scan or the finish fails. After a scan that fails, the
cursor is finished. -/
theorem fetch_halts {scan : Action d (Except DriverError α)}
    (hwalk : ∀ w, Cursor.opened.walk? (scan.run w).journal = some .opened)
    (hscanned : ∀ w, Scanned (scan.run w).value (scan.run w).journal) (w : World σ) :
    Halts (failure? ((fetch s scan : Task d α).exec w).value)
      ((fetch s scan : Task d α).exec w).journal := by
  have hrun := fetch_run s scan w
  generalize (fetch s scan : Task d α).exec w = outcome at hrun ⊢
  cases hrun with
  | refused hquery =>
      exact .failed [.event (.statement .query s)] [] .closed rfl (.cons id .nil) rfl rfl
  | @scanned opened after left finished hquery hleft hfinish =>
      have hopened : Unfailed [.event (.statement .query s), .call (.query s) (.ok ())] :=
        .cons id (.cons id .nil)
      have hwalk := hwalk { w with driver := opened }
      have hscanned := hscanned { w with driver := opened }
      rw [hleft] at hwalk hscanned
      obtain ⟨value, w', journal⟩ := left
      dsimp only at hwalk hscanned ⊢
      cases hscanned with
      | unfailed h =>
          cases finished with
          | ok u => exact .unfailed ((hopened.append h).append (.cons id .nil))
          | error e =>
              refine .failed (.event (.statement .query s) :: .call (.query s) (.ok ()) :: journal)
                [] .closed rfl (hopened.append h) ?_ rfl
              show Cursor.opened.walk? (journal ++ [.call .finish (.error e)]) = some .closed
              rw [Cursor.walk?_append, hwalk]
              rfl
      | @failed call e _ before hjournal hfirst =>
          have hsplit : Entry.event (.statement .query s) :: .call (.query s) (.ok ()) ::
              (journal ++ [.call .finish finished]) =
                (.event (.statement .query s) :: .call (.query s) (.ok ()) :: before) ++
                  .call call (.error e) :: [.call .finish finished] := by
            rw [hjournal, List.append_assoc]
            rfl
          rw [hjournal] at hwalk
          exact .failed _ _ .opened hsplit (hopened.append hfirst) hwalk ⟨finished, rfl⟩

/-- A call that is reported first halts where it fails. -/
theorem reported_halts {e : Event} {call : Call} (w : World σ)
    (hcall : ∀ e, Cursor.closed.walk? [.call call (.error e)] = some .closed) :
    Halts (failure? ((Task.report e >>= fun _ => Task.call call : Task d call.Answer).exec w).value)
      ((Task.report e >>= fun _ => Task.call call : Task d call.Answer).exec w).journal := by
  rcases hstep : d.step call w.driver with ⟨answer, after⟩
  rw [Task.exec_reported e hstep]
  cases answer with
  | error e' => exact .failed [.event e] [] .closed rfl (.cons id .nil) (hcall e') rfl
  | ok answer => exact .unfailed (.cons id (.cons id .nil))

/-- Ensuring a table halts where it cannot be looked for or created. -/
theorem ensure_halts {witness : Witness} {creating : Event}
    {definition : Except MapperError Sql.Statement} (w : World σ) :
    Halts (failure? ((ensure witness creating definition : Task d Unit).exec w).value)
      ((ensure witness creating definition : Task d Unit).exec w).journal := by
  have hrun := ensure_run (d := d) witness creating definition w
  generalize (ensure witness creating definition : Task d Unit).exec w = outcome at hrun ⊢
  cases hrun with
  | known | foreign => exact .unfailed .nil
  | undefined => exact .unfailed (.cons id .nil)
  | found => exact .unfailed (.cons id (.cons id .nil))
  | created => exact .unfailed (.cons id (.cons id (.cons id (.cons id (.cons id .nil)))))
  | unchecked => exact .failed [] [] .closed rfl .nil rfl rfl
  | @uncreated e s s' statement =>
      exact .failed [.call (.tableExists witness.table) (.ok false), .event creating,
        .event (.statement .execute statement)] [] .closed rfl (.cons id (.cons id (.cons id .nil)))
          rfl rfl

/-- Dropping a table halts where it cannot be dropped. -/
theorem dropKnown_halts {table origin : String} {dropping : Event} (w : World σ) :
    Halts (failure? ((dropKnown table origin dropping s : Task d Unit).exec w).value)
      ((dropKnown table origin dropping s : Task d Unit).exec w).journal := by
  have hrun := dropKnown_run (d := d) table origin dropping s w
  generalize (dropKnown table origin dropping s : Task d Unit).exec w = outcome at hrun ⊢
  cases hrun with
  | unknown | foreign => exact .unfailed .nil
  | dropped => exact .unfailed (.cons id (.cons id (.cons id (.cons id .nil))))
  | undropped =>
      exact .failed [.event dropping, .event (.statement .execute s)] [] .closed rfl
        (.cons id (.cons id .nil)) rfl rfl

end Session

/-- Every job halts at the first failure. -/
theorem Job.halts (job : Job) (w : World σ) :
    Halts (failure? ((job.task d).exec w).value) ((job.task d).exec w).journal := by
  cases job with
  | ensure witness creating definition => exact Session.ensure_halts w
  | drop table origin dropping statement => exact Session.dropKnown_halts w
  | insert s | update s | delete s => exact Session.reported_halts w fun _ => rfl
  | fetchRow s slots => exact Session.fetch_halts Session.scanFirst_walk Session.scanFirst_scanned w
  | fetchColumn s zero =>
      exact Session.fetch_halts Session.scanColumn_walk Session.scanColumn_scanned w

/-! ## Requests -/

/-- Two lists that are split at their first item of a kind are split alike. -/
theorem eq_of_first {P : β → Prop} {xs ys xs' ys' : List β} {x x' : β}
    (h : xs ++ x :: ys = xs' ++ x' :: ys') (hxs : ∀ y ∈ xs, ¬ P y) (hx : P x)
    (hxs' : ∀ y ∈ xs', ¬ P y) (hx' : P x') : xs = xs' ∧ x = x' ∧ ys = ys' := by
  induction xs generalizing xs' with
  | nil =>
      cases xs' with
      | nil =>
          obtain ⟨rfl, rfl⟩ := List.cons.inj h
          exact ⟨rfl, rfl, rfl⟩
      | cons y' xs' =>
          obtain ⟨rfl, -⟩ := List.cons.inj h
          exact absurd hx (hxs' _ List.mem_cons_self)
  | cons y xs ih =>
      cases xs' with
      | nil =>
          obtain ⟨rfl, -⟩ := List.cons.inj h
          exact absurd hx' (hxs _ List.mem_cons_self)
      | cons y' xs' =>
          obtain ⟨rfl, htail⟩ := List.cons.inj h
          obtain ⟨rfl, hrest⟩ := ih htail (List.forall_mem_cons.1 hxs).2
            (List.forall_mem_cons.1 hxs').2
          exact ⟨rfl, hrest⟩

/-- A request of which a call fails, whichever it is and whatever the driver answers later, fails
with the error of the first such call. After that call it makes no other, but for one finish if a
cursor is open there, however that is answered. -/
theorem Request.halts_at_failure (q : Request) (w : World σ) {call : Call} {e : DriverError}
    {before after : List Entry}
    (hjournal : ((q.act d).run w).journal = before ++ .call call (.error e) :: after)
    (hfirst : Unfailed before) :
    q.failure? ((q.act d).run w).value = some (.driver e) ∧
      ∃ cursor, Cursor.closed.walk? (before ++ [.call call (.error e)]) = some cursor ∧
        cursor.Closes (after.filterMap Entry.made?) := by
  obtain ⟨-, hhalts⟩ := q.composed.law Halts.runLaw
    (fun job _ w => ⟨job.balanced w, job.halts w⟩) w
  generalize q.failure? ((q.act d).run w).value = failure at hhalts ⊢
  rw [hjournal] at hhalts
  cases hhalts with
  | unfailed h => exact absurd trivial (h _ (List.mem_append_right _ List.mem_cons_self))
  | failed before' after' cursor hsplit hfirst' hcursor hafter =>
      obtain ⟨rfl, hcall, rfl⟩ := eq_of_first hsplit hfirst trivial hfirst' trivial
      cases hcall
      exact ⟨rfl, cursor, hcursor, hafter⟩

/-- A database that loses its connection when a cursor is advanced. -/
def losing : Driver Unit where
  step
    | .next, s | .read _, s => (.error ⟨"connection lost"⟩, s)
    | .finish, s => (.error ⟨"no cursor"⟩, s)
    | .insert _, s | .update _, s | .delete _, s => (.ok (1 : UInt64), s)
    | .tableExists _, s => (.ok true, s)
    | .release, s | .begin, s | .commit, s | .rollback, s | .query _, s | .execute _, s =>
        (.ok (), s)
  remaining _ := 0
  remaining_next _ h := by cases h
  remaining_read _ _ := Nat.le_refl 0

section Node

variable {key : Int} (holds : IntegerKind.int64.Holds key)
  (parent : Cell forest (.nullable (.boxed (.entity 0)))) (children : Items forest (.entity 0))

/-- The connection is lost where the row of a node is fetched. -/
theorem Session.fetchRow_losing (w : World Unit) :
    ∃ s, (fetchRow (d := losing) (node key holds parent children)).exec w =
      ⟨.error (.driver ⟨"connection lost"⟩), w,
        [.event (.statement .query s), .call (.query s) (.ok ()),
          .call .next (.error ⟨"connection lost"⟩), .call .finish (.error ⟨"no cursor"⟩)]⟩ :=
  ⟨_, rfl⟩

/-- Where the connection is lost, the query of a node calls nothing more than the finish, which
fails as well. -/
theorem Session.query_losing :
    ∃ before after, ((query (d := losing) (node key holds parent children).record).run
        ⟨(), forestCache⟩).journal = before ++ .call .next (.error ⟨"connection lost"⟩) :: after ∧
      Unfailed before ∧ after.filterMap Entry.made? = [⟨.finish, .error ⟨"no cursor"⟩⟩] := by
  obtain ⟨s, hfetch⟩ := fetchRow_losing holds parent children ⟨(), forestCache⟩
  have hload : (load (d := losing) (node key holds parent children).record
      (node key holds parent children)).exec ⟨.query, (forest.model 0).name, .executing,
        (node key holds parent children).record⟩ ⟨(), forestCache⟩ = _ :=
    Staged.exec_bind_error (Staged.exec_task_error hfetch)
  have hrun : (query (d := losing) (node key holds parent children).record).run ⟨(), forestCache⟩
      = _ := operate_known_run (load _) (fun _ _ => rfl) introspect_node (ensureSchema_forest ())
    hload
  rw [hrun]
  exact ⟨[_, _, _, _, _], [_, _, _], rfl, .cons id (.cons id (.cons id (.cons id (.cons id .nil)))),
    rfl⟩

end Node

/-- Where the connection is lost and the finish fails as well, the query of a branch fails with the
first of the two errors, and calls nothing after the finish. -/
theorem Request.query_halts :
    let q : Request := .query (branch 2 1 (by decide) (by decide)).record
    let left := (q.act losing).run ⟨(), forestCache⟩
    ∃ before after, left.journal = before ++ .call .next (.error ⟨"connection lost"⟩) :: after ∧
      Unfailed before ∧ after.filterMap Entry.made? = [⟨.finish, .error ⟨"no cursor"⟩⟩] ∧
      q.failure? left.value = some (.driver ⟨"connection lost"⟩) := by
  intro q left
  obtain ⟨before, after, hjournal, hfirst, hafter⟩ := Session.query_losing _ _ _
  exact ⟨before, after, hjournal, hfirst, hafter, (q.halts_at_failure _ hjournal hfirst).1⟩

end EntityMapper
