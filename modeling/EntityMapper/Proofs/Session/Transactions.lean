import EntityMapper.Proofs.Session.Soundness

/-!
# Transactions

All that a transaction can come to (`TransactionRun`): it is refused, or its work is done between a
begin and an end, which is one commit, or one rollback where the work or the commit has failed. What
a program calls is well bracketed, with the transactions that it opens inside one another
(`Program.transaction_bracketed`).
-/

namespace EntityMapper

variable {σ α β : Type} {d : Driver σ}

/-- What is left of undoing a transaction: the call, and a report where that fails. -/
def rolledBack : Except DriverError Unit → List Entry
  | .ok () => [.call .rollback (.ok ())]
  | .error e => [.call .rollback (.error e), .event (.rollbackFailed e)]

/-- What a transaction leads to. Where it cannot begin, its work is not run. Work that succeeds is
committed, and the transaction succeeds where that does. Work that fails and work that cannot be
committed is undone, and the transaction fails as the work did, or else as the commit did, whether it
can be undone or not. -/
inductive TransactionRun (d : Driver σ) (storage : β) (work : Action d (Attempt β α))
    (w : World σ) : Outcome σ (Attempt β α) → Prop
  | refused {e : DriverError} {s : σ} (hbegin : d.step .begin w.driver = (.error e, s)) :
      TransactionRun d storage work w
        ⟨⟨storage, .error (.driver e)⟩, { w with driver := s }, [.call .begin (.error e)]⟩
  | committed {left : β} {a : α} {s s' : σ} {w' : World σ} {journal : List Entry}
      (hbegin : d.step .begin w.driver = (.ok (), s))
      (hwork : work.run { w with driver := s } = ⟨⟨left, .ok a⟩, w', journal⟩)
      (hcommit : d.step .commit w'.driver = (.ok (), s')) :
      TransactionRun d storage work w
        ⟨⟨left, .ok a⟩, { w' with driver := s' },
          .call .begin (.ok ()) :: (journal ++ [.call .commit (.ok ())])⟩
  | uncommitted {left : β} {a : α} {e : DriverError} {undone : Except DriverError Unit}
      {s s' s'' : σ} {w' : World σ} {journal : List Entry}
      (hbegin : d.step .begin w.driver = (.ok (), s))
      (hwork : work.run { w with driver := s } = ⟨⟨left, .ok a⟩, w', journal⟩)
      (hcommit : d.step .commit w'.driver = (.error e, s'))
      (hundo : d.step .rollback s' = (undone, s'')) :
      TransactionRun d storage work w
        ⟨⟨left, .error (.driver e)⟩, { w' with driver := s'' },
          .call .begin (.ok ()) :: (journal ++ .call .commit (.error e) :: rolledBack undone)⟩
  | failed {left : β} {e : MapperError} {undone : Except DriverError Unit} {s s' : σ}
      {w' : World σ} {journal : List Entry} (hbegin : d.step .begin w.driver = (.ok (), s))
      (hwork : work.run { w with driver := s } = ⟨⟨left, .error e⟩, w', journal⟩)
      (hundo : d.step .rollback w'.driver = (undone, s')) :
      TransactionRun d storage work w
        ⟨⟨left, .error e⟩, { w' with driver := s' },
          .call .begin (.ok ()) :: (journal ++ rolledBack undone)⟩

namespace Session

variable {w : World σ}

/-- Undoing calls for it once, and reports where that fails. -/
theorem rollback_run {undone : Except DriverError Unit} {s : σ} (a : α)
    (h : d.step .rollback w.driver = (undone, s)) :
    (rollback >>= fun _ => pure a : Action d α).run w
      = ⟨a, { w with driver := s }, rolledBack undone⟩ := by
  rw [rollback, Action.run_bind, Action.run_bind, Action.run_call, h]
  cases undone with
  | ok u => rfl
  | error e => rfl

/-- Work that has succeeded is committed by one call, and succeeds where that does. -/
theorem commit_run {made : Except DriverError Unit} {s : σ} (a : α)
    (h : d.step .commit w.driver = (made, s)) :
    (do
      let answer ← Task.ofExcept (.ok a)
      Task.call .commit
      return answer : Task d α).run.run w = ⟨(made.mapError .driver).map fun _ => a,
        { w with driver := s }, [.call .commit made]⟩ := by
  have hcall : (Task.call .commit : Task d Unit).exec w =
      ⟨made.mapError .driver, { w with driver := s }, [.call .commit made]⟩ := by
    rw [Task.exec_call, h]
  cases made with
  | ok u => exact Task.exec_bind_eq (Task.exec_ofExcept _) (Task.exec_bind_eq hcall rfl)
  | error e => exact Task.exec_bind_eq (Task.exec_ofExcept _) (Task.exec_bind_error hcall)

/-- A transaction comes to one of the listed runs. -/
theorem transaction_run (storage : β) (work : β → Action d (Attempt β α)) (w : World σ) :
    TransactionRun d storage (work storage) w ((transaction storage work).run w) := by
  rcases hbegin : d.step .begin w.driver with ⟨begun, s⟩
  have hbegun : (Task.call .begin : Task d Unit).run.run w =
      ⟨begun.mapError .driver, { w with driver := s }, [.call .begin begun]⟩ := by
    rw [← Task.exec, Task.exec_call, hbegin]
  cases begun with
  | error e =>
    have hrun : (transaction storage work).run w = ⟨⟨storage, .error (.driver e)⟩,
        { w with driver := s }, [.call .begin (.error e)]⟩ := Action.run_bind_eq hbegun rfl
    rw [hrun]
    exact .refused hbegin
  | ok u =>
    generalize hwork : (work storage).run { w with driver := s } = outcome
    obtain ⟨⟨left, result⟩, w', journal⟩ := outcome
    cases result with
    | error e =>
      rcases hundo : d.step .rollback w'.driver with ⟨undone, s'⟩
      have hunmade : (do
          let answer ← Task.ofExcept (.error e)
          Task.call .commit
          return answer : Task d α).run.run w' = ⟨.error e, w', []⟩ := rfl
      have hrun : (transaction storage work).run w = ⟨⟨left, .error e⟩, { w' with driver := s' },
          .call .begin (.ok ()) :: (journal ++ rolledBack undone)⟩ :=
        Action.run_bind_eq hbegun <| Action.run_bind_eq hwork <| Action.run_bind_eq hunmade <|
          rollback_run _ hundo
      rw [hrun]
      exact .failed hbegin hwork hundo
    | ok a =>
      rcases hcommit : d.step .commit w'.driver with ⟨made, s'⟩
      have hmade := commit_run a hcommit
      cases made with
      | ok u =>
        have hrun : (transaction storage work).run w = ⟨⟨left, .ok a⟩, { w' with driver := s' },
            .call .begin (.ok ()) :: (journal ++ [.call .commit (.ok ())])⟩ :=
          Action.run_bind_eq hbegun <| Action.run_bind_eq hwork <| Action.run_bind_eq hmade rfl
        rw [hrun]
        exact .committed hbegin hwork hcommit
      | error e =>
        rcases hundo : d.step .rollback s' with ⟨undone, s''⟩
        have hrun : (transaction storage work).run w = ⟨⟨left, .error (.driver e)⟩,
            { w' with driver := s'' }, .call .begin (.ok ()) ::
              (journal ++ .call .commit (.error e) :: rolledBack undone)⟩ :=
          Action.run_bind_eq hbegun <| Action.run_bind_eq hwork <| Action.run_bind_eq hmade <|
            rollback_run _ hundo
        rw [hrun]
        exact .uncommitted hbegin hwork hcommit hundo

end Session

/-! ## Brackets -/

/-- Whether a call begins or ends a transaction. -/
def Call.IsBracket : Call → Prop
  | .begin | .commit | .rollback => True
  | _ => False

/-- The lines that end a transaction: one commit, one rollback after a commit that fails, or one
rollback. -/
inductive Ends : List Entry → Prop
  | committed : Ends [.call .commit (.ok ())]
  | uncommitted (e : DriverError) (undone : Except DriverError Unit) :
      Ends (.call .commit (.error e) :: rolledBack undone)
  | undone (undone : Except DriverError Unit) : Ends (rolledBack undone)

/-- Whether every begin of a journal that succeeds has an end of its own, with the begins and ends
between the two paired likewise, and no end stands without its begin. -/
inductive Bracketed : List Entry → Prop
  | plain {journal : List Entry} (h : Calls (fun call => ¬ call.IsBracket) journal) :
      Bracketed journal
  | refused (e : DriverError) : Bracketed [.call .begin (.error e)]
  | bracket {inside ending : List Entry} (hinside : Bracketed inside) (hending : Ends ending) :
      Bracketed (.call .begin (.ok ()) :: (inside ++ ending))
  | append {journal later : List Entry} (h : Bracketed journal) (hlater : Bracketed later) :
      Bracketed (journal ++ later)

/-- What ends a transaction makes no calls but brackets. -/
theorem Ends.brackets {ending : List Entry} (h : Ends ending) : Calls Call.IsBracket ending := by
  have hundone : ∀ undone, Calls Call.IsBracket (rolledBack undone) := by
    intro undone
    have hrollback : Calls Call.IsBracket [.call .rollback undone] := .single trivial
    cases undone with
    | ok u => exact hrollback
    | error e => exact hrollback.append (.quiet [.rollbackFailed e])
  cases h with
  | committed => exact .single trivial
  | uncommitted e undone =>
      have hcommit : Calls Call.IsBracket [.call .commit (.error e)] := .single trivial
      exact hcommit.append (hundone undone)
  | undone undone => exact hundone undone

namespace TransactionRun

variable {storage : β} {work : Action d (Attempt β α)} {w : World σ}
  {outcome : Outcome σ (Attempt β α)}

/-- The journal of a transaction is a begin that is refused, or its work between a begin and what
ends it. -/
theorem journal_eq (h : TransactionRun d storage work w outcome) :
    (∃ e s, d.step .begin w.driver = (.error e, s) ∧
      outcome.journal = [.call .begin (.error e)]) ∨
    ∃ s ending, d.step .begin w.driver = (.ok (), s) ∧ Ends ending ∧ outcome.journal =
      .call .begin (.ok ()) :: ((work.run { w with driver := s }).journal ++ ending) := by
  cases h with
  | refused hbegin => exact .inl ⟨_, _, hbegin, rfl⟩
  | committed hbegin hwork => exact .inr ⟨_, _, hbegin, .committed, by rw [hwork]⟩
  | uncommitted hbegin hwork => exact .inr ⟨_, _, hbegin, .uncommitted _ _, by rw [hwork]⟩
  | failed hbegin hwork => exact .inr ⟨_, _, hbegin, .undone _, by rw [hwork]⟩

/-- A transaction is a bracket around its work. -/
theorem bracketed (h : TransactionRun d storage work w outcome)
    (hwork : ∀ w, Bracketed (work.run w).journal) : Bracketed outcome.journal := by
  obtain ⟨e, s, -, hjournal⟩ | ⟨s, ending, -, hending, hjournal⟩ := h.journal_eq
  · rw [hjournal]
    exact .refused e
  · rw [hjournal]
    exact .bracket (hwork _) hending

/-- A transaction calls what its work calls where it has begun, and brackets. -/
theorem calls {Q : Call → Prop} (h : TransactionRun d storage work w outcome)
    (hbracket : ∀ call : Call, call.IsBracket → Q call)
    (hwork : ∀ s, d.step .begin w.driver = (.ok (), s) →
      Calls Q (work.run { w with driver := s }).journal) : Calls Q outcome.journal := by
  have hbegun : ∀ answer, Calls Q [.call .begin answer] := fun _ =>
    .single (hbracket .begin trivial)
  obtain ⟨e, s, -, hjournal⟩ | ⟨s, ending, hbegin, hending, hjournal⟩ := h.journal_eq
  · rw [hjournal]
    exact hbegun (.error e)
  · rw [hjournal]
    refine (hbegun (.ok ())).append ((hwork s hbegin).append ?_)
    exact fun call answer hcall => hbracket call (hending.brackets call answer hcall)

/-- Where a transaction begins, its journal has the lines of its work. -/
theorem mem_of_work (h : TransactionRun d storage work w outcome) {s : σ}
    (hbegin : d.step .begin w.driver = (.ok (), s)) {line : Entry}
    (hline : line ∈ (work.run { w with driver := s }).journal) : line ∈ outcome.journal := by
  obtain ⟨e, s', hrefused, -⟩ | ⟨s', ending, hbegun, -, hjournal⟩ := h.journal_eq
  · cases hbegin.symm.trans hrefused
  · cases hbegin.symm.trans hbegun
    rw [hjournal]
    exact .tail _ (List.mem_append_left _ hline)

end TransactionRun

/-- A request neither begins nor ends a transaction. -/
theorem Request.unbracketed (q : Request) (w : World σ) :
    Calls (fun call => ¬ call.IsBracket) ((q.act d).run w).journal := by
  intro call answer hcall hbracket
  obtain ⟨kind, -, -, j, -, hserves⟩ := q.suited w call answer hcall
  cases call with
  | begin | commit | rollback => exact hserves
  | release | query | next | read | finish | insert | update | delete | execute
  | tableExists => exact hbracket

namespace Program

/-- What a program calls is well bracketed. -/
theorem bracketed {α : Type} (p : Program α) (w : World σ) : Bracketed ((p.act d).run w).journal := by
  induction p generalizing w with
  | done a => exact .plain .nil
  | request q next ih => exact .append (.plain (q.unbracketed w)) (ih _ _)
  | transaction storage body next ihbody ihnext =>
      exact .append ((Session.transaction_run storage _ w).bracketed ihbody) (ihnext _ _)

/-- Whatever requests and transactions the body of a transaction makes, and however it answers, the
transaction comes to one of the listed runs: it is refused and nothing else is called, or its body is
run between one begin and one commit or rollback of its own. What the body calls in between, and
what the transaction calls in all, is well bracketed. -/
theorem transaction_bracketed {α β : Type} (body : Program (Attempt β α)) (storage : β)
    (w : World σ) :
    let run := (Session.transaction storage fun _ => body.act d).run w
    TransactionRun d storage (body.act d) w run ∧ Bracketed run.journal ∧
      ∀ w, Bracketed ((body.act d).run w).journal := by
  have hrun := Session.transaction_run storage (fun _ => body.act d) w
  exact ⟨hrun, hrun.bracketed body.bracketed, body.bracketed⟩

/-- A transaction that is undone inside one that goes on. -/
example :
    let body : Program (Attempt Unit Unit) :=
      .transaction () (.done ⟨(), .error (.noFields "node")⟩ : Program (Attempt Unit Unit)) fun _ =>
        .done ⟨(), .ok ()⟩
    logOf ((Session.transaction () fun _ => body.act Recorded.driver).run
      ⟨.fresh, .empty⟩).journal = ["BEGIN", "BEGIN", "ROLLBACK", "COMMIT"] := by
  decide

end Program

end EntityMapper
