import EntityMapper.Proofs.Session.Tables

/-!
# The pieces of traversals

The traversals of records and of closures put pieces together: jobs, updates of which the count is
looked at, and reports. `Action.Assembled` says which pieces an action is put together from and
with which errors it may fail of its own accord, that is, other than a piece does. It says more than
`Action.Composed` does: nothing is reported but by a piece, and nothing at all after a failure. What
the pieces obey, the action obeys (`Action.Assembled.law`).
-/

namespace EntityMapper

variable {σ α β γ δ : Type} {d : Driver σ}

/-- What traversals are put together from. -/
inductive Piece
  | job (j : Job)
  /-- An update that has to affect one row, and is reported where it does not. -/
  | counted (table : String) (s : Sql.Statement)
  | report (e : Event)

namespace Piece

/-- What a piece answers. -/
def Answer : Piece → Type
  | .job j => j.Answer
  | .counted .. | .report _ => Unit

/-- The task that a piece is. -/
def task (d : Driver σ) : (piece : Piece) → Task d piece.Answer
  | .job j => j.task d
  | .counted table s => do
      let affected ← Task.update s
      if affected != 1 then Task.report (.unexpectedCount table affected)
  | .report e => Task.report e

/-- The job of a piece. -/
def job? : Piece → Option Job
  | .job j => some j
  | .counted _ s => some (.update s)
  | .report _ => none

end Piece

/-- A law of runs that are put together from pieces, where the errors are those that a run may
fail with of its own accord. -/
structure PieceLaw (E : MapperError → Prop)
    (L : Option MapperError → World σ → List Entry → World σ → Prop) : Prop where
  nil : ∀ w, L none w [] w
  fail : ∀ e, E e → ∀ w, L (some e) w [] w
  append : ∀ {failure w w' w'' journal later},
    L none w journal w' → L failure w' later w'' → L failure w (journal ++ later) w''

namespace Action

/-- Whether an action is put together from certain pieces and fails of its own accord with certain
errors only, where its answer tells how it fails. -/
inductive Assembled (P : Piece → Prop) (E : MapperError → Prop) :
    {α : Type} → (α → Option MapperError) → Action d α → Prop
  | done {α : Type} {failure : α → Option MapperError} {a : α} (h : ∀ e, failure a = some e → E e) :
      Assembled P E failure (pure a)
  | piece (piece : Piece) (h : P piece) : Assembled P E failure? (piece.task d).run
  | bind {α β : Type} {failure : α → Option MapperError} {failure' : β → Option MapperError}
      {action : Action d α} {next : α → Action d β} (hfirst : Assembled P E failure action)
      (hnext : ∀ w, failure (action.run w).value = none →
        Assembled P E failure' (next (action.run w).value))
      (hfailed : ∀ a e, failure a = some e →
        ∃ b, failure' b = some e ∧ ∀ w, (next a).run w = ⟨b, w, []⟩) :
      Assembled P E failure' (action >>= next)

variable {P : Piece → Prop} {E : MapperError → Prop} {failure : α → Option MapperError}
  {action : Action d α}

/-- A law that the pieces obey is obeyed by whatever is put together from them. -/
theorem Assembled.law {L : Option MapperError → World σ → List Entry → World σ → Prop}
    (hL : PieceLaw E L) (hpiece : ∀ piece, P piece → (piece.task d).Obeys L)
    (h : action.Assembled P E failure) (w : World σ) :
    L (failure (action.run w).value) w (action.run w).journal (action.run w).world := by
  induction h generalizing w with
  | @done α failure a h =>
      cases hfailed : failure a with
      | none =>
          rw [run_pure, hfailed]
          exact hL.nil w
      | some e =>
          rw [run_pure, hfailed]
          exact hL.fail e (h e hfailed) w
  | piece piece h => exact hpiece piece h w
  | @bind α β failure failure' action next hfirst hnext hfailed ihfirst ihnext =>
      have hbefore := ihfirst w
      cases hvalue : failure (action.run w).value with
      | none =>
          rw [hvalue] at hbefore
          rw [run_bind]
          exact hL.append hbefore (ihnext w hvalue (action.run w).world)
      | some e =>
          obtain ⟨b, hb, hrun⟩ := hfailed _ e hvalue
          rw [hvalue] at hbefore
          rw [run_bind, hrun, hb, List.append_nil]
          exact hbefore

/-- What every line of every piece has, every line of the action has. -/
theorem Assembled.lines {R : Entry → Prop} (h : action.Assembled P E failure)
    (hpiece : ∀ piece, P piece → (piece.task d).Journals R) (w : World σ) :
    ∀ entry ∈ (action.run w).journal, R entry := by
  have hL : PieceLaw E fun _ (_ : World σ) journal _ => ∀ entry ∈ journal, R entry :=
    ⟨fun _ _ h => absurd h List.not_mem_nil, fun _ _ _ _ h => absurd h List.not_mem_nil,
      fun h hlater entry hentry => (List.mem_append.1 hentry).elim (h entry) (hlater entry)⟩
  exact h.law hL hpiece w

/-- What is put together from pieces is made of the jobs of these pieces. -/
theorem Assembled.composed {R : Job → Prop} (h : action.Assembled P E failure)
    (hjobs : ∀ piece, P piece → ∀ job ∈ piece.job?, R job) : action.Composed R failure := by
  induction h with
  | done h => exact .done _ _
  | bind _ _ hfailed ihfirst ihnext =>
      refine .bind ihfirst ihnext fun a e ha => ?_
      obtain ⟨b, hb, hrun⟩ := hfailed a e ha
      exact ⟨b, [], hb, hrun⟩
  | piece piece h =>
      cases piece with
      | job j => exact .job j (hjobs _ h j rfl)
      | report e => exact Task.Composed.report e
      | counted table s =>
          have hcount (affected : UInt64) : Task.Composed (d := d) R (if affected != 1
              then Task.report (.unexpectedCount table affected) else pure ()) := by
            split
            exacts [.report _, .pure ()]
          exact Task.Composed.bind (.job (.update s) (hjobs _ h _ rfl)) fun _ affected _ =>
            hcount affected

end Action

/-! ## Tasks -/

namespace Task

/-- Whether a task is put together from certain pieces and fails of its own accord with certain
errors only. -/
def Assembled (P : Piece → Prop) (E : MapperError → Prop) (t : Task d α) : Prop :=
  Action.Assembled P E failure? t.run

variable {P : Piece → Prop} {E : MapperError → Prop} {t : Task d α} {f : α → Task d γ}

theorem Assembled.pure (a : α) : (pure a : Task d α).Assembled P E :=
  Action.Assembled.done fun _ h => nomatch h

theorem Assembled.throw {e : MapperError} (he : E e) : (throw e : Task d α).Assembled P E :=
  Action.Assembled.done fun _ h => Option.some.inj h ▸ he

theorem Assembled.ofExcept {result : Except MapperError α} (hE : ∀ e, result = .error e → E e) :
    (ofExcept result : Task d α).Assembled P E :=
  Action.Assembled.done fun e h => hE e (eq_error_of_failure? h)

theorem Assembled.piece (piece : Piece) (h : P piece) : (piece.task d).Assembled P E :=
  Action.Assembled.piece piece h

theorem Assembled.job (job : Job) (h : P (.job job)) : (job.task d).Assembled P E :=
  Action.Assembled.piece (.job job) h

theorem Assembled.report {e : Event} (h : P (.report e)) : (report e : Task d Unit).Assembled P E :=
  Action.Assembled.piece (.report e) h

/-- Two tasks in a row are put together from the pieces of both. -/
theorem Assembled.bind (ht : t.Assembled P E)
    (hf : ∀ w a, (t.exec w).value = .ok a → (f a).Assembled P E) : (t >>= f).Assembled P E := by
  refine Action.Assembled.bind ht (fun w hvalue => ?_) fun result e hfailed => ?_
  · obtain ⟨a, ha⟩ := eq_ok_of_failure? hvalue
    rw [ha]
    exact hf w a ha
  · rw [eq_error_of_failure? hfailed]
    exact ⟨.error e, rfl, fun w => rfl⟩

/-- A step that is already known, and what follows where it succeeded. -/
theorem Assembled.ofExcept_bind {result : Except MapperError α} (hE : ∀ e, result = .error e → E e)
    (hf : ∀ a, result = .ok a → (f a).Assembled P E) :
    (Task.ofExcept result >>= f : Task d γ).Assembled P E :=
  .bind (.ofExcept hE) fun _ => hf

/-- A task of which only the success counts. -/
theorem Assembled.discard (ht : t.Assembled P E) : (discard t).Assembled P E :=
  .bind ht fun _ _ _ => .pure ()

/-- A task for every item of a list. -/
theorem Assembled.forM {g : γ → Task d Unit} : (xs : List γ) → (∀ x ∈ xs, (g x).Assembled P E) →
    (xs.forM g).Assembled P E
  | [], _ => .pure ()
  | x :: xs, h => by
      show (g x >>= fun _ => xs.forM g).Assembled P E
      exact .bind (h x List.mem_cons_self) fun _ _ _ =>
        Assembled.forM xs fun y hy => h y (List.mem_cons_of_mem _ hy)

/-- A task put together from pieces is made of the jobs of these pieces. -/
theorem Assembled.composed {R : Job → Prop} (h : t.Assembled P E)
    (hjobs : ∀ piece, P piece → ∀ job ∈ piece.job?, R job) : t.Composed R :=
  Action.Assembled.composed h hjobs

/-- A law that the pieces of a task obey is obeyed by the task. -/
theorem Assembled.law {L : Option MapperError → World σ → List Entry → World σ → Prop}
    (hL : PieceLaw E L) (hpiece : ∀ piece, P piece → (piece.task d).Obeys L)
    (h : t.Assembled P E) : t.Obeys L :=
  Action.Assembled.law hL hpiece h

end Task

/-! ## Attempts -/

namespace Action

variable {P : Piece → Prop} {E : MapperError → Prop} {action : Action d (Attempt β α)}

/-- An attempt that is over, with an error that it may have. -/
theorem Assembled.ended {x : β} {result : Except MapperError α}
    (hE : ∀ e, result = .error e → E e) :
    Assembled (d := d) P E Attempt.failure? (Pure.pure ⟨x, result⟩) :=
  .done fun e h => hE e (eq_error_of_failure? h)

/-- An attempt that is over and has succeeded. -/
theorem Assembled.reached {x : β} {a : α} :
    Assembled (d := d) P E Attempt.failure? (Pure.pure ⟨x, .ok a⟩) :=
  .done fun _ h => nomatch h

/-- An attempt on a part of some storage. -/
theorem Assembled.wrap {wrap : β → δ} (h : action.Assembled P E Attempt.failure?) :
    Assembled (d := d) P E Attempt.failure? (do
      let left ← action
      return ⟨wrap left.storage, left.result⟩) :=
  .bind h (fun w hvalue => .done fun e he => by
    rw [show Attempt.failure? ⟨wrap (action.run w).value.storage, (action.run w).value.result⟩
      = none from hvalue] at he
    cases he) fun _ _ hfailed => ⟨_, hfailed, fun _ => rfl⟩

/-- What follows an attempt and fails where it did. -/
theorem Assembled.attempt {next : Attempt β α → Action d (Attempt δ γ)}
    (h : action.Assembled P E Attempt.failure?)
    (hnext : ∀ x a, (next ⟨x, .ok a⟩).Assembled P E Attempt.failure?)
    (hfailed : ∀ x e, ∃ y, next ⟨x, .error e⟩ = Pure.pure ⟨y, .error e⟩) :
    (action >>= next).Assembled P E Attempt.failure? := by
  refine .bind h (fun w hvalue => ?_) fun left e hvalue => ?_
  · generalize (action.run w).value = left at hvalue ⊢
    obtain ⟨x, result⟩ := left
    have hresult : failure? result = none := hvalue
    obtain ⟨a, rfl⟩ := eq_ok_of_failure? hresult
    exact hnext x a
  · obtain ⟨x, result⟩ := left
    have hresult : failure? result = some e := hvalue
    obtain rfl := eq_error_of_failure? hresult
    obtain ⟨y, hy⟩ := hfailed x e
    exact ⟨⟨y, .error e⟩, rfl, fun w => by rw [hy]; rfl⟩

/-- What follows a task and fails where the task did. -/
theorem Assembled.after {t : Task d α} {next : Except MapperError α → Action d (Attempt δ γ)}
    (ht : t.Assembled P E) (hnext : ∀ a, (next (.ok a)).Assembled P E Attempt.failure?)
    (hfailed : ∀ e, ∃ y, next (.error e) = Pure.pure ⟨y, .error e⟩) :
    Assembled P E Attempt.failure? (t.run >>= next) := by
  refine .bind ht (fun w hvalue => ?_) fun result e hvalue => ?_
  · obtain ⟨a, ha⟩ := eq_ok_of_failure? hvalue
    rw [ha]
    exact hnext a
  · rw [eq_error_of_failure? hvalue]
    obtain ⟨y, hy⟩ := hfailed e
    exact ⟨⟨y, .error e⟩, rfl, fun w => by rw [hy]; rfl⟩

/-- An attempt whose result is that of a task, with the storage already at hand. -/
theorem Assembled.ofTask {t : Task d α} (x : δ) (ht : t.Assembled P E) :
    Assembled (d := d) P E Attempt.failure? (do return ⟨x, ← t.run⟩) :=
  .after ht (fun _ => .reached) fun _ => ⟨x, rfl⟩

end Action

/-! ## Pieces that serve a closure -/

namespace Sql.Statement

/-- Whether a statement inserts a row or a link. -/
def Inserts : Statement → Prop
  | insertRow .. | insertLink .. => True
  | _ => False

/-- Whether a statement updates a row. -/
def Updates : Statement → Prop
  | updateRow .. => True
  | _ => False

/-- Whether a statement deletes a row or links. -/
def Deletes : Statement → Prop
  | deleteRow .. | deleteLink .. | clearLinks .. => True
  | _ => False

/-- Whether a statement selects a row or links. -/
def Selects : Statement → Prop
  | selectRow .. | selectLinks .. => True
  | _ => False

end Sql.Statement

/-- Whether an event only tells what is being done to a table or a record. -/
def Event.IsNotice : Event → Prop
  | .creatingTable _ | .creatingLinks _ | .droppingTable _ | .droppingLinks _
  | .nothingToUpdate _ => True
  | _ => False

/-- Whether a job announces a table by a notice, finds fault with a definition only as it may, and
runs a statement of its own sort. An update is never run without a look at its count. -/
def Job.Worded (E : MapperError → Prop) : Job → Prop
  | .ensure _ creating definition => creating.IsNotice ∧ ∀ e, definition = .error e → E e
  | .drop _ _ dropping _ => dropping.IsNotice
  | .insert s => s.Inserts
  | .update _ => False
  | .delete s => s.Deletes
  | .fetchRow s _ | .fetchColumn s _ => s.Selects

/-- Whether a piece is of a kind, is worded as it should be, and serves a model of a closure. -/
def Piece.Within {n : Nat} (ms : Models n) (root : Fin n) (kind : Job.Kind)
    (E : MapperError → Prop) : Piece → Prop
  | .job j => j.Within ms root kind ∧ j.Worded E
  | .counted _ s => (Job.update s).Within ms root kind ∧ s.Updates
  | .report e => e.IsNotice

/-- Whether a piece fetches rows or links. -/
def Piece.Fetches : Piece → Prop
  | .job (.fetchRow ..) | .job (.fetchColumn ..) => True
  | _ => False

/-- Whether a piece fetches rows or links for a model of a closure. -/
def Piece.Loads {n : Nat} (ms : Models n) (root : Fin n) (E : MapperError → Prop) (piece : Piece) :
    Prop :=
  piece.Within ms root .onRows E ∧ piece.Fetches

/-- The job of a piece of a closure serves a model of the closure. -/
theorem Piece.Within.job {n : Nat} {ms : Models n} {root : Fin n} {kind : Job.Kind}
    {E : MapperError → Prop} {piece : Piece} (h : piece.Within ms root kind E) {j : Job}
    (hj : j ∈ piece.job?) : j.Within ms root kind := by
  cases piece with
  | job i =>
      cases hj
      exact h.1
  | counted table s =>
      cases hj
      exact h.1
  | report e => cases hj

/-! ## The sorts of rendered statements -/

namespace Bound

variable {n : Nat} {c : Catalog n} {k : Fin n} {b : Bound c k} {f : Field c} {s : Sql.Statement}

theorem insertRow_inserts (h : b.insertRow = .ok s) : s.Inserts := by
  obtain ⟨as, -, h⟩ := bind_eq_ok.1 h
  cases h
  exact trivial

theorem updateRow_updates (h : b.updateRow = .ok s) : s.Updates := by
  obtain ⟨key, -, h⟩ := bind_eq_ok.1 h
  obtain ⟨as, -, h⟩ := bind_eq_ok.1 h
  dsimp only at h
  split at h
  · cases h
  · cases h
    exact trivial

theorem deleteRow_deletes (h : b.deleteRow = .ok s) : s.Deletes := by
  obtain ⟨key, -, h⟩ := bind_eq_ok.1 h
  cases h
  exact trivial

theorem selectRow_selects (h : b.selectRow = .ok s) : s.Selects := by
  obtain ⟨key, -, h⟩ := bind_eq_ok.1 h
  cases h
  exact trivial

theorem insertLink_inserts {related : Record c} (h : b.insertLink f related = .ok s) :
    s.Inserts := by
  obtain ⟨table, -, h⟩ := bind_eq_ok.1 h
  obtain ⟨left, -, h⟩ := bind_eq_ok.1 h
  obtain ⟨right, -, h⟩ := bind_eq_ok.1 h
  cases h
  exact trivial

theorem deleteLink_deletes {related : Record c} (h : b.deleteLink f related = .ok s) :
    s.Deletes := by
  obtain ⟨table, -, h⟩ := bind_eq_ok.1 h
  obtain ⟨left, -, h⟩ := bind_eq_ok.1 h
  obtain ⟨right, -, h⟩ := bind_eq_ok.1 h
  cases h
  exact trivial

theorem clearLinks_deletes (h : b.clearLinks f = .ok s) : s.Deletes := by
  obtain ⟨table, -, h⟩ := bind_eq_ok.1 h
  obtain ⟨left, -, h⟩ := bind_eq_ok.1 h
  cases h
  exact trivial

theorem selectLinks_selects (h : b.selectLinks f = .ok s) : s.Selects := by
  obtain ⟨table, -, h⟩ := bind_eq_ok.1 h
  obtain ⟨left, -, h⟩ := bind_eq_ok.1 h
  cases h
  exact trivial

end Bound

end EntityMapper
