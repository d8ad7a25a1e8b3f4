import EntityMapper.Session.Progress
import Mathlib.Tactic.Common

/-!
# Steps of sessions

What tasks and the stages of operations lead to, one step after the other. A task that fails makes
no further step (`Task.exec_bind`). Where success is promised for certain journals only, it is
carried along the steps by `Task.Succeeds.bind`.
-/

namespace EntityMapper

variable {σ α β γ : Type} {d : Driver σ}

@[simp] theorem Action.run_call (call : Call) (w : World σ) :
    (Action.call (d := d) call).run w =
      { value := (d.step call w.driver).1
        world := { w with driver := (d.step call w.driver).2 }
        journal := [.call call (d.step call w.driver).1] } := rfl

/-- What two actions in a row lead to, from what each of them leads to. -/
theorem Action.run_bind_eq {action : Action d α} {next : α → Action d γ} {a : α} {b : γ}
    {w w' w'' : World σ} {journal later : List Entry} (h : action.run w = ⟨a, w', journal⟩)
    (hnext : (next a).run w' = ⟨b, w'', later⟩) :
    (action >>= next).run w = ⟨b, w'', journal ++ later⟩ := by
  rw [Action.run_bind, h]
  dsimp only
  rw [hnext]

namespace Task

/-- What a task leads to from a world. -/
def exec (t : Task d α) (w : World σ) : Outcome σ (Except MapperError α) := t.run.run w

variable {w : World σ} {t : Task d α} {f : α → Task d γ}

@[simp] theorem exec_pure (a : α) : (pure a : Task d α).exec w = ⟨.ok a, w, []⟩ := rfl

@[simp] theorem exec_throw (e : MapperError) :
    (throw e : Task d α).exec w = ⟨.error e, w, []⟩ := rfl

@[simp] theorem exec_ofExcept (result : Except MapperError α) :
    (ofExcept result : Task d α).exec w = ⟨result, w, []⟩ := rfl

@[simp] theorem exec_report (e : Event) :
    (report e : Task d Unit).exec w = ⟨.ok (), w, [.event e]⟩ := rfl

@[simp] theorem exec_call (call : Call) :
    (Task.call call : Task d call.Answer).exec w =
      { value := (d.step call w.driver).1.mapError .driver
        world := { w with driver := (d.step call w.driver).2 }
        journal := [.call call (d.step call w.driver).1] } := rfl

@[simp] theorem exec_check (table origin : String) :
    (check table origin : Task d Bool).exec w = ⟨w.cache.check table origin, w, []⟩ := rfl

@[simp] theorem exec_lift (action : Action d α) :
    Task.exec (ExceptT.lift action : Task d α) w =
      ⟨.ok (action.run w).value, (action.run w).world, (action.run w).journal⟩ := by
  show Outcome.mk _ _ ((action.run w).journal ++ []) = _
  rw [List.append_nil]
  rfl

/-- Two tasks in a row: the second one runs where the first left off, unless that failed. -/
theorem exec_bind :
    (t >>= f).exec w = match (t.exec w).value with
      | .ok a =>
          { value := ((f a).exec (t.exec w).world).value
            world := ((f a).exec (t.exec w).world).world
            journal := (t.exec w).journal ++ ((f a).exec (t.exec w).world).journal }
      | .error e => ⟨.error e, (t.exec w).world, (t.exec w).journal⟩ := by
  show Outcome.mk _ _ _ = _
  cases h : (t.exec w).value with
  | ok a =>
      have h' : (t w).value = .ok a := h
      simp only [ExceptT.bindCont, h']
      rfl
  | error e =>
      have h' : (t w).value = .error e := h
      simp only [ExceptT.bindCont, h']
      show Outcome.mk _ _ ((t.exec w).journal ++ []) = _
      rw [List.append_nil]
      rfl

/-- Two tasks in a row, the first of which succeeds. -/
theorem exec_bind_of_ok {a : α} (h : (t.exec w).value = .ok a) :
    (t >>= f).exec w =
      { value := ((f a).exec (t.exec w).world).value
        world := ((f a).exec (t.exec w).world).world
        journal := (t.exec w).journal ++ ((f a).exec (t.exec w).world).journal } := by
  rw [exec_bind, h]

/-- What two tasks in a row lead to, from what each of them leads to. -/
theorem exec_bind_eq {a : α} {b : Except MapperError γ} {w' w'' : World σ}
    {journal later : List Entry} (h : t.exec w = ⟨.ok a, w', journal⟩)
    (hnext : (f a).exec w' = ⟨b, w'', later⟩) : (t >>= f).exec w = ⟨b, w'', journal ++ later⟩ := by
  rw [exec_bind, h]
  dsimp only
  rw [hnext]

/-- Where the first of two tasks fails, the second one is not run. -/
theorem exec_bind_error {e : MapperError} {w' : World σ} {journal : List Entry}
    (h : t.exec w = ⟨.error e, w', journal⟩) : (t >>= f).exec w = ⟨.error e, w', journal⟩ := by
  rw [exec_bind, h]

/-- A call that is reported first leaves the report and the call, however it is answered. -/
theorem exec_reported (e : Event) {call : Call} {answer : Except DriverError call.Answer} {after : σ}
    (h : d.step call w.driver = (answer, after)) :
    (report e >>= fun _ => Task.call call : Task d call.Answer).exec w =
      ⟨answer.mapError .driver, { w with driver := after }, [.event e, .call call answer]⟩ := by
  rw [exec_bind, exec_report]
  dsimp only
  rw [exec_call, h]
  rfl

/-- Two tasks in a row succeed only where both do. -/
theorem ok_of_exec_bind {b : γ} (h : ((t >>= f).exec w).value = .ok b) :
    ∃ a, (t.exec w).value = .ok a ∧ ((f a).exec (t.exec w).world).value = .ok b := by
  rw [exec_bind] at h
  cases ha : (t.exec w).value with
  | ok a =>
      rw [ha] at h
      exact ⟨a, rfl, h⟩
  | error e =>
      rw [ha] at h
      cases h

/-- Tasks that do nothing do nothing in a row. -/
theorem exec_forM_idle {g : γ → Task d Unit} : {xs : List γ} →
    (∀ x ∈ xs, (g x).exec w = ⟨.ok (), w, []⟩) → (xs.forM g).exec w = ⟨.ok (), w, []⟩
  | [], _ => rfl
  | x :: xs, h => by
      show (g x >>= fun _ => xs.forM g).exec w = _
      rw [exec_bind, h x List.mem_cons_self]
      dsimp only
      rw [exec_forM_idle fun y hy => h y (List.mem_cons_of_mem _ hy)]
      rfl

/-! ## What success leads to -/

/-- Whether a task that succeeds answers, leaves and writes what it should. -/
def Leads (t : Task d α) (w : World σ) (post : α → World σ → List Entry → Prop) : Prop :=
  ∀ a, (t.exec w).value = .ok a → post a (t.exec w).world (t.exec w).journal

section Leads

variable {post : α → World σ → List Entry → Prop} {final : γ → World σ → List Entry → Prop}

/-- Two tasks in a row lead to what the second one does after whatever the first leads to. -/
theorem Leads.bind (mid : α → World σ → List Entry → Prop) (ht : t.Leads w mid)
    (hf : ∀ a w' journal, mid a w' journal →
      (f a).Leads w' fun b w'' later => final b w'' (journal ++ later)) :
    (t >>= f).Leads w final := by
  intro b hb
  obtain ⟨a, ha, hb⟩ := ok_of_exec_bind hb
  rw [exec_bind_of_ok ha]
  exact hf a _ _ (ht a ha) b hb

theorem Leads.pure {a : α} (h : post a w []) : (pure a : Task d α).Leads w post := by
  intro b hb
  cases hb
  exact h

theorem Leads.ofExcept {result : Except MapperError α} (h : ∀ a, result = .ok a → post a w []) :
    (ofExcept result : Task d α).Leads w post :=
  h

theorem Leads.report {e : Event} {post : Unit → World σ → List Entry → Prop}
    (h : post () w [.event e]) : (report e : Task d Unit).Leads w post :=
  fun _ _ => h

theorem Leads.check {table origin : String} {post : Bool → World σ → List Entry → Prop}
    (h : ∀ known, w.cache.check table origin = .ok known → post known w []) :
    (check table origin : Task d Bool).Leads w post :=
  h

theorem Leads.modifyCache {g : SchemaCache → SchemaCache}
    {post : Unit → World σ → List Entry → Prop}
    (h : post () { w with cache := g w.cache } [.cached (g w.cache)]) :
    Leads (ExceptT.lift (Action.modifyCache g) : Task d Unit) w post :=
  fun _ _ => h

theorem Leads.lift {action : Action d α}
    (h : post (action.run w).value (action.run w).world (action.run w).journal) :
    Leads (ExceptT.lift action : Task d α) w post := by
  intro a ha
  rw [exec_lift] at ha ⊢
  cases ha
  exact h

/-- A call that succeeds changes the driver and leaves its answer in the journal. -/
theorem Leads.call {call : Call} {post : call.Answer → World σ → List Entry → Prop}
    (h : ∀ a, (d.step call w.driver).1 = .ok a →
      post a { w with driver := (d.step call w.driver).2 } [.call call (.ok a)]) :
    (Task.call call : Task d call.Answer).Leads w post := by
  intro a ha
  rw [exec_call] at ha ⊢
  cases hstep : (d.step call w.driver).1 with
  | error e =>
      rw [hstep] at ha
      cases ha
  | ok answer =>
      rw [hstep] at ha
      cases ha
      exact h a hstep

end Leads

/-! ## Success under a promise on the journal -/

/-- Whether a task succeeds with a result that is as it should be, provided that every line of its
journal is as promised. -/
def Succeeds (promise : Entry → Prop) (t : Task d α) (w : World σ) (post : α → World σ → Prop) :
    Prop :=
  (∀ entry ∈ (t.exec w).journal, promise entry) →
    ∃ a, (t.exec w).value = .ok a ∧ post a (t.exec w).world

variable {promise : Entry → Prop} {post : α → World σ → Prop} {final : γ → World σ → Prop}

/-- Two tasks in a row succeed when the second one does after whatever the first leads to. -/
theorem Succeeds.bind (mid : α → World σ → Prop) (ht : t.Succeeds promise w mid)
    (hf : ∀ a w', mid a w' → (f a).Succeeds promise w' final) :
    (t >>= f).Succeeds promise w final := by
  intro hjournal
  -- The promise covers the journal of the first task, which therefore succeeds.
  have hfirst : ∀ entry ∈ (t.exec w).journal, promise entry := by
    intro entry hentry
    apply hjournal
    rw [exec_bind]
    split
    · exact List.mem_append_left _ hentry
    · exact hentry
  obtain ⟨a, ha, hpost⟩ := ht hfirst
  rw [exec_bind_of_ok ha] at hjournal ⊢
  exact hf a _ hpost fun entry hentry => hjournal entry (List.mem_append_right _ hentry)

theorem Succeeds.pure {a : α} (h : post a w) : (pure a : Task d α).Succeeds promise w post :=
  fun _ => ⟨a, rfl, h⟩

theorem Succeeds.ofExcept {a : α} {result : Except MapperError α} (hresult : result = .ok a)
    (h : post a w) : (ofExcept result : Task d α).Succeeds promise w post :=
  fun _ => ⟨a, hresult, h⟩

theorem Succeeds.report {e : Event} {post : Unit → World σ → Prop} (h : post () w) :
    (report e : Task d Unit).Succeeds promise w post :=
  fun _ => ⟨(), rfl, h⟩

theorem Succeeds.lift {action : Action d α}
    (h : (∀ entry ∈ (action.run w).journal, promise entry) →
      post (action.run w).value (action.run w).world) :
    Succeeds promise (ExceptT.lift action : Task d α) w post := by
  intro hjournal
  rw [exec_lift] at hjournal ⊢
  exact ⟨_, rfl, h hjournal⟩

/-- A call succeeds where the promise says what it answers. -/
theorem Succeeds.call {call : Call} {post : call.Answer → World σ → Prop}
    (h : promise (.call call (d.step call w.driver).1) → ∃ a, (d.step call w.driver).1 = .ok a ∧
      post a { w with driver := (d.step call w.driver).2 }) :
    (Task.call call : Task d call.Answer).Succeeds promise w post := by
  intro hjournal
  obtain ⟨a, ha, hpost⟩ := h (hjournal _ List.mem_cons_self)
  refine ⟨a, ?_, hpost⟩
  rw [exec_call, ha]
  rfl

end Task

/-! ## Attempts -/

namespace Action

/-- Whether an attempt that succeeds leaves and writes what it should. -/
def Attains (action : Action d (Attempt β Unit)) (w : World σ) (Q : β → List Entry → Prop) :
    Prop :=
  (action.run w).value.result = .ok () →
    Q (action.run w).value.storage (action.run w).journal

variable {δ : Type} {w : World σ} {action : Action d (Attempt β Unit)}
  {P : β → List Entry → Prop} {Q : δ → List Entry → Prop}

theorem Attains.pure {x : δ} (h : Q x []) :
    (pure ⟨x, .ok ()⟩ : Action d (Attempt δ Unit)).Attains w Q :=
  fun _ => h

/-- An attempt on a part of some storage. -/
theorem Attains.wrap {wrap : β → δ}
    (h : action.Attains w fun x journal => Q (wrap x) journal) :
    Attains (d := d) (do
      let left ← action
      return ⟨wrap left.storage, left.result⟩) w Q := by
  intro hresult
  have hjournal : (action.run w).journal ++ [] = (action.run w).journal := List.append_nil _
  rw [run_bind, run_pure] at hresult ⊢
  show Q _ ((action.run w).journal ++ [])
  rw [hjournal]
  exact h hresult

/-- What follows an attempt and fails where it did goes on from what the attempt attains. -/
theorem Attains.bind {next : Attempt β Unit → Action d (Attempt δ Unit)}
    (hfirst : action.Attains w P)
    (hfailed : ∀ x e w', ((next ⟨x, .error e⟩).run w').value.result ≠ .ok ())
    (hnext : ∀ x w' journal, P x journal →
      (next ⟨x, .ok ()⟩).Attains w' fun y later => Q y (journal ++ later)) :
    (action >>= next).Attains w Q := by
  intro hresult
  rw [run_bind] at hresult ⊢
  unfold Attains at hfirst
  generalize action.run w = outcome at hfirst hresult ⊢
  obtain ⟨⟨x, result⟩, w', journal⟩ := outcome
  cases result with
  | error e => exact absurd hresult (hfailed x e w')
  | ok => exact hnext x w' journal (hfirst rfl) hresult

/-- An attempt whose result is that of a task, with the storage already at hand. -/
theorem Attains.ofTask {t : Task d Unit} {x : δ}
    (ht : t.Leads w fun _ _ journal => Q x journal) :
    Attains (d := d) (do return ⟨x, ← t.run⟩) w Q := by
  intro hresult
  have hjournal : (t.exec w).journal ++ [] = (t.exec w).journal := List.append_nil _
  rw [run_bind, run_pure] at hresult ⊢
  show Q x ((t.exec w).journal ++ [])
  rw [hjournal]
  exact ht () hresult

/-- What follows a task and fails where the task did goes on from what the task leads to. -/
theorem Attains.after {t : Task d α} {next : Except MapperError α → Action d (Attempt δ Unit)}
    {R : α → World σ → List Entry → Prop} (ht : t.Leads w R)
    (hfailed : ∀ e w', ((next (.error e)).run w').value.result ≠ .ok ())
    (hnext : ∀ a w' journal, R a w' journal →
      (next (.ok a)).Attains w' fun y later => Q y (journal ++ later)) :
    (t.run >>= next).Attains w Q := by
  intro hresult
  have hexec : t.run.run w = t.exec w := rfl
  rw [run_bind, hexec] at hresult ⊢
  cases hvalue : (t.exec w).value with
  | error e =>
      rw [hvalue] at hresult
      exact absurd hresult (hfailed e _)
  | ok a =>
      rw [hvalue] at hresult
      exact hnext a _ _ (ht a hvalue) hresult

end Action

namespace Staged

/-- What a step of an operation leads to. -/
def exec (x : Staged d β α) (p : Progress β) (w : World σ) :
    Outcome σ (Except MapperError α × Progress β) := (x.run.run p).run w

variable {p : Progress β} {w : World σ} {x : Staged d β α} {f : α → Staged d β γ}

@[simp] theorem exec_ofExcept (result : Except MapperError α) :
    (ofExcept result : Staged d β α).exec p w = ⟨(result, p), w, []⟩ := rfl

@[simp] theorem exec_advance (target : Stage) :
    (advance target : Staged d β Unit).exec p w =
      { value := (.ok (), { p with stage := target })
        world := w
        journal := [.event (.advanced p.operation p.entity p.stage target)] } := rfl

@[simp] theorem exec_task (t : Task d α) :
    (task t : Staged d β α).exec p w =
      ⟨((t.exec w).value, p), (t.exec w).world, (t.exec w).journal⟩ := by
  show Outcome.mk _ _ ((t.exec w).journal ++ []) = _
  rw [List.append_nil]
  rfl

/-- A task that fails fails the step. -/
theorem exec_task_error {t : Task d α} {e : MapperError} {w' : World σ} {journal : List Entry}
    (h : t.exec w = ⟨.error e, w', journal⟩) :
    (task t : Staged d β α).exec p w = ⟨(.error e, p), w', journal⟩ := by
  rw [exec_task, h]

@[simp] theorem exec_attempt (g : β → Action d (Attempt β α)) :
    (attempt g : Staged d β α).exec p w =
      { value := (((g p.storage).run w).value.result,
          { p with storage := ((g p.storage).run w).value.storage })
        world := ((g p.storage).run w).world
        journal := ((g p.storage).run w).journal } := by
  show Outcome.mk _ _ (((g p.storage).run w).journal ++ []) = _
  rw [List.append_nil]
  rfl

/-- Two steps in a row: the second one starts where the first left off, unless that failed. -/
theorem exec_bind :
    (x >>= f).exec p w = match (x.exec p w).value.1 with
      | .ok a =>
          { value := ((f a).exec (x.exec p w).value.2 (x.exec p w).world).value
            world := ((f a).exec (x.exec p w).value.2 (x.exec p w).world).world
            journal := (x.exec p w).journal ++
              ((f a).exec (x.exec p w).value.2 (x.exec p w).world).journal }
      | .error e =>
          { value := (.error e, (x.exec p w).value.2)
            world := (x.exec p w).world
            journal := (x.exec p w).journal } := by
  show Outcome.mk _ _ _ = _
  cases h : (x.exec p w).value.1 with
  | ok a =>
      have h' : (x p w).value.1 = .ok a := h
      simp only [ExceptT.bindCont, h']
      rfl
  | error e =>
      have h' : (x p w).value.1 = .error e := h
      simp only [ExceptT.bindCont, h']
      show Outcome.mk _ _ ((x.exec p w).journal ++ []) = _
      rw [List.append_nil]
      rfl

/-- What an operation reports at its end. -/
def closing (operation : Operation) (entity : String) (left : Except MapperError α × Progress β) :
    List Entry :=
  match left.1 with
  | .ok _ => [.event (.advanced operation entity left.2.stage .done)]
  | .error e =>
      [.event (.failed operation entity left.2.stage e),
        .event (.advanced operation entity left.2.stage .failed)]

/-- An operation answers what its steps answer and leaves the storage as they do. -/
theorem run_operate (operation : Operation) (entity : String) (storage : β)
    (work : Staged d β α) (w : World σ) :
    (operate operation entity storage work).run w =
      let left := work.exec ⟨operation, entity, .introspecting, storage⟩ w
      { value := ⟨left.value.2.storage, left.value.1⟩
        world := left.world
        journal := .event (.began operation entity) ::
          (left.journal ++ closing operation entity left.value) } := by
  have hreport : ∀ (e : Event) (w : World σ),
      (Action.report e : Action d Unit).run w = ⟨(), w, [.event e]⟩ := fun e w => rfl
  unfold operate
  generalize hleft : work.exec ⟨operation, entity, .introspecting, storage⟩ w = left
  obtain ⟨⟨result, p⟩, w', journal⟩ := left
  have hwork : ((work.run).run ⟨operation, entity, .introspecting, storage⟩).run w
      = ⟨(result, p), w', journal⟩ := hleft
  simp only [Action.run_bind, hreport, hwork]
  cases result <;>
    simp only [Action.run_bind, Action.run_pure, hreport, closing, List.append_nil,
      List.singleton_append]

/-- Two steps in a row, the first of which succeeds. -/
theorem exec_bind_of_ok {a : α} (h : (x.exec p w).value.1 = .ok a) :
    (x >>= f).exec p w =
      { value := ((f a).exec (x.exec p w).value.2 (x.exec p w).world).value
        world := ((f a).exec (x.exec p w).value.2 (x.exec p w).world).world
        journal := (x.exec p w).journal ++
          ((f a).exec (x.exec p w).value.2 (x.exec p w).world).journal } := by
  rw [exec_bind, h]

/-- Where the first of two steps fails, the second one is not run. -/
theorem exec_bind_error {e : MapperError} {p' : Progress β} {w' : World σ} {journal : List Entry}
    (h : x.exec p w = ⟨(.error e, p'), w', journal⟩) :
    (x >>= f).exec p w = ⟨(.error e, p'), w', journal⟩ := by
  rw [exec_bind, h]

/-- Two steps in a row succeed only where both do. -/
theorem ok_of_exec_bind {b : γ} (h : ((x >>= f).exec p w).value.1 = .ok b) :
    ∃ a, (x.exec p w).value.1 = .ok a ∧
      ((f a).exec (x.exec p w).value.2 (x.exec p w).world).value.1 = .ok b := by
  rw [exec_bind] at h
  cases ha : (x.exec p w).value.1 with
  | ok a =>
      rw [ha] at h
      exact ⟨a, rfl, h⟩
  | error e =>
      rw [ha] at h
      cases h

/-! ## What success leads to -/

/-- Whether a step that succeeds answers, leaves and writes what it should. -/
def Leads (x : Staged d β α) (p : Progress β) (w : World σ)
    (post : α → Progress β → World σ → List Entry → Prop) : Prop :=
  ∀ a, (x.exec p w).value.1 = .ok a →
    post a (x.exec p w).value.2 (x.exec p w).world (x.exec p w).journal

section Leads

variable {post : α → Progress β → World σ → List Entry → Prop}
  {final : γ → Progress β → World σ → List Entry → Prop}

/-- Two steps in a row lead to what the second one does after whatever the first leads to. -/
theorem Leads.bind (mid : α → Progress β → World σ → List Entry → Prop)
    (hx : x.Leads p w mid) (hf : ∀ a p' w' journal, mid a p' w' journal →
      (f a).Leads p' w' fun b p'' w'' later => final b p'' w'' (journal ++ later)) :
    (x >>= f).Leads p w final := by
  intro b hb
  obtain ⟨a, ha, hb⟩ := ok_of_exec_bind hb
  rw [exec_bind_of_ok ha]
  exact hf a _ _ _ (hx a ha) b hb

theorem Leads.ofExcept {result : Except MapperError α} (h : ∀ a, result = .ok a → post a p w []) :
    (ofExcept result : Staged d β α).Leads p w post :=
  h

theorem Leads.advance {target : Stage} {post : Unit → Progress β → World σ → List Entry → Prop}
    (h : post () { p with stage := target } w
      [.event (.advanced p.operation p.entity p.stage target)]) :
    (advance target : Staged d β Unit).Leads p w post :=
  fun _ _ => h

theorem Leads.task {t : Task d α} {after : α → World σ → List Entry → Prop}
    (ht : t.Leads w after) (h : ∀ a w' journal, after a w' journal → post a p w' journal) :
    (task t : Staged d β α).Leads p w post := by
  intro a ha
  rw [exec_task] at ha ⊢
  exact h a _ _ (ht a ha)

theorem Leads.attempt {g : β → Action d (Attempt β α)}
    (h : ∀ a, ((g p.storage).run w).value.result = .ok a →
      post a { p with storage := ((g p.storage).run w).value.storage } ((g p.storage).run w).world
        ((g p.storage).run w).journal) :
    (attempt g : Staged d β α).Leads p w post := by
  intro a ha
  rw [exec_attempt] at ha ⊢
  exact h a ha

/-- An operation that succeeds leads to what its steps do, and its journal has two events more. -/
theorem Leads.operate {operation : Operation} {entity : String} {storage : β}
    (hx : x.Leads ⟨operation, entity, .introspecting, storage⟩ w post)
    (hresult : ∃ a, ((operate operation entity storage x).run w).value.result = .ok a) :
    ∃ a p journal final, ((operate operation entity storage x).run w).value = ⟨p.storage, .ok a⟩ ∧
      ((operate operation entity storage x).run w).journal =
        .event (.began operation entity) :: (journal ++ [.event final]) ∧
      post a p ((operate operation entity storage x).run w).world journal := by
  obtain ⟨a, ha⟩ := hresult
  rw [run_operate] at ha ⊢
  have hvalue : (x.exec ⟨operation, entity, .introspecting, storage⟩ w).value.1 = .ok a := ha
  have hclosing : closing operation entity
      (x.exec ⟨operation, entity, .introspecting, storage⟩ w).value = [.event (.advanced operation
        entity (x.exec ⟨operation, entity, .introspecting, storage⟩ w).value.2.stage .done)] := by
    rw [closing, hvalue]
  refine ⟨a, _, _, _, ?_, congrArg (fun lines => _ :: (_ ++ lines)) hclosing, hx a hvalue⟩
  show Attempt.mk _ _ = _
  rw [hvalue]

end Leads

/-! ## Success under a promise on the journal -/

/-- Whether a step succeeds with a result that is as it should be, provided that every line of its
journal is as promised. -/
def Succeeds (promise : Entry → Prop) (x : Staged d β α) (p : Progress β) (w : World σ)
    (post : α → Progress β → World σ → Prop) : Prop :=
  (∀ entry ∈ (x.exec p w).journal, promise entry) →
    ∃ a, (x.exec p w).value.1 = .ok a ∧ post a (x.exec p w).value.2 (x.exec p w).world

variable {promise : Entry → Prop} {post : α → Progress β → World σ → Prop}
  {final : γ → Progress β → World σ → Prop}

/-- Two steps in a row succeed when the second one does after whatever the first leads to. -/
theorem Succeeds.bind (mid : α → Progress β → World σ → Prop)
    (hx : x.Succeeds promise p w mid)
    (hf : ∀ a p' w', mid a p' w' → (f a).Succeeds promise p' w' final) :
    (x >>= f).Succeeds promise p w final := by
  intro hjournal
  have hfirst : ∀ entry ∈ (x.exec p w).journal, promise entry := by
    intro entry hentry
    apply hjournal
    rw [exec_bind]
    split
    · exact List.mem_append_left _ hentry
    · exact hentry
  obtain ⟨a, ha, hpost⟩ := hx hfirst
  rw [exec_bind_of_ok ha] at hjournal ⊢
  exact hf a _ _ hpost fun entry hentry => hjournal entry (List.mem_append_right _ hentry)

theorem Succeeds.ofExcept {a : α} {result : Except MapperError α} (hresult : result = .ok a)
    (h : post a p w) : (ofExcept result : Staged d β α).Succeeds promise p w post :=
  fun _ => ⟨a, hresult, h⟩

theorem Succeeds.advance {target : Stage} {post : Unit → Progress β → World σ → Prop}
    (h : post () { p with stage := target } w) :
    (advance target : Staged d β Unit).Succeeds promise p w post :=
  fun _ => ⟨(), rfl, h⟩

theorem Succeeds.task {t : Task d α} {after : α → World σ → Prop}
    (ht : t.Succeeds promise w after) (h : ∀ a w', after a w' → post a p w') :
    (task t : Staged d β α).Succeeds promise p w post := by
  intro hjournal
  rw [exec_task] at hjournal ⊢
  obtain ⟨a, ha, hafter⟩ := ht hjournal
  exact ⟨a, ha, h a _ hafter⟩

/-- An attempt succeeds where it leaves a result that is no error. -/
theorem Succeeds.attempt {g : β → Action d (Attempt β α)} {a : α} {storage : β}
    (hg : ((g p.storage).run w).value = ⟨storage, .ok a⟩)
    (h : post a { p with storage := storage } ((g p.storage).run w).world) :
    (attempt g : Staged d β α).Succeeds promise p w post := by
  intro _
  rw [exec_attempt, hg]
  exact ⟨a, rfl, h⟩

/-- An operation succeeds where its steps do. -/
theorem Succeeds.operate {operation : Operation} {entity : String} {storage : β}
    (hx : x.Succeeds promise ⟨operation, entity, .introspecting, storage⟩ w post)
    (hjournal : ∀ entry ∈ ((operate operation entity storage x).run w).journal, promise entry) :
    ∃ a p w', ((operate operation entity storage x).run w).value = ⟨p.storage, .ok a⟩ ∧
      post a p w' := by
  rw [run_operate] at hjournal ⊢
  obtain ⟨a, ha, hpost⟩ := hx fun entry hentry =>
    hjournal entry (List.mem_cons_of_mem _ (List.mem_append_left _ hentry))
  refine ⟨a, _, _, ?_, hpost⟩
  show Attempt.mk _ _ = _
  rw [ha]

end Staged

/-! ## What journals hold -/

/-- A call that was made, with its answer. -/
structure Made where
  call : Call
  answer : Except DriverError call.Answer

/-- The call of a line of a journal. -/
def Entry.made? : Entry → Option Made
  | .event _ | .cached _ => none
  | .call made answer => some ⟨made, answer⟩

namespace Task

/-- Whether every line that a task may leave in a journal has a property. -/
def Journals (P : Entry → Prop) (t : Task d α) : Prop :=
  ∀ w, ∀ entry ∈ (t.exec w).journal, P entry

variable {P : Entry → Prop} {t : Task d α} {f : α → Task d γ}

/-- Two tasks in a row write what the first one does, and what the second one does after it. -/
theorem forall_journal_bind {w : World σ} (ht : ∀ entry ∈ (t.exec w).journal, P entry)
    (hf : ∀ a, (t.exec w).value = .ok a →
      ∀ entry ∈ ((f a).exec (t.exec w).world).journal, P entry) :
    ∀ entry ∈ ((t >>= f).exec w).journal, P entry := by
  intro entry hentry
  rw [exec_bind] at hentry
  split at hentry
  · rename_i a ha
    rcases List.mem_append.1 hentry with hentry | hentry
    exacts [ht entry hentry, hf a ha entry hentry]
  · exact ht entry hentry

theorem Journals.bind (ht : t.Journals P) (hf : ∀ a, (f a).Journals P) : (t >>= f).Journals P :=
  fun w => forall_journal_bind (ht w) fun a _ => hf a _

theorem Journals.pure (a : α) : (pure a : Task d α).Journals P := by
  intro w entry hentry
  cases hentry

theorem Journals.ofExcept (result : Except MapperError α) :
    (ofExcept result : Task d α).Journals P := by
  intro w entry hentry
  cases hentry

theorem Journals.check (table origin : String) : (check table origin : Task d Bool).Journals P := by
  intro w entry hentry
  cases hentry

theorem Journals.lift {action : Action d α} (h : ∀ w, ∀ entry ∈ (action.run w).journal, P entry) :
    Journals P (ExceptT.lift action : Task d α) := by
  intro w entry hentry
  rw [exec_lift] at hentry
  exact h w entry hentry

theorem Journals.modifyCache {g : SchemaCache → SchemaCache} (h : ∀ cache, P (.cached cache)) :
    Journals P (ExceptT.lift (Action.modifyCache g) : Task d Unit) := by
  intro w entry hentry
  rcases List.mem_singleton.1 hentry with rfl
  exact h _

theorem Journals.report {e : Event} (h : P (.event e)) : (report e : Task d Unit).Journals P := by
  intro w entry hentry
  rcases List.mem_singleton.1 hentry with rfl
  exact h

theorem Journals.call {call : Call} (h : ∀ answer, P (.call call answer)) :
    (Task.call call : Task d call.Answer).Journals P := by
  intro w entry hentry
  rcases List.mem_singleton.1 hentry with rfl
  exact h _

/-- A task for every item of a list writes what each of them does. -/
theorem Journals.forM {γ : Type} {g : γ → Task d Unit} :
    {xs : List γ} → (∀ x ∈ xs, (g x).Journals P) → (xs.forM g).Journals P
  | [], _ => Journals.pure ()
  | x :: xs, h => by
      show (g x >>= fun _ => xs.forM g).Journals P
      exact .bind (h x List.mem_cons_self) fun _ =>
        Journals.forM fun y hy => h y (List.mem_cons_of_mem _ hy)

end Task

end EntityMapper
