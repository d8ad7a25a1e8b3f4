import EntityMapper.Proofs.Session.Stages
import EntityMapper.Proofs.Session.Transactions

/-!
# Laws of requests and programs

A law relates the world that a run starts from, its journal and the world that it leaves. Where it
is kept when one run follows another, and where reports of stages and all pieces of a request obey
it, the request obeys it (`Request.law`). Where the lines around the work of a transaction obey it
too, every program obeys it (`Program.law`).
-/

namespace EntityMapper

variable {n : Nat} {σ α β γ : Type} {d : Driver σ}

/-- A law that is kept when one run follows another, and that reports of stages obey. -/
structure JournalLaw (L : World σ → List Entry → World σ → Prop) : Prop where
  nil : ∀ w, L w [] w
  append : ∀ {w w' w'' journal later}, L w journal w' → L w' later w'' → L w (journal ++ later) w''
  stage : ∀ e : Event, e.IsStage → ∀ w, L w [.event e] w

variable {L : World σ → List Entry → World σ → Prop}

/-- A law of runs that asks nothing of the failure is such a law. -/
theorem RunLaw.journalLaw (h : RunLaw fun _ => L) : JournalLaw L where
  nil w := h.quiet none w []
  append := @h.append none
  stage e _ w := h.quiet none w [e]

/-- What is put together from pieces obeys such a law where the pieces do. -/
theorem JournalLaw.pieces (hL : JournalLaw L) (E : MapperError → Prop) : PieceLaw E fun _ => L :=
  ⟨hL.nil, fun _ _ => hL.nil, hL.append⟩

/-- What an operation reports at its end obeys such a law. -/
theorem JournalLaw.closing (hL : JournalLaw L) (operation : Operation) (entity : String)
    (left : Except MapperError α × Progress β) (w : World σ) :
    L w (Staged.closing operation entity left) w := by
  rw [Staged.closing]
  split
  · exact hL.stage (.advanced ..) trivial w
  · have hfailed := hL.stage (.failed operation entity left.2.stage ‹_›) trivial w
    exact hL.append hfailed (hL.stage (.advanced ..) trivial w)

/-! ## Operations -/

namespace Staged

/-- Whether every run of a step of an operation that finds the given storage obeys a law. -/
def Obeys (L : World σ → List Entry → World σ → Prop) (storage : β) (x : Staged d β α) : Prop :=
  ∀ p w, p.storage = storage → L w (x.exec p w).journal (x.exec p w).world

variable {t : Task d α} {f : α → Staged d β γ} {storage : β}

theorem Obeys.task (ht : t.Obeys fun _ => L) : (task t : Staged d β α).Obeys L storage := by
  intro p w _
  rw [exec_task]
  exact ht w

theorem Obeys.attempt {g : β → Action d (Attempt β α)}
    (hg : ∀ w, L w ((g storage).run w).journal ((g storage).run w).world) :
    (attempt g : Staged d β α).Obeys L storage := by
  rintro p w rfl
  rw [exec_attempt]
  exact hg w

/-- A step that is already known, and what follows where it succeeded. -/
theorem Obeys.ofExcept_bind (hL : JournalLaw L) {result : Except MapperError α}
    (hf : ∀ a, result = .ok a → (f a).Obeys L storage) :
    (Staged.ofExcept result >>= f : Staged d β γ).Obeys L storage := by
  intro p w hp
  rw [exec_bind, exec_ofExcept]
  cases result with
  | ok a => exact hf a rfl p w hp
  | error e => exact hL.nil w

/-- Entering a stage, and what follows. -/
theorem Obeys.advance_bind (hL : JournalLaw L) {target : Stage} {f : Unit → Staged d β γ}
    (hf : (f ()).Obeys L storage) :
    (Staged.advance target >>= f : Staged d β γ).Obeys L storage := by
  intro p w hp
  rw [exec_bind, exec_advance]
  exact hL.append (hL.stage (.advanced ..) trivial w) (hf _ w hp)

/-- A task, and what follows where it succeeded. -/
theorem Obeys.task_bind (hL : JournalLaw L) (ht : t.Obeys fun _ => L)
    (hf : ∀ a, (f a).Obeys L storage) :
    (Staged.task t >>= f : Staged d β γ).Obeys L storage := by
  intro p w hp
  rw [exec_bind, exec_task]
  cases hvalue : (t.exec w).value with
  | ok a => exact hL.append (ht w) (hf a p _ hp)
  | error e => exact ht w

/-- An operation adds nothing but reports of stages to its steps. -/
theorem Obeys.operate (hL : JournalLaw L) {operation : Operation} {entity : String}
    {x : Staged d β α} (hx : x.Obeys L storage) (w : World σ) :
    L w ((operate operation entity storage x).run w).journal
      ((operate operation entity storage x).run w).world := by
  rw [run_operate]
  have hbegan := hL.stage (.began operation entity) trivial w
  exact hL.append hbegan (hL.append (hx _ w rfl) (hL.closing operation entity _ _))

end Staged

/-! ## Requests -/

/-- Whether a piece may belong to a request. -/
def Request.Contains (q : Request) (piece : Piece) : Prop :=
  ∃ kind ∈ q.kinds, piece.Within q.models q.root kind fun _ => True

namespace Session

variable {c : Catalog n} {ms : Models n} {k : Fin n}

/-- Ensuring the tables of a model and its dependencies obeys a law of its pieces. -/
theorem ensureSchema_obeys (hL : JournalLaw L)
    (hpiece : ∀ piece : Piece, piece.Within ms k .ensuring (fun _ => True) →
      (piece.task d).Obeys fun _ => L)
    {dependencies : List (Fin n)} (h : ms.dependencies k = .ok dependencies) :
    (ensureSchema ms k dependencies : Task d Unit).Obeys fun _ => L :=
  (ensureSchema_assembled (fun _ _ _ _ => trivial) (Models.dependencies_mem_closure h)
    (.inl rfl)).law (hL.pieces _) hpiece

/-- Dropping the tables of a model and its dependencies obeys a law of its pieces. -/
theorem dropSchema_obeys (hL : JournalLaw L)
    (hpiece : ∀ piece : Piece, piece.Within ms k .dropping (fun _ => True) →
      (piece.task d).Obeys fun _ => L)
    {dependencies : List (Fin n)} (h : ms.dependencies k = .ok dependencies) :
    (dropSchema ms k dependencies : Task d Unit).Obeys fun _ => L :=
  (dropSchema_assembled (fun _ _ _ _ => trivial) (Models.dependencies_mem_closure h)
    (.inl rfl)).law (hL.pieces _) hpiece

/-- Creating or dropping, from what it does with the dependencies of the model. -/
theorem onSchema_obeys (hL : JournalLaw L) {operation : Operation} {stage : Stage}
    {work : List (Fin n) → Task d Unit}
    (hwork : ∀ dependencies, ms.dependencies k = .ok dependencies →
      (work dependencies).Obeys fun _ => L) (w : World σ) :
    let left := (do
      let left ← Staged.operate operation (ms.model k).name () do
        let dependencies ← Staged.ofExcept (ms.dependencies k)
        Staged.advance stage
        Staged.task (work dependencies)
      return left.result : Action d (Except MapperError Unit)).run w
    L w left.journal left.world := by
  rw [Action.run_bind, Action.run_pure, List.append_nil]
  refine Staged.Obeys.operate hL (.ofExcept_bind hL fun dependencies h => ?_) w
  exact .advance_bind hL (.task (hwork dependencies h))

/-- A prepared operation obeys a law of the pieces of its first steps and of its further work. -/
theorem prepared_obeys (hL : JournalLaw L) {operation : Operation} {r : Record c}
    {work : Bound c r.model → Staged d (Record c) Unit}
    (hpiece : ∀ piece : Piece, piece.Within c.toModels r.model .ensuring (fun _ => True) →
      (piece.task d).Obeys fun _ => L)
    (hwork : ∀ b, (work b).Obeys L r) (w : World σ) :
    L w ((prepared operation r work).run w).journal ((prepared operation r work).run w).world := by
  refine Staged.Obeys.operate hL (.ofExcept_bind hL fun (b, dependencies) h => ?_) w
  refine .advance_bind hL (.task_bind hL ?_ fun _ => .advance_bind hL (hwork b))
  exact ensureSchema_obeys hL hpiece (Record.introspect_eq_ok_iff.1 h).1

/-- What is left of a query once the tables are ensured obeys a law of its pieces. -/
theorem load_obeys (hL : JournalLaw L) {r : Record c}
    (hpiece : ∀ piece : Piece, piece.Within c.toModels r.model .onRows (fun _ => True) →
      (piece.task d).Obeys fun _ => L) (b : Bound c r.model) :
    (load r b : Staged d _ _).Obeys L r := by
  have hloads : ∀ piece : Piece, piece.Loads c.toModels r.model (fun _ => True) →
      (piece.task d).Obeys fun _ => L := fun piece h => hpiece piece h.1
  refine .task_bind hL ?_ fun row => .advance_bind hL (.attempt fun w => ?_)
  · exact (fetchRow_assembled .any (.inl rfl)).law (hL.pieces _) hloads
  · exact (Action.Assembled.wrap (loadRecord_assembled .any (.inl rfl) row)).law (hL.pieces _)
      hloads w

/-- Deleting a record obeys a law of its pieces. -/
theorem delete_obeys (hL : JournalLaw L) {r : Record c}
    (hpiece : ∀ piece : Piece, piece.Within c.toModels r.model .onRows (fun _ => True) →
      (piece.task d).Obeys fun _ => L) (w : World σ) :
    L w ((delete r : Action d _).run w).journal ((delete r : Action d _).run w).world := by
  refine Staged.Obeys.operate hL (.ofExcept_bind hL fun (b, _) _ => .advance_bind hL (.task ?_)) w
  exact (deleteRecord_assembled .any (.inl rfl)).law (hL.pieces _) hpiece

end Session

open Session in
/-- A law that is kept along runs and that all pieces of a request obey is obeyed by the request. -/
theorem Request.law (hL : JournalLaw L) (q : Request)
    (hpiece : ∀ piece, q.Contains piece → (piece.task d).Obeys fun _ => L) (w : World σ) :
    L w ((q.act d).run w).journal ((q.act d).run w).world := by
  have hwithin : ∀ kind ∈ q.kinds, ∀ piece : Piece,
      piece.Within q.models q.root kind (fun _ => True) → (piece.task d).Obeys fun _ => L :=
    fun kind hkind piece h => hpiece piece ⟨kind, hkind, h⟩
  cases q with
  | create ms k =>
      have hensuring := hwithin .ensuring (.head _)
      exact onSchema_obeys hL (fun _ h => ensureSchema_obeys hL hensuring h) w
  | drop ms k =>
      have hdropping := hwithin .dropping (.head _)
      exact onSchema_obeys hL (fun _ h => dropSchema_obeys hL hdropping h) w
  | insert r =>
      have hrows := hwithin .onRows (.tail _ (.head _))
      have hwork := (insertRecord_assembled (d := d) (r := r) .any .within).law (hL.pieces _) hrows
      exact prepared_obeys (r := r) hL (hwithin .ensuring (.head _)) (fun _ => .attempt hwork) w
  | @update n c r =>
      have hrows := hwithin .onRows (.tail _ (.head _))
      have hbase : ∀ j, (ColumnType.entity r.model).base? = some j → j ∈ c.closure r.model :=
        fun j hj => .inl (Option.some.inj hj).symm
      have hwork := (updateHeld_assembled (d := d) .any .within (.entity r.columns) hbase).law
        (hL.pieces _) hrows
      exact prepared_obeys (r := r) hL (hwithin .ensuring (.head _)) (fun _ => .task hwork) w
  | delete r => exact delete_obeys (r := r) hL (hwithin .onRows (.head _)) w
  | query r =>
      have hrows := hwithin .onRows (.tail _ (.head _))
      exact prepared_obeys (r := r) hL (hwithin .ensuring (.head _)) (load_obeys hL hrows) w

/-! ## Programs -/

/-- A law that the lines around the work of a transaction obey too. -/
structure ProgramLaw (d : Driver σ) (L : World σ → List Entry → World σ → Prop) : Prop
    extends JournalLaw L where
  bracket : ∀ call : Call, call.IsBracket → ∀ w,
    L w [.call call (d.step call w.driver).1] { w with driver := (d.step call w.driver).2 }
  undone : ∀ e w, L w [.event (.rollbackFailed e)] w

namespace ProgramLaw

variable {w w' : World σ} {journal : List Entry}

/-- A bracket, from how the driver answers it. -/
theorem step (hL : ProgramLaw d L) (call : Call) (hcall : call.IsBracket)
    {answer : Except DriverError call.Answer} {s : σ} (h : d.step call w.driver = (answer, s)) :
    L w [.call call answer] { w with driver := s } := by
  have hbracket := hL.bracket call hcall w
  rwa [h] at hbracket

/-- Undoing a transaction, from how the driver answers the rollback. -/
theorem rolledBack (hL : ProgramLaw d L) {undone : Except DriverError Unit} {s : σ}
    (h : d.step .rollback w.driver = (undone, s)) :
    L w (rolledBack undone) { w with driver := s } := by
  have hcall := hL.step .rollback trivial h
  cases undone with
  | ok u => exact hcall
  | error e => exact hL.append hcall (hL.undone e _)

/-- A transaction obeys the law of its work. -/
theorem transaction (hL : ProgramLaw d L) {storage : β} {work : Action d (Attempt β α)}
    {outcome : Outcome σ (Attempt β α)} (h : TransactionRun d storage work w outcome)
    (hwork : ∀ w, L w (work.run w).journal (work.run w).world) :
    L w outcome.journal outcome.world := by
  have hinside : ∀ {w left}, work.run w = left → L w left.journal left.world :=
    fun hleft => hleft ▸ hwork _
  have hbegun : ∀ {answer s}, d.step .begin w.driver = (answer, s) →
      L w [.call .begin answer] { w with driver := s } :=
    fun h => hL.step .begin trivial h
  cases h with
  | refused hbegin => exact hbegun hbegin
  | committed hbegin hleft hcommit =>
      have hend := hL.step .commit trivial hcommit
      exact hL.append (hbegun hbegin) (hL.append (hinside hleft) hend)
  | uncommitted hbegin hleft hcommit hundo =>
      have hend := hL.append (hL.step .commit trivial hcommit)
        (hL.rolledBack (w := ⟨_, _⟩) hundo)
      exact hL.append (hbegun hbegin) (hL.append (hinside hleft) hend)
  | failed hbegin hleft hundo =>
      exact hL.append (hbegun hbegin) (hL.append (hinside hleft) (hL.rolledBack hundo))

end ProgramLaw

/-- What every request has, every request of a program has. -/
theorem Program.every_of_forall {P : Request → Prop} (h : ∀ q, P q) (p : Program α) :
    p.Every P := by
  induction p with
  | done a => exact trivial
  | request q next ih => exact ⟨h q, ih⟩
  | transaction storage body next ihbody ihnext => exact ⟨ihbody, ihnext⟩

/-- A law that every request of a program obeys is obeyed by the program. -/
theorem Program.law (hL : ProgramLaw d L) {P : Request → Prop}
    (hrequest : ∀ q, P q → ∀ w, L w ((q.act d).run w).journal ((q.act d).run w).world)
    {p : Program α} (h : p.Every P) (w : World σ) :
    L w ((p.act d).run w).journal ((p.act d).run w).world := by
  induction p generalizing w with
  | done a => exact hL.nil w
  | request q next ih => exact hL.append (hrequest q h.1 w) (ih _ (h.2 _) _)
  | transaction storage body next ihbody ihnext =>
      have htransaction := hL.transaction
        (Session.transaction_run storage (fun _ => body.act d) w) (ihbody h.1)
      exact hL.append htransaction (ihnext _ (h.2 _) _)

end EntityMapper
