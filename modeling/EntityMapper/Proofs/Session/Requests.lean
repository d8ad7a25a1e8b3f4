import EntityMapper.Proofs.Session.Composition

/-!
# Requests

A session is asked to create, drop, insert, update, delete or query. Each request is made of jobs
of the kinds it may do, all for models of its closure (`Request.composed`).
-/

namespace EntityMapper

variable {n : Nat} {σ : Type} {d : Driver σ}

/-- Every dependency of a model belongs to the model's closure. -/
theorem Models.dependencies_mem_closure {ms : Models n} {k : Fin n} {dependencies : List (Fin n)}
    (h : ms.dependencies k = .ok dependencies) : ∀ j ∈ dependencies, j ∈ ms.closure k := by
  obtain ⟨ts, found, hts, hfound, hperm⟩ := dependencies_ok h
  intro j hj
  obtain ⟨i, hi, hij⟩ := hfound.reached j (hperm.mem_iff.1 hj)
  obtain ⟨i', hi', heq⟩ := List.mem_map.1 hi
  cases heq
  exact .inr (.head' ((mem_targets_iff hts).1 hi') hij)

/-- The models of a closure that was found can be described. -/
theorem Models.dependencies_described {ms : Models n} {k : Fin n} {deps : List (Fin n)}
    (h : ms.dependencies k = .ok deps) :
    ∀ j ∈ k :: deps, ∃ ds, (ms.model j).describe = .ok ds := by
  obtain ⟨ts, found, hts, hfound, hperm⟩ := dependencies_ok h
  intro j hj
  refine targets_ok_iff.1 ?_
  rcases List.mem_cons.1 ((hperm.cons k).mem_iff.1 hj) with rfl | hj
  · exact ⟨ts, hts⟩
  · exact hfound.described j hj

/-- The models of a closure that was found declare relations that can be listed. -/
theorem Models.dependencies_relations {ms : Models n} {k : Fin n} {deps : List (Fin n)}
    (h : ms.dependencies k = .ok deps) : ∀ j ∈ k :: deps, ∃ rs, ms.relations j = .ok rs := by
  intro j hj
  obtain ⟨ds, hds⟩ := dependencies_described h j hj
  exact ⟨_, bind_eq_ok.2 ⟨ds, hds, rfl⟩⟩

/-- The dependencies of a record that was introspected belong to the closure of its model. -/
theorem Record.introspect_mem_closure {c : Catalog n} {r : Record c} {b : Bound c r.model}
    {dependencies : List (Fin n)} (h : r.introspect = .ok (b, dependencies)) :
    ∀ j ∈ dependencies, j ∈ c.closure r.model :=
  Models.dependencies_mem_closure (Record.introspect_eq_ok_iff.1 h).1

/-- What a session may be asked for. -/
inductive Request
  | create {n : Nat} (ms : Models n) (k : Fin n)
  | drop {n : Nat} (ms : Models n) (k : Fin n)
  | insert {n : Nat} {c : Catalog n} (r : Record c)
  | update {n : Nat} {c : Catalog n} (r : Record c)
  | delete {n : Nat} {c : Catalog n} (r : Record c)
  | query {n : Nat} {c : Catalog n} (r : Record c)

namespace Request

/-- What a request answers: a result, with the record as it is left where there is one. -/
def Answer : Request → Type
  | .create .. | .drop .. => Except MapperError Unit
  | .insert (c := c) _ | .update (c := c) _ | .delete (c := c) _ | .query (c := c) _ =>
      Attempt (Record c) Unit

/-- How a session meets a request. -/
def act (d : Driver σ) : (q : Request) → Action d q.Answer
  | .create ms k => (Session.create ms k).run
  | .drop ms k => (Session.drop ms k).run
  | .insert r => Session.insert r
  | .update r => Session.update r
  | .delete r => Session.delete r
  | .query r => Session.query r

/-- The error of an answer. -/
def failure? : (q : Request) → q.Answer → Option MapperError
  | .create .., result | .drop .., result => EntityMapper.failure? result
  | .insert _, left | .update _, left | .delete _, left | .query _, left => left.failure?

/-- The number of models that a request is about. -/
def size : Request → Nat
  | .create (n := n) .. | .drop (n := n) .. | .insert (n := n) _ | .update (n := n) _
  | .delete (n := n) _ | .query (n := n) _ => n

/-- The models that a request is about. -/
def models : (q : Request) → Models q.size
  | .create ms _ | .drop ms _ => ms
  | .insert (c := c) _ | .update (c := c) _ | .delete (c := c) _ | .query (c := c) _ => c.toModels

/-- The model that a request is for. -/
def root : (q : Request) → Fin q.size
  | .create _ k | .drop _ k => k
  | .insert r | .update r | .delete r | .query r => r.model

/-- The kinds of jobs that a request may do. -/
def kinds : Request → List Job.Kind
  | .create .. => [.ensuring]
  | .drop .. => [.dropping]
  | .insert _ | .update _ | .query _ => [.ensuring, .onRows]
  | .delete _ => [.onRows]

/-- Whether a request drops tables. -/
def IsDrop (q : Request) : Prop := .dropping ∈ q.kinds

/-- Whether a job may belong to a request. -/
def Permits (q : Request) (job : Job) : Prop :=
  ∃ kind ∈ q.kinds, job.Within q.models q.root kind

end Request

namespace Session

variable {c : Catalog n} {k : Fin n} {P : Job → Prop}

/-- An operation on a record that introspects it, ensures the tables of its closure and goes on. -/
def prepared (operation : Operation) (r : Record c)
    (work : Bound c r.model → Staged d (Record c) Unit) : Action d (Attempt (Record c) Unit) :=
  Staged.operate operation (c.model r.model).name r do
    let (b, dependencies) ← Staged.ofExcept r.introspect
    Staged.advance .schemaEnsuring
    Staged.task (ensureSchema c r.model dependencies)
    Staged.advance .executing
    work b

/-- What a prepared operation leads to. Each of its first two steps may fail, and the record is left
as it is then; after them the record is what the further work makes of it. -/
inductive PreparedRun (d : Driver σ) (operation : Operation) (r : Record c)
    (work : Bound c r.model → Staged d (Record c) Unit) (w : World σ) :
    Outcome σ (Attempt (Record c) Unit) → Prop
  | refused {e : MapperError} (hintrospect : r.introspect = .error e) :
      PreparedRun d operation r work w
        ⟨⟨r, .error e⟩, w, reports [.began operation (c.model r.model).name,
          .failed operation (c.model r.model).name .introspecting e,
          .advanced operation (c.model r.model).name .introspecting .failed]⟩
  | unensured {deps : List (Fin n)} {e : MapperError} {w' : World σ} {journal : List Entry}
      (hdeps : c.dependencies r.model = .ok deps)
      (hensure : (ensureSchema (d := d) c r.model deps).exec w = ⟨.error e, w', journal⟩) :
      PreparedRun d operation r work w
        ⟨⟨r, .error e⟩, w', reports [.began operation (c.model r.model).name,
          .advanced operation (c.model r.model).name .introspecting .schemaEnsuring] ++
            (journal ++ reports [.failed operation (c.model r.model).name .schemaEnsuring e,
              .advanced operation (c.model r.model).name .schemaEnsuring .failed])⟩
  | worked {b : Bound c r.model} {deps : List (Fin n)} {w' : World σ} {journal : List Entry}
      {left : Outcome σ (Except MapperError Unit × Progress (Record c))}
      (hbind : r.columns.bind = .ok b) (hdeps : c.dependencies r.model = .ok deps)
      (hensure : (ensureSchema (d := d) c r.model deps).exec w = ⟨.ok (), w', journal⟩)
      (hwork : (work b).exec ⟨operation, (c.model r.model).name, .executing, r⟩ w' = left) :
      PreparedRun d operation r work w
        ⟨⟨left.value.2.storage, left.value.1⟩, left.world,
          reports [.began operation (c.model r.model).name,
            .advanced operation (c.model r.model).name .introspecting .schemaEnsuring] ++
            (journal ++ (reports [.advanced operation (c.model r.model).name .schemaEnsuring
              .executing] ++ (left.journal ++
                Staged.closing operation (c.model r.model).name left.value)))⟩

/-- A prepared operation leads to nothing else. -/
theorem prepared_run (operation : Operation) (r : Record c)
    (work : Bound c r.model → Staged d (Record c) Unit) (w : World σ) :
    PreparedRun d operation r work w ((prepared operation r work).run w) := by
  rw [prepared, Staged.run_operate]
  cases hintrospect : r.introspect with
  | error e => exact .refused hintrospect
  | ok described =>
      obtain ⟨b, deps⟩ := described
      obtain ⟨hdeps, hbind⟩ := Record.introspect_eq_ok_iff.1 hintrospect
      rcases hensure : (ensureSchema (d := d) c r.model deps).exec w with ⟨value, w', journal⟩
      simp only [Staged.exec_bind, Staged.exec_ofExcept, Staged.exec_advance, Staged.exec_task,
        hensure, List.nil_append, List.cons_append]
      cases value with
      | error e => exact .unensured hdeps hensure
      | ok u =>
          dsimp only
          rw [List.append_assoc]
          exact .worked hbind hdeps hensure rfl

/-- An insertion is prepared like an update and a query, and then inserts its record. -/
theorem insert_eq (r : Record c) :
    insert (d := d) r = prepared .insert r fun _ => Staged.attempt insertRecord := rfl

theorem update_eq (r : Record c) :
    update (d := d) r = prepared .update r fun _ =>
      Staged.task (updateHeld (.entity r.columns : Cell c (.entity r.model))) := rfl

/-- What is left of a query once the tables are ensured. -/
def load (r : Record c) (b : Bound c r.model) : Staged d (Record c) Unit := do
  let row ← Staged.task (fetchRow b)
  Staged.advance .hydrating
  Staged.attempt fun _ => do
    let left ← loadRecord b row
    return ⟨⟨r.model, left.storage⟩, left.result⟩

theorem query_eq (r : Record c) : query (d := d) r = prepared .query r (load r) := rfl

/-- Inserting a whole record is assembled from what inserting its contents is. -/
theorem insertRecord_assembled {P : Piece → Prop} {E : MapperError → Prop} {r : Record c}
    (hE : RowFaults c r.model E) (hP : RowPieces c r.model P) :
    (insertRecord r : Action d _).Assembled P E Attempt.failure? := by
  have hbase : ∀ j, (ColumnType.entity r.model).base? = some j → j ∈ c.closure r.model :=
    fun j hj => .inl (Option.some.inj hj).symm
  refine .attempt (insertHeld_assembled hE hP (.entity r.columns) hbase) (fun x _ => ?_)
    fun x e => ?_
  · cases x with
    | entity columns => exact .reached
  · cases x with
    | entity columns => exact ⟨_, rfl⟩

theorem insertRecord_composed (r : Record c) :
    (insertRecord r : Action d _).Composed (Job.Within c r.model .onRows) Attempt.failure? :=
  (insertRecord_assembled .any (.within (E := fun _ => True))).composed fun _ h _ => h.job

/-- Once the tables are ensured, a query does jobs on the rows of the closure alone. -/
theorem load_composed (r : Record c) (b : Bound c r.model) :
    (load r b : Staged d _ _).Composed (Job.Within c r.model .onRows) r :=
  .task_bind (fetchRow_composed (.inl rfl)) fun row =>
    .advance_bind (.attempt (.wrap (loadRecord_composed (.inl rfl) row)))

/-- A prepared operation ensures the tables of the closure and then does jobs on its rows. -/
theorem prepared_composed {operation : Operation} {r : Record c}
    {work : Bound c r.model → Staged d (Record c) Unit}
    (hschema : ∀ job, job.Within c r.model .ensuring → P job)
    (hrows : ∀ job, job.Within c r.model .onRows → P job)
    (hwork : ∀ b, (work b).Composed (Job.Within c r.model .onRows) r) :
    (prepared operation r work).Composed P Attempt.failure? := by
  refine Staged.Composed.operate _ _ (.ofExcept_bind fun (b, dependencies) h => ?_)
  refine .advance_bind (.task_bind ?_ fun _ => .advance_bind ((hwork b).mono hrows))
  exact (ensureSchema_composed (Record.introspect_mem_closure h) (.inl rfl)).mono hschema

/-- Creating or dropping, from what it does with the dependencies of the model. -/
theorem onSchema_composed {operation : Operation} {ms : Models n} {k : Fin n} {stage : Stage}
    {work : List (Fin n) → Task d Unit}
    (hwork : ∀ dependencies, ms.dependencies k = .ok dependencies →
      (work dependencies).Composed P) :
    Action.Composed P failure? (do
      let left ← Staged.operate operation (ms.model k).name () do
        let dependencies ← Staged.ofExcept (ms.dependencies k)
        Staged.advance stage
        Staged.task (work dependencies)
      return left.result : Action d (Except MapperError Unit)) := by
  refine .bind (Staged.Composed.operate _ _ (.ofExcept_bind fun dependencies h => ?_))
    (fun _ _ => .done _ _) fun left _ hfailed => ⟨left.result, [], hfailed, fun _ => rfl⟩
  exact .advance_bind (.task (hwork dependencies h))

/-- Creating ensures tables of the closure and does nothing else. -/
theorem create_composed {ms : Models n} (h : ∀ job, job.Within ms k .ensuring → P job) :
    (create ms k : Task d Unit).Composed P :=
  onSchema_composed fun _ hdependencies =>
    (ensureSchema_composed (Models.dependencies_mem_closure hdependencies) (.inl rfl)).mono h

/-- Dropping drops tables of the closure and does nothing else. -/
theorem drop_composed {ms : Models n} (h : ∀ job, job.Within ms k .dropping → P job) :
    (drop ms k : Task d Unit).Composed P :=
  onSchema_composed fun _ hdependencies =>
    (dropSchema_composed (Models.dependencies_mem_closure hdependencies) (.inl rfl)).mono h

section Records

variable {r : Record c} (hschema : ∀ job, job.Within c r.model .ensuring → P job)
  (hrows : ∀ job, job.Within c r.model .onRows → P job)

include hschema hrows

theorem insert_composed : (insert r : Action d _).Composed P Attempt.failure? := by
  rw [insert_eq]
  exact prepared_composed hschema hrows fun _ => .attempt (insertRecord_composed r)

theorem update_composed : (update r : Action d _).Composed P Attempt.failure? := by
  rw [update_eq]
  refine prepared_composed hschema hrows fun _ => .task (updateHeld_composed _ ?_)
  exact fun j hj => .inl (Option.some.inj hj).symm

theorem query_composed : (query r : Action d _).Composed P Attempt.failure? := by
  rw [query_eq]
  exact prepared_composed hschema hrows (load_composed r)

omit hschema in
/-- A deletion is not prepared: it does jobs on rows alone. -/
theorem delete_composed : (delete r : Action d _).Composed P Attempt.failure? := by
  refine Staged.Composed.operate _ _ (.ofExcept_bind fun (b, _) _ => ?_)
  exact .advance_bind (.task ((deleteRecord_composed (.inl rfl)).mono hrows))

end Records

end Session

/-- A request is made of jobs of its kinds that serve models of its closure. -/
theorem Request.composed (q : Request) : (q.act d).Composed q.Permits q.failure? := by
  have hwithin : ∀ kind ∈ q.kinds, ∀ job, job.Within q.models q.root kind → q.Permits job :=
    fun kind hkind job h => ⟨kind, hkind, h⟩
  cases q with
  | create ms k => exact Session.create_composed (hwithin .ensuring (.head _))
  | drop ms k => exact Session.drop_composed (hwithin .dropping (.head _))
  | insert r =>
      exact Session.insert_composed (hwithin .ensuring (.head _))
        (hwithin .onRows (.tail _ (.head _)))
  | update r =>
      exact Session.update_composed (hwithin .ensuring (.head _))
        (hwithin .onRows (.tail _ (.head _)))
  | delete r => exact Session.delete_composed (hwithin .onRows (.head _))
  | query r =>
      exact Session.query_composed (hwithin .ensuring (.head _))
        (hwithin .onRows (.tail _ (.head _)))

/-- The calls of a request suit its kinds of jobs and are made on behalf of its models. -/
theorem Request.suited (q : Request) (w : World σ) :
    Calls (fun call => ∃ kind ∈ q.kinds, call.Suits kind ∧
      ∃ j ∈ q.models.closure q.root, call.Serves q.models j) ((q.act d).run w).journal := by
  refine q.composed.law (Calls.runLaw _) (fun job hjob w call answer hcall => ?_) w
  obtain ⟨kind, hkind, hwithin⟩ := hjob
  exact ⟨kind, hkind, hwithin.calls hcall⟩

end EntityMapper
