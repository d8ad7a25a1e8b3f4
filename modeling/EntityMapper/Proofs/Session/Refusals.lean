import EntityMapper.Proofs.Session.Dropping
import EntityMapper.Proofs.Session.Ownership
import EntityMapper.Proofs.Storage.Exact

/-!
# When models are refused

Introspection looks at the description of every model of a closure and at the tables of the models.
Whether a model has a column to store, whether each of its columns has a type, and whether the name
of a link table is taken, is only seen when the tables are ensured, one after the other. Where
nothing of this kind is wrong (`Models.Deployable`), no job of an operation blames a model, so an
error that does was found by introspection, before any call (`Request.refuses_first`). Otherwise a
model may be refused once tables that it needs are already created (`owners_refused_late`).
-/

namespace EntityMapper

open Sql

variable {n : Nat} {c : Catalog n} {σ α : Type} {d : Driver σ} {ms : Models n} {k root : Fin n}

/-- Whether nothing is wrong with the models of a closure that introspection does not look at: the
types are told apart, the models are storable and offer all that they declare, and the table of a
relation's links belongs to no other type than the relation's owner. -/
structure Models.Deployable (ms : Models n) (root : Fin n) : Prop where
  apart : Set.InjOn ms.identity (ms.closure root)
  storable : ∀ j ∈ ms.closure root, (ms.model j).IsStorable
  offers : ∀ j ∈ ms.closure root, (ms.model j).offeredCount = (ms.model j).fields.length
  links : ∀ i ∈ ms.closure root, ∀ rs, ms.relations i = .ok rs → ∀ r ∈ rs,
    ∀ j ∈ ms.closure root, ms.Owns j (ms.linkTable r) → (ms.model j).origin = (ms.model i).origin

/-! ## What introspection has seen -/

namespace Models

variable {deps : List (Fin n)}

/-- No two models of a closure that was found have one table. -/
theorem dependencies_tables (h : ms.dependencies k = .ok deps) {i j : Fin n}
    (hi : i ∈ deps ++ [k]) (hj : j ∈ deps ++ [k])
    (htable : (ms.model i).table = (ms.model j).table) : i = j := by
  obtain ⟨ts, found, -, hfound, hperm⟩ := dependencies_ok h
  have hother : ∀ i ∈ found, (ms.model i).table ≠ (ms.model k).table := by
    intro i hi heq
    have hfree := hfound.free i hi
    rw [ownClaim, KeyMap.get?_insert, if_pos heq] at hfree
    cases hfree
  have hnodup : ((found ++ [k]).map fun j => (ms.model j).table).Nodup := by
    rw [List.map_append, List.nodup_append']
    refine ⟨hfound.tables_nodup, List.nodup_singleton _, ?_⟩
    rintro table htable hk
    obtain ⟨i, hi, rfl⟩ := List.mem_map.1 htable
    exact hother i hi (List.mem_singleton.1 hk)
  have hmem : ∀ i, i ∈ deps ++ [k] → i ∈ found ++ [k] := fun i => (hperm.append_right [k]).mem_iff.1
  exact List.inj_on_of_nodup_map hnodup (hmem i hi) (hmem j hj) htable

variable (hms : ms.Deployable root) (hdeps : ms.dependencies root = .ok deps)

include hms hdeps

/-- Every model of a deployable closure that was found is described. -/
theorem Deployable.described {j : Fin n} (hj : j ∈ ms.closure root) :
    ∃ ds, (ms.model j).describe = .ok ds := by
  refine dependencies_described hdeps j ?_
  have := Session.mem_listed hms.apart hdeps hj
  simpa [or_comm] using this

/-- A table of a deployable closure that was found belongs to one type. -/
theorem Deployable.origin_eq {i j : Fin n} (hi : i ∈ ms.closure root) (hj : j ∈ ms.closure root)
    {table : String} (howns : ms.Owns i table) (howns' : ms.Owns j table) :
    (ms.model i).origin = (ms.model j).origin := by
  cases howns with
  | links hrs hr => exact (hms.links i hi _ hrs _ hr j hj howns').symm
  | table =>
      generalize htable : (ms.model i).table = table at howns'
      cases howns' with
      | table =>
          exact congrArg _ (congrArg _ (dependencies_tables hdeps
            (Session.mem_listed hms.apart hdeps hi) (Session.mem_listed hms.apart hdeps hj) htable))
      | links hrs hr => exact hms.links j hj _ hrs _ hr i hi (htable ▸ .table)

end Models

/-! ## What can go wrong in the work on rows -/

/-- An update has something to set where a column has been assigned to. -/
theorem Bound.assignments_ne_nil {b : Bound c k} (h : (c.model k).IsStorable)
    {as : List Assignment} (has : assignments b.updatable = .ok as)
    (hset : b.updatable.any (!·.isNil)) : as ≠ [] := by
  obtain ⟨f, hf, hisNil⟩ := List.any_eq_true.1 hset
  have hstored : f ∈ b.stored := (List.mem_filter.1 hf).1
  obtain ⟨hfield, hcolumn⟩ := List.mem_filter.1 hstored
  obtain ⟨g, hg, hdescribes⟩ := EntityModel.describes_of_mem b.described (b.descriptor_mem hfield)
  have htyped : (SqlType.ofKind? f.descriptor.type.kind).isSome := by
    rw [hdescribes.type_eq]
    exact h.typed g hg (by simpa [Descriptor.isColumn, hdescribes.type_eq] using hcolumn)
  have hvalue : f.value.isNil = false := by
    rw [← isNil_of_sqlType hfield htyped]
    simpa using hisNil
  rintro rfl
  have hcolumns := assignments_columns has
  have hmem : f.column ∈ (b.updatable.filter (!·.value.isNil)).map (·.column) :=
    List.mem_map_of_mem (List.mem_filter.2 ⟨hf, by simp [hvalue]⟩)
  rw [← hcolumns] at hmem
  cases hmem

/-- The work on the rows of a deployable closure blames no model. -/
theorem RowFaults.of_deployable (hms : c.toModels.Deployable root) {deps : List (Fin n)}
    (hdeps : c.dependencies root = .ok deps) : RowFaults c root fun e => ¬ e.BlamesModel where
  unbound j hj columns e he := by
    obtain ⟨ds, hds⟩ := hms.described hdeps hj
    have hlength : (c.model j).offeredCount = ds.length := by
      rw [hms.offers j hj, (EntityModel.describe_forall₂ hds).length_eq]
    have hbind : columns.bind = .ok ⟨columns, ds, hds⟩ := Columns.bind_eq_ok_iff.2 ⟨rfl, hlength⟩
    rw [hbind] at he
    cases he
  unset j hj b e hset he :=
    b.updateRow_blameless (fun as has => b.assignments_ne_nil (hms.storable j hj) has hset) e he
  blameless e he := he

/-! ## Jobs that blame no model -/

/-- A failed call blames no model. -/
theorem Blameless.driver (x : Except DriverError α) : Blameless (x.mapError .driver) := by
  cases x with
  | ok a => exact ok a
  | error e => exact error (by simp [MapperError.BlamesModel, MapperError.errorClass])

/-- Two tasks in a row blame no model if neither does. -/
theorem Blameless.task_bind {β : Type} {t : Task d α} {f : α → Task d β} {w : World σ}
    (ht : Blameless (t.exec w).value) (hf : ∀ a w', Blameless ((f a).exec w').value) :
    Blameless ((t >>= f).exec w).value := by
  rw [Task.exec_bind]
  split
  · exact hf _ _
  · rename_i e he
    exact .error (ht e he)

/-- That a run does not fail with an error that blames a model is a law of runs. -/
theorem blamelessLaw : PieceLaw (fun e => ¬ e.BlamesModel)
    fun failure (_ : World σ) _ _ => ∀ e, failure = some e → ¬ e.BlamesModel where
  nil _ _ h := nomatch h
  fail _ he _ _ h := Option.some.inj h ▸ he
  append _ hlater := hlater

/-- A job on rows blames no model. -/
theorem Job.rows_blameless {job : Job} {s : Statement} (h : job.rows? = some s) (w : World σ) :
    Blameless ((job.task d).exec w).value := by
  have hreported : ∀ (e : Event) (call : Call),
      Blameless
        ((Task.report e >>= fun _ => Task.call call : Task d call.Answer).exec w).value := by
    intro e call
    rw [Task.exec_reported e rfl]
    exact .driver _
  have hfetch : ∀ {γ : Type} (scan : Action d (Except DriverError γ)),
      Blameless ((Session.fetch s scan : Task d γ).exec w).value := by
    intro γ scan
    have hrun := Session.fetch_run s scan w
    generalize (Session.fetch s scan : Task d γ).exec w = outcome at hrun ⊢
    cases hrun with
    | @refused e => exact .driver (.error e)
    | scanned => exact .driver _
  cases job with
  | ensure | drop => cases h
  | insert | update | delete => exact hreported _ _
  | fetchRow | fetchColumn =>
      cases h
      exact hfetch _

/-- A piece of the work on rows blames no model. -/
theorem Piece.Within.rows_blameless {E : MapperError → Prop} {piece : Piece}
    (h : piece.Within ms root .onRows E) (w : World σ) :
    Blameless ((piece.task d).exec w).value := by
  cases piece with
  | report e => exact .ok ()
  | job job =>
      obtain ⟨s, hs⟩ := Job.exists_rows h.1.kind_eq
      exact job.rows_blameless hs w
  | counted table s =>
      have hcount : ∀ (affected : UInt64) (w' : World σ), Blameless ((if affected != 1
          then Task.report (.unexpectedCount table affected) else pure () : Task d Unit).exec
            w').value := by
        intro affected w'
        split
        exacts [.ok (), .ok ()]
      exact .task_bind ((Job.update s).rows_blameless rfl w) hcount

/-- Whether no witness of a cache keeps a model of a closure from a table that it owns. -/
def SchemaCache.RespectsAll (cache : SchemaCache) (ms : Models n) (root : Fin n) : Prop :=
  ∀ j ∈ ms.closure root, cache.Respects ms j

/-- A piece that ensures a table of a deployable closure blames no model, and keeps the cache from
keeping one of them from its tables. -/
theorem Piece.Within.ensuring_blameless (hms : ms.Deployable root) {deps : List (Fin n)}
    (hdeps : ms.dependencies root = .ok deps) {piece : Piece}
    (h : piece.Within ms root .ensuring fun e => ¬ e.BlamesModel) {w : World σ}
    (hw : w.cache.RespectsAll ms root) :
    ((piece.task d).exec w).world.cache.RespectsAll ms root ∧
      Blameless ((piece.task d).exec w).value := by
  cases piece with
  | report e => exact ⟨hw, .ok ()⟩
  | counted table s => cases h.1.kind_eq
  | job job =>
      obtain ⟨⟨hkind, j, hj, hserves⟩, hworded⟩ := h
      cases job with
      | drop | insert | update | delete | fetchRow | fetchColumn => cases hkind
      | ensure witness creating definition =>
          obtain ⟨howns, horigin, -⟩ := hserves
          have hput : (w.cache.put witness).RespectsAll ms root := by
            intro i hi table howns' held hheld
            rw [SchemaCache.fetch_put] at hheld
            split at hheld
            · rename_i htable
              obtain rfl := Option.some.inj hheld
              exact horigin.trans (hms.origin_eq hdeps hj hi howns (htable ▸ howns'))
            · exact hw i hi table howns' held hheld
          have hdriver : ∀ e : DriverError, Blameless (.error (.driver e) : Except _ Unit) :=
            fun e => .driver (.error e)
          suffices h : ∀ outcome, EnsureRun d witness creating definition w outcome →
              outcome.world.cache.RespectsAll ms root ∧ Blameless outcome.value from
            h _ (Session.ensure_run witness creating definition w)
          intro outcome hrun
          cases hrun with
          | known => exact ⟨hw, .ok ()⟩
          | foreign hheld hforeign =>
              exact absurd ((hw j hj _ howns _ hheld).trans horigin.symm) hforeign
          | unchecked | uncreated => exact ⟨hw, hdriver _⟩
          | undefined _ _ hdefinition => exact ⟨hw, .error (hworded.2 _ hdefinition)⟩
          | found | created => exact ⟨hput, .ok ()⟩

/-! ## Operations -/

/-- What is put together from pieces that blame no model blames no model. -/
theorem Action.Assembled.blameless {P : Piece → Prop} {failure : α → Option MapperError}
    {action : Action d α} (h : action.Assembled P (fun e => ¬ e.BlamesModel) failure)
    (hpiece : ∀ piece, P piece → ∀ w, Blameless ((piece.task d).exec w).value) (w : World σ) :
    ∀ e, failure (action.run w).value = some e → ¬ e.BlamesModel :=
  h.law blamelessLaw (fun piece hp w e he => hpiece piece hp w e (eq_error_of_failure? he)) w

/-- That the cache stays away from the tables of a closure, and no model is blamed, is a law of
runs. -/
theorem respectingLaw (ms : Models n) (root : Fin n) : PieceLaw (fun e => ¬ e.BlamesModel)
    fun failure (w : World σ) _ w' => w.cache.RespectsAll ms root →
      w'.cache.RespectsAll ms root ∧ ∀ e, failure = some e → ¬ e.BlamesModel where
  nil _ hw := ⟨hw, fun _ h => nomatch h⟩
  fail _ he _ hw := ⟨hw, fun _ h => Option.some.inj h ▸ he⟩
  append h hlater hw := hlater (h hw).1

namespace Session

section Deployable

variable {deps : List (Fin n)} {w : World σ}

/-- Ensuring the tables of a deployable closure blames no model. -/
theorem ensureSchema_blameless (hms : ms.Deployable root) (hdeps : ms.dependencies root = .ok deps)
    (hw : w.cache.RespectsAll ms root) :
    Blameless ((ensureSchema ms root deps : Task d Unit).exec w).value := by
  have hdefined : ∀ j ∈ ms.closure root, ∀ e, ms.createTable j = .error e → ¬ e.BlamesModel := by
    intro j hj e he
    obtain ⟨ds, hds⟩ := hms.described hdeps hj
    obtain ⟨s, hs⟩ := Models.createTable_of_storable (hms.storable j hj) hds
    rw [hs] at he
    cases he
  have hall := (ensureSchema_assembled (d := d) hdefined (Models.dependencies_mem_closure hdeps)
    (.inl rfl)).law (respectingLaw ms root) (fun piece hpiece w hw => by
      obtain ⟨hkept, hblameless⟩ := hpiece.ensuring_blameless (d := d) hms hdeps hw
      exact ⟨hkept, fun e he => hblameless e (eq_error_of_failure? he)⟩) w hw
  exact fun e he => hall.2 e (by rw [he]; rfl)

/-- A creation that blames a model makes no call. -/
theorem create_refuses (hms : ms.Deployable k) (hw : w.cache.RespectsAll ms k) {e : MapperError}
    (he : ((create ms k : Task d Unit).exec w).value = .error e) (hblames : e.BlamesModel) :
    Calls (fun _ => False) ((create ms k : Task d Unit).exec w).journal := by
  cases hdeps : ms.dependencies k with
  | ok deps =>
      rw [(create_outcome hdeps w).1] at he
      exact absurd hblames (ensureSchema_blameless hms hdeps hw e he)
  | error e' =>
      obtain ⟨events, hexec⟩ :=
        onSchema_refused .create .schemaEnsuring (ensureSchema (d := d) ms k) hdeps w
      rw [create, hexec]
      exact .quiet events

end Deployable

section Records

variable {r : Record c} {deps : List (Fin n)} {w : World σ}

/-- A prepared operation that blames a model makes no call, if its further work blames none. -/
theorem prepared_refuses {operation : Operation} {work : Bound c r.model → Staged d (Record c) Unit}
    (hms : c.toModels.Deployable r.model) (hw : w.cache.RespectsAll c.toModels r.model)
    (hwork : ∀ deps, c.dependencies r.model = .ok deps → ∀ b p w, p.storage = r →
      Blameless ((work b).exec p w).value.1) {e : MapperError}
    (he : ((prepared operation r work).run w).value.result = .error e) (hblames : e.BlamesModel) :
    Calls (fun _ => False) ((prepared operation r work).run w).journal := by
  have hrun := prepared_run (d := d) operation r work w
  generalize (prepared operation r work).run w = outcome at hrun he ⊢
  cases hrun with
  | refused => exact .quiet _
  -- Neither the tables nor the rows are what the model is blamed for.
  | unensured hdeps hensure =>
      cases he
      exact absurd hblames (ensureSchema_blameless (d := d) hms hdeps hw _ (by rw [hensure]))
  | worked _ hdeps _ hleft =>
      subst hleft
      exact absurd hblames (hwork _ hdeps _ _ _ rfl e he)

variable {b : Bound c r.model} {p : Progress (Record c)}
  (hfaults : RowFaults c r.model fun e => ¬ e.BlamesModel)

include hfaults

theorem insertRecord_blameless :
    Blameless ((insertRecord r : Action d (Attempt (Record c) Unit)).run w).value.result :=
  fun e he => (insertRecord_assembled hfaults (.within (E := fun e => ¬ e.BlamesModel))).blameless
    (fun _ h => h.rows_blameless) w e (by rw [Attempt.failure?, he]; rfl)

theorem updateHeld_blameless :
    Blameless ((updateHeld (.entity r.columns : Cell c (.entity r.model)) : Task d Unit).exec
      w).value := by
  have hbase : ∀ j, (ColumnType.entity r.model).base? = some j → j ∈ c.closure r.model :=
    fun j hj => .inl (Option.some.inj hj).symm
  have hassembled := updateHeld_assembled (d := d) hfaults
    (.within (E := fun e => ¬ e.BlamesModel)) (.entity r.columns) hbase
  exact fun e he => hassembled.blameless (fun _ h => h.rows_blameless) w e
    (show failure? (Task.exec _ w).value = _ by rw [he]; rfl)

theorem load_blameless : Blameless ((load r b : Staged d (Record c) Unit).exec p w).value.1 := by
  have hfetch : Blameless ((fetchRow b : Task d (List Value)).exec w).value := fun e he =>
    (fetchRow_assembled hfaults (.inl rfl)).blameless (fun _ h => h.1.rows_blameless) w e
      (show failure? (Task.exec _ w).value = _ by rw [he]; rfl)
  rw [load, Staged.exec_bind, Staged.exec_task]
  split
  · rename_i row hrow
    have hload : Action.Assembled (d := d) _ _ Attempt.failure? (do
        let left ← loadRecord b row
        return (⟨⟨r.model, left.storage⟩, left.result⟩ : Attempt (Record c) Unit)) :=
      .wrap (loadRecord_assembled hfaults (.inl rfl) row)
    rw [Staged.exec_bind, Staged.exec_advance]
    dsimp only
    rw [Staged.exec_attempt]
    exact fun e he => hload.blameless (fun _ h => h.1.rows_blameless) _ e
      (by rw [Attempt.failure?]; exact congrArg failure? he)
  · rename_i e he
    exact .error (hfetch e he)

end Records

end Session

/-- A request that ensures tables, and fails with an error that blames a model, has made no call at
all, if the closure is deployable and the cache keeps no model from its tables. An empty cache keeps
none. -/
theorem Request.refuses_first {q : Request} (hensuring : .ensuring ∈ q.kinds)
    (hms : q.models.Deployable q.root) {w : World σ} (hw : w.cache.RespectsAll q.models q.root)
    {e : MapperError} (he : q.failure? ((q.act d).run w).value = some e) (hblames : e.BlamesModel) :
    Calls (fun _ => False) ((q.act d).run w).journal := by
  cases q with
  | drop | delete => simp [kinds] at hensuring
  | create ms k => exact Session.create_refuses hms hw (eq_error_of_failure? he) hblames
  | insert r =>
      have he : ((Session.insert (d := d) r).run w).value.result = .error e :=
        eq_error_of_failure? he
      show Calls _ ((Session.insert r).run w).journal
      rw [Session.insert_eq] at he ⊢
      refine Session.prepared_refuses hms hw (fun deps hdeps b p w hp => ?_) he hblames
      subst hp
      rw [Staged.exec_attempt]
      exact Session.insertRecord_blameless (.of_deployable hms hdeps)
  | update r =>
      have he : ((Session.update (d := d) r).run w).value.result = .error e :=
        eq_error_of_failure? he
      show Calls _ ((Session.update r).run w).journal
      rw [Session.update_eq] at he ⊢
      refine Session.prepared_refuses hms hw (fun deps hdeps b p w _ => ?_) he hblames
      rw [Staged.exec_task]
      exact Session.updateHeld_blameless (.of_deployable hms hdeps)
  | query r =>
      have he : ((Session.query (d := d) r).run w).value.result = .error e :=
        eq_error_of_failure? he
      show Calls _ ((Session.query r).run w).journal
      rw [Session.query_eq] at he ⊢
      refine Session.prepared_refuses hms hw (fun deps hdeps b p w _ => ?_) he hblames
      exact Session.load_blameless (.of_deployable hms hdeps)

/-- A database without tables that accepts every statement. -/
def bare : Driver Unit where
  step
    | .insert _, s | .update _, s | .delete _, s => (.ok (1 : UInt64), s)
    | .next, s | .tableExists _, s => (.ok false, s)
    | .read _, s => (.error ⟨"no row"⟩, s)
    | .release, s | .begin, s | .commit, s | .rollback, s | .query _, s | .finish, s
    | .execute _, s => (.ok (), s)
  remaining _ := 0
  remaining_next _ h := by cases h
  remaining_read _ _ := le_rfl

/-- Drafts, of which the generated key is a text. -/
def drafts : Models 1 :=
  ⟨fun _ => ⟨"Draft", "shop", none, [⟨"id", "id key auto", .text⟩], none⟩⟩

/-- Drafts are refused before any call. -/
theorem Request.drafts_refused_first :
    let q : Request := .create drafts 0
    let left := (q.act bare).run ⟨(), .empty⟩
    q.failure? left.value = some (.malformedTag "shop.Draft" "id key auto" (.autoOnKind .text)) ∧
      Calls (fun _ => False) left.journal := by
  intro q left
  have hdependencies : drafts.dependencies 0
      = .error (.malformedTag "shop.Draft" "id key auto" (.autoOnKind .text)) := by decide +kernel
  obtain ⟨events, hexec⟩ := Session.onSchema_refused .create .schemaEnsuring
    (Session.ensureSchema (d := bare) drafts 0) hdependencies ⟨(), .empty⟩
  have hrun : left = _ := hexec
  have hfailure : q.failure? left.value
      = some (.malformedTag "shop.Draft" "id key auto" (.autoOnKind .text)) := by
    rw [hrun]
    rfl
  have hdeployable : drafts.Deployable 0 := by
    refine ⟨fun i _ j _ _ => Subsingleton.elim i j, fun j _ => ?_, fun j _ => ?_, ?_⟩
    · have : ∀ j, (drafts.model j).IsStorable := by decide +kernel
      exact this j
    · have : ∀ j, (drafts.model j).offeredCount = (drafts.model j).fields.length := by
        decide +kernel
      exact this j
    · exact fun i _ _ _ _ _ j _ _ =>
        congrArg (fun j => (drafts.model j).origin) (Subsingleton.elim j i)
  exact ⟨hfailure, refuses_first (q := q) (.head _) hdeployable
    (fun _ _ _ _ _ hheld => nomatch hheld) hfailure (.inr (.inl rfl))⟩

/-! ## Owners and pets -/

/-- Owners, of which nothing is stored but the links to their pets, and pets. -/
def owners : Models 2 := .ofVector #v[
  { ident := "Owner", path := "shop", explicitName := none, offered := none
    fields := [⟨"pet", "pet", .entity (.last 1)⟩] },
  { ident := "Pet", path := "shop", explicitName := none, offered := none
    fields := [⟨"id", "id key auto", .integer .int64⟩] }]

theorem owners_dependencies : owners.dependencies 0 = .ok [1] := by
  have htargets : owners.targets 0 = .ok [1] := by decide +kernel
  have hnone : owners.targets 1 = .ok [] := by decide +kernel
  have hfree : (KeyMap.empty.insert (owners.model 0).table (owners.model 0).origin).get?
      (owners.model 1).table = none := by decide +kernel
  refine bind_eq_ok.2 ⟨[1], htargets, ?_⟩
  rw [List.map_singleton, Models.resolve_free hfree, hnone]
  show Models.resolve _ _ [.list 1] = _
  rw [Models.resolve, Models.resolve]
  rfl

namespace Session

variable {definition : Except MapperError Statement} {w : World Unit}

/-- A table that the cache does not know is created in a database without tables. -/
theorem ensure_bare {s : Statement} (witness : Witness) (creating : Event)
    (hfree : w.cache.fetch witness.table = none) (hs : definition = .ok s) :
    ∃ journal, (ensure witness creating definition : Task bare Unit).exec w
        = ⟨.ok (), ⟨(), w.cache.put witness⟩, journal⟩ ∧
      .call (.execute s) (.ok ()) ∈ journal := by
  have hrun := ensure_run (d := bare) witness creating definition w
  generalize (ensure witness creating definition : Task bare Unit).exec w = outcome at hrun ⊢
  cases hrun with
  | known hheld | foreign hheld => rw [hfree] at hheld; cases hheld
  | unchecked _ hlook | found _ hlook => cases hlook
  | undefined _ _ hdefinition => rw [hs] at hdefinition; cases hdefinition
  | uncreated _ _ _ hcreate => cases hcreate
  | created _ _ hdefinition =>
      obtain rfl := Except.ok.inj (hs.symm.trans hdefinition)
      exact ⟨_, rfl, .tail _ (.tail _ (List.mem_append_left _ (.tail _ (.head _))))⟩

/-- A table that cannot be defined is not created. -/
theorem ensure_bare_undefined {e : MapperError} (witness : Witness) (creating : Event)
    (hfree : w.cache.fetch witness.table = none) (he : definition = .error e) :
    ∃ journal, (ensure witness creating definition : Task bare Unit).exec w
      = ⟨.error e, w, journal⟩ := by
  have hrun := ensure_run (d := bare) witness creating definition w
  generalize (ensure witness creating definition : Task bare Unit).exec w = outcome at hrun ⊢
  cases hrun with
  | known hheld | foreign hheld => rw [hfree] at hheld; cases hheld
  | unchecked _ hlook | found _ hlook => cases hlook
  | undefined _ _ hdefinition =>
      obtain rfl := Except.error.inj (hdefinition.symm.trans he)
      exact ⟨_, rfl⟩
  | uncreated _ _ hdefinition | created _ _ hdefinition => rw [he] at hdefinition; cases hdefinition

/-- Ensuring the tables of owners creates that of pets, and then finds nothing to store. -/
theorem ensureSchema_owners :
    let left := (ensureSchema owners 0 [1] : Task bare Unit).exec ⟨(), .empty⟩
    left.value = .error (.noStoredColumns "shop.Owner") ∧
      ∃ s, Entry.call (.execute s) (.ok ()) ∈ left.journal := by
  intro left
  have hdescribe : (owners.model 1).describe = .ok [⟨0, "id",
      ⟨"id", true, true, FieldTag.id_ne, FieldTag.id_chars⟩, .scalar (.integer .int64)⟩] := by
    decide +kernel
  have hpets : ∃ s, owners.createTable 1 = .ok s :=
    Models.createTable_of_storable (by decide +kernel) hdescribe
  obtain ⟨s, hs⟩ := hpets
  have howners : owners.createTable 0 = .error (.noStoredColumns "shop.Owner") := by decide +kernel
  obtain ⟨journal, hexec, hcreated⟩ := ensure_bare (w := ⟨(), .empty⟩)
    (.ofModel (owners.model 1)) (.creatingTable (owners.model 1).table) rfl hs
  have hfree : (SchemaCache.empty.put (.ofModel (owners.model 1))).fetch
      (Witness.ofModel (owners.model 0)).table = none := by
    rw [SchemaCache.fetch_put, if_neg (by decide +kernel)]
    rfl
  obtain ⟨later, hrefused⟩ := ensure_bare_undefined
    (w := ⟨(), .put .empty (.ofModel (owners.model 1))⟩)
    (.ofModel (owners.model 0)) (.creatingTable (owners.model 0).table) hfree howners
  have htables : left = ⟨.error (.noStoredColumns "shop.Owner"),
      ⟨(), .put .empty (.ofModel (owners.model 1))⟩, journal ++ later⟩ := by
    show ((ensureTable owners 1 >>= fun _ => ensureTable owners 0 >>= fun _ => pure ()) >>= _ :
      Task bare Unit).exec _ = _
    exact Task.exec_bind_error (Task.exec_bind_eq hexec (Task.exec_bind_error hrefused))
  rw [htables]
  exact ⟨rfl, s, List.mem_append_left _ hcreated⟩

end Session

/-- Owners are refused once the table of pets is created, so not every error that blames a model
comes before the first statement: here the types are derived, they are told apart, and the cache is
empty. -/
theorem Request.owners_refused_late :
    ¬ ∀ (q : Request) (w : World Unit), .ensuring ∈ q.kinds →
      (∀ j, (q.models.model j).offered = none) →
      Set.InjOn q.models.identity (q.models.closure q.root) → w.cache = .empty →
      ∀ e, q.failure? ((q.act bare).run w).value = some e → e.BlamesModel →
        Calls (fun call => call.statement? = none) ((q.act bare).run w).journal := by
  intro h
  obtain ⟨hvalue, s, hcreated⟩ := Session.ensureSchema_owners
  obtain ⟨before, after, hexec⟩ := Session.onSchema_exec .create .schemaEnsuring
    (Session.ensureSchema (d := bare) owners 0) owners_dependencies ⟨(), .empty⟩
  have hrun : ((Request.create owners 0).act bare).run ⟨(), .empty⟩ = _ := hexec
  have htables : ∀ i j, (owners.model i).table = (owners.model j).table → i = j := by decide +kernel
  have hcalls := h (.create owners 0) ⟨(), .empty⟩ (.head _) (by decide +kernel)
    (fun i _ j _ heq => htables i j (congrArg Prod.fst heq)) rfl (.noStoredColumns "shop.Owner")
    (by rw [hrun, hvalue]; rfl) (.inl rfl)
  rw [hrun] at hcalls
  have hnone := hcalls (.execute s) (.ok ())
    (List.mem_append_right _ (List.mem_append_left _ hcreated))
  exact absurd hnone (Option.some_ne_none s)

end EntityMapper
