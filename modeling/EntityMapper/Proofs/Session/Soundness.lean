import EntityMapper.Driver.Recorded
import EntityMapper.Proofs.Session.Requests
import EntityMapper.Proofs.Sql.Sealing
import Mathlib.Data.List.TakeWhile

/-!
# The cache claims no table that is not there

On a recording driver, every witness of the cache stands under its own table, and the table is one
of the database's (`Sound`). A table is put into the cache after it was found or created, and
forgotten when it is dropped, so every job keeps this whatever fails; hence every request, and every
program of requests and transactions, however nested (`Program.act_sound`).
-/

namespace EntityMapper

open Sql

/-! ## The tables of a recorded database -/

/-- What a database reads of a name between backquotes: all of it up to the first backquote. -/
def readName (name : String) : String := String.ofList (name.toList.takeWhile (· ≠ '`'))

theorem takeWhile_plain {t : String} (ht : PlainName t) : ∀ c ∈ t.toList, decide (c ≠ '`') = true :=
  fun _ hc => decide_eq_true fun heq => ht (heq ▸ hc)

/-- A name without backquotes is read as it is. -/
theorem readName_plain {name : String} (hname : PlainName name) : readName name = name := by
  rw [readName, List.takeWhile_eq_self_iff.2 (takeWhile_plain hname), String.ofList_toList]

/-- The name between the first two backquotes of a text. -/
theorem quotedName?_identifier {before name rest : String} (hbefore : PlainName before) :
    quotedName? (before ++ (identifier name ++ rest)) = some (readName name, true) := by
  have hafter : afterBackquote? (before ++ (identifier name ++ rest)).toList
      = some (name.toList ++ '`' :: rest.toList) := by
    rw [afterBackquote?]
    simp only [identifier, String.toList_append, List.append_assoc]
    rw [List.dropWhile_append_of_pos (takeWhile_plain hbefore)]
    rfl
  have hread : ∀ cs : List Char,
      (cs ++ '`' :: rest.toList).takeWhile (· ≠ '`') = cs.takeWhile (· ≠ '`') := by
    intro cs
    induction cs with
    | nil => rfl
    | cons c cs ih => rw [List.cons_append, List.takeWhile_cons, List.takeWhile_cons, ih]
  rw [quotedName?, hafter, Option.map_some, hread, readName]
  simp

theorem applySchema_create (rest table : String) (tables : List String) :
    applySchema ("CREATE TABLE " ++ rest) table tables
      = if table ∈ tables then tables else table :: tables := by
  have hprefix : "CREATE TABLE".toList.isPrefixOf ("CREATE TABLE " ++ rest).toList = true := by
    rw [List.isPrefixOf_iff_prefix, String.toList_append]
    exact ⟨' ' :: rest.toList, rfl⟩
  rw [applySchema, if_pos hprefix]

theorem applySchema_drop (rest table : String) (tables : List String) :
    applySchema ("DROP TABLE IF EXISTS " ++ rest) table tables = tables.filter (· ≠ table) := by
  have hprefix :
      "DROP TABLE".toList.isPrefixOf ("DROP TABLE IF EXISTS " ++ rest).toList = true := by
    rw [List.isPrefixOf_iff_prefix, String.toList_append]
    exact ⟨" IF EXISTS ".toList ++ rest.toList, rfl⟩
  have hother :
      "CREATE TABLE".toList.isPrefixOf ("DROP TABLE IF EXISTS " ++ rest).toList = false := by
    rw [String.toList_append]
    rfl
  rw [applySchema, hother, if_neg Bool.false_ne_true, if_pos hprefix]

theorem tableDefinition_text (table : String) (lines : List String) :
    ∃ rest, tableDefinition table lines = "CREATE TABLE " ++ (identifier table ++ rest) :=
  ⟨" (\n\t" ++ (separated ",\n\t" lines ++ "\n)\n"), by
    show "CREATE TABLE " ++ identifier table ++ " (\n\t" ++ separated ",\n\t" lines ++ "\n)\n" = _
    simp only [String.append_assoc]⟩

/-- A statement that creates a table names it right after its first words. -/
theorem creation_text {s : Statement} (hs : s.IsCreation) :
    ∃ rest, s.text = "CREATE TABLE " ++ (identifier s.table ++ rest) := by
  cases s with
  | createTable | createLinks => exact tableDefinition_text _ _
  | dropTable | insertRow | updateRow | deleteRow | selectRow | insertLink | deleteLink | clearLinks
  | selectLinks => exact absurd hs id

namespace Recorded

variable {s s' : Recorded}

/-- An answer changes tables only where a statement is executed. -/
theorem answer_tables {call : Call} (h : ∀ statement, call ≠ .execute statement) :
    (answer call s).2.tables = s.tables := by
  cases call with
  | execute statement => exact absurd rfl (h statement)
  | next =>
      rw [answer]
      split <;> rfl
  | commit =>
      rw [answer]
      split <;> rfl
  | query | finish | read | insert | update | delete | tableExists | release | begin
  | rollback => rfl

/-- A call that executes no statement changes no table. -/
theorem step_tables (call : Call) (h : ∀ statement, call ≠ .execute statement) :
    (driver.step call s).2.tables = s.tables := by
  show (step call s).2.tables = s.tables
  rw [step]
  split
  · exact answer_tables h
  · dsimp only
    split
    · rfl
    · exact answer_tables h

/-- Looking for a table changes no table. -/
theorem step_look {table : String} {answer : Except DriverError Bool}
    (h : driver.step (.tableExists table) s = (answer, s')) : s'.tables = s.tables := by
  have htables := step_tables (s := s) (.tableExists table) fun _ h => by cases h
  rwa [h] at htables

/-- A table that is found is one of the tables. -/
theorem step_found {table : String}
    (h : driver.step (.tableExists table) s = (.ok true, s')) : table ∈ s'.tables := by
  have hstep : step (.tableExists table) s = (.ok true, s') := h
  rw [step, if_neg (by exact Bool.false_ne_true)] at hstep
  dsimp only at hstep
  split at hstep
  · cases hstep
  · obtain ⟨hfound, rfl⟩ := Prod.mk.inj hstep
    exact List.contains_iff_mem.1 (Except.ok.inj hfound)

/-- An executed statement fails and changes no table, or is answered. -/
theorem step_execute (statement : Statement) (s : Recorded) :
    (∃ e, driver.step (.execute statement) s =
        (.error e, s.record (Call.execute statement).logText)) ∨
      driver.step (.execute statement) s =
        answer (.execute statement) (s.record (Call.execute statement).logText) := by
  show (∃ e, step (.execute statement) s = _) ∨ step (.execute statement) s = _
  rw [step, if_neg (by exact Bool.false_ne_true)]
  dsimp only
  split
  · exact .inl ⟨_, rfl⟩
  · exact .inr rfl

/-- A statement that fails changes no table. -/
theorem step_failed {statement : Statement} {e : DriverError}
    (h : driver.step (.execute statement) s = (.error e, s')) : s'.tables = s.tables := by
  rcases step_execute statement s with ⟨e', hstep⟩ | hstep
  · obtain ⟨-, rfl⟩ := Prod.mk.inj (h.symm.trans hstep)
    rfl
  · rw [h, answer] at hstep
    split at hstep <;> cases hstep

/-- A statement on a table is applied to the table whose name the database reads. -/
theorem step_applied {statement : Statement} {before rest : String}
    (htext : statement.text = before ++ (identifier statement.table ++ rest))
    (hbefore : PlainName before) (h : driver.step (.execute statement) s = (.ok (), s')) :
    s'.tables = applySchema statement.text (readName statement.table) s.tables := by
  rcases step_execute statement s with ⟨e, hstep⟩ | hstep
  · cases h.symm.trans hstep
  · have hname : quotedName? statement.text = some (readName statement.table, true) := by
      rw [htext]
      exact quotedName?_identifier hbefore
    rw [h, answer, hname] at hstep
    obtain ⟨-, rfl⟩ := Prod.mk.inj hstep
    rfl

/-- What a statement that creates a table leaves of the tables. -/
theorem step_created {statement : Statement} (hs : statement.IsCreation)
    (h : driver.step (.execute statement) s = (.ok (), s')) :
    s'.tables = if readName statement.table ∈ s.tables then s.tables
      else readName statement.table :: s.tables := by
  obtain ⟨rest, htext⟩ := creation_text hs
  rw [step_applied htext (by decide) h, htext, applySchema_create]

/-- What a statement that drops a table leaves of the tables. -/
theorem step_dropped {table : String}
    (h : driver.step (.execute (.dropTable table)) s = (.ok (), s')) :
    s'.tables = s.tables.filter (· ≠ readName table) := by
  have htext : (Statement.dropTable table).text =
      "DROP TABLE IF EXISTS " ++ (identifier table ++ "") := by
    rw [String.append_empty]
    rfl
  rw [step_applied htext (by decide) h, htext, applySchema_drop]
  rfl

/-- A statement that creates a table leaves it among the tables. -/
theorem step_creation {statement : Statement} (hs : statement.IsCreation)
    (hplain : PlainName statement.table)
    (h : driver.step (.execute statement) s = (.ok (), s')) :
    statement.table ∈ s'.tables ∧ ∀ table ∈ s.tables, table ∈ s'.tables := by
  rw [step_created hs h, readName_plain hplain]
  split
  · exact ⟨‹_›, fun _ htable => htable⟩
  · exact ⟨List.mem_cons_self, fun _ htable => List.mem_cons_of_mem _ htable⟩

/-- A statement that drops a table leaves every other one among the tables. -/
theorem step_drop {table : String} (hplain : PlainName table)
    (h : driver.step (.execute (.dropTable table)) s = (.ok (), s')) :
    ∀ other ∈ s.tables, other ≠ table → other ∈ s'.tables := by
  intro other hother hne
  rw [step_dropped h, readName_plain hplain]
  exact List.mem_filter.2 ⟨hother, decide_eq_true hne⟩

end Recorded

/-! ## Witnesses of tables that are there -/

/-- Whether every witness of the cache stands under its own table, and that table is there. -/
def World.Sound (w : World Recorded) : Prop :=
  ∀ key held, w.cache.fetch key = some held → held.table = key ∧ key ∈ w.driver.tables

namespace World

variable {w : World Recorded}

/-- More tables and no more witnesses. -/
theorem Sound.of_tables {s : Recorded} (h : w.Sound) (htables : ∀ table ∈ w.driver.tables,
    table ∈ s.tables) : World.Sound { w with driver := s } := by
  intro key held hheld
  obtain ⟨htable, hmem⟩ := h key held hheld
  exact ⟨htable, htables key hmem⟩

/-- A witness of a table that is there. -/
theorem Sound.put {witness : Witness} (h : w.Sound) (hthere : witness.table ∈ w.driver.tables) :
    World.Sound { w with cache := w.cache.put witness } := by
  intro key held hheld
  rw [SchemaCache.fetch_put] at hheld
  split at hheld
  · rename_i hkey
    cases hheld
    exact ⟨hkey.symm, hkey ▸ hthere⟩
  · exact h key held hheld

/-- A table that is forgotten when it is dropped. -/
theorem Sound.remove {s : Recorded} {table : String} (h : w.Sound)
    (htables : ∀ other ∈ w.driver.tables, other ≠ table → other ∈ s.tables) :
    World.Sound ⟨s, w.cache.remove table⟩ := by
  intro key held hheld
  rw [SchemaCache.fetch_remove] at hheld
  split at hheld
  · cases hheld
  · rename_i hkey
    obtain ⟨htable, hmem⟩ := h key held hheld
    exact ⟨htable, htables key hmem hkey⟩

/-- That the cache is sound stays so along the runs that keep it is a law of runs. -/
theorem soundLaw : RunLaw fun _ (w : World Recorded) _ w' => w.Sound → w'.Sound :=
  .blind (fun _ _ hw => hw) fun h hlater hw => hlater (h hw)

end World

namespace Session

variable {w : World Recorded}

/-- Ensuring a table keeps the cache sound: the table is put into the cache once it is there. -/
theorem ensure_sound {witness : Witness} {creating : Event}
    {definition : Except MapperError Statement} (hplain : PlainName witness.table)
    (hdefinition : ∀ s, definition = .ok s → s.IsCreation ∧ s.table = witness.table)
    (hw : w.Sound) :
    ((ensure (d := Recorded.driver) witness creating definition).exec w).world.Sound := by
  have hrun := ensure_run (d := Recorded.driver) witness creating definition w
  generalize (ensure (d := Recorded.driver) witness creating definition).exec w = outcome at hrun ⊢
  cases hrun with
  | known | foreign => exact hw
  | unchecked _ hstep => exact hw.of_tables fun _ htable => Recorded.step_look hstep ▸ htable
  | found _ hstep =>
      exact (hw.of_tables fun _ htable => Recorded.step_look hstep ▸ htable).put
        (Recorded.step_found hstep)
  | undefined _ hstep => exact hw.of_tables fun _ htable => Recorded.step_look hstep ▸ htable
  | uncreated _ hstep _ hcreate =>
      refine hw.of_tables fun _ htable => ?_
      rw [Recorded.step_failed hcreate, Recorded.step_look hstep]
      exact htable
  | created _ hstep hs hcreate =>
      -- The witness is put in under the name that the statement has created.
      obtain ⟨hcreation, htable⟩ := hdefinition _ hs
      obtain ⟨hmem, hkeeps⟩ := Recorded.step_creation hcreation (htable ▸ hplain) hcreate
      refine (hw.of_tables fun table hold => hkeeps table ?_).put (htable ▸ hmem)
      rw [Recorded.step_look hstep]
      exact hold

/-- Dropping a table keeps the cache sound: the table is forgotten once it is gone. -/
theorem dropKnown_sound {table origin : String} {dropping : Event} (hplain : PlainName table)
    (hw : w.Sound) : ((dropKnown (d := Recorded.driver) table origin dropping
      (.dropTable table)).exec w).world.Sound := by
  have hrun := dropKnown_run (d := Recorded.driver) table origin dropping (.dropTable table) w
  generalize (dropKnown (d := Recorded.driver) table origin dropping (.dropTable table)).exec w =
    outcome at hrun ⊢
  cases hrun with
  | unknown | foreign => exact hw
  | undropped _ _ hdrop =>
      exact hw.of_tables fun _ htable => Recorded.step_failed hdrop ▸ htable
  | dropped _ _ hdrop => exact hw.remove (Recorded.step_drop hplain hdrop)

end Session

section Jobs

variable {n : Nat} {ms : Models n} {root : Fin n}

/-- The tables of a model whose names are plain have plain names. -/
theorem Models.Owns.plain {j : Fin n} {table : String} (hplain : ms.PlainNames j)
    (h : ms.Owns j table) : PlainName table := by
  cases h with
  | table => exact hplain.1
  | links hrs hr =>
      obtain ⟨ds, hds, hrs⟩ := bind_eq_ok.1 hrs
      cases hrs
      obtain ⟨d, hd, hrelation⟩ := List.mem_filterMap.1 hr
      obtain ⟨type, htype, rfl⟩ := Option.map_eq_some_iff.1 hrelation
      obtain ⟨f, hf, hdescribes⟩ := EntityModel.describes_of_mem hds hd
      rw [hdescribes.type_eq] at htype
      obtain ⟨hname, htarget⟩ := hplain.2 f hf type htype
      simp only [Models.linkTable, PlainName, String.toList_append, List.mem_append, not_or]
      exact ⟨⟨⟨hplain.1, hdescribes.name_eq ▸ hname⟩, by decide⟩, htarget⟩

/-- A job on rows leaves the tables alone. -/
theorem Job.rows_tables {job : Job} {s : Statement} (h : job.rows? = some s) (w : World Recorded) :
    ((job.task Recorded.driver).exec w).world.driver.tables = w.driver.tables := by
  refine (job.recounts w).keeps (I := fun s => s.tables = w.driver.tables) ?_ rfl
  intro call answer hcall s hs
  refine (Recorded.step_tables call ?_).trans hs
  rintro statement rfl
  exact job.rows_lines h w _ hcall

/-- Every job keeps the cache sound. -/
theorem Job.sound {kind : Job.Kind} {job : Job} (hjob : job.Within ms root kind)
    (hplain : ∀ j ∈ ms.closure root, ms.PlainNames j) {w : World Recorded} (hw : w.Sound) :
    ((job.task Recorded.driver).exec w).world.Sound := by
  obtain ⟨-, j, hj, hserves⟩ := hjob
  have hrows : ∀ s, job.rows? = some s → ((job.task Recorded.driver).exec w).world.Sound := by
    -- Neither the witnesses nor the tables change.
    intro s hs key held hheld
    rw [job.rows_cache hs] at hheld
    rw [job.rows_tables hs]
    exact hw key held hheld
  cases job with
  | ensure witness creating definition =>
      obtain ⟨htable, -, hdefinition⟩ := hserves
      exact Session.ensure_sound (htable.plain (hplain j hj)) hdefinition hw
  | drop table origin dropping statement =>
      obtain ⟨htable, -, rfl⟩ := hserves
      exact Session.dropKnown_sound (htable.plain (hplain j hj)) hw
  | insert s | update s | delete s | fetchRow s | fetchColumn s => exact hrows s rfl

end Jobs

/-- Whether the names that the statements of a request are made of hold no backquote. -/
def Request.PlainNames (q : Request) : Prop :=
  ∀ j ∈ q.models.closure q.root, q.models.PlainNames j

/-- Every request keeps the cache sound. -/
theorem Request.sound {q : Request} (hplain : q.PlainNames) {w : World Recorded} (hw : w.Sound) :
    ((q.act Recorded.driver).run w).world.Sound := by
  refine q.composed.law World.soundLaw (fun job hjob w hw => ?_) w hw
  obtain ⟨kind, -, hwithin⟩ := hjob
  exact Job.sound hwithin hplain hw

/-! ## Programs -/

/-- What a caller does with a session: requests and transactions, each in view of what the earlier
ones have answered. A transaction works on some storage, and transactions may be nested. -/
inductive Program : Type → Type 1
  | done {α : Type} (a : α) : Program α
  | request {α : Type} (q : Request) (next : q.Answer → Program α) : Program α
  | transaction {α β γ : Type} (storage : β) (body : Program (Attempt β γ))
      (next : Attempt β γ → Program α) : Program α

namespace Program

variable {σ : Type} (d : Driver σ)

/-- How a session runs a program. -/
def act : {α : Type} → Program α → Action d α
  | _, .done a => pure a
  | _, .request q next => do (next (← q.act d)).act
  | _, .transaction storage body next => do
      (next (← Session.transaction storage fun _ => body.act)).act

/-- The worlds that the calls of a program leave, each right after the call, those inside
transactions included. -/
def stops : {α : Type} → Program α → World σ → List (World σ)
  | _, .done _, _ => []
  | _, .request q next, w =>
      let left := (q.act d).run w
      left.world :: (next left.value).stops left.world
  | _, .transaction storage body next, w =>
      let begun := (Task.call (d := d) .begin).exec w
      let left := (Session.transaction storage fun _ => body.act d).run w
      let inside := match begun.value with
        | .ok _ => body.stops begun.world
        | .error _ => []
      inside ++ left.world :: (next left.value).stops left.world

/-- Whether every request that a program may make has a property. -/
def Every (P : Request → Prop) : {α : Type} → Program α → Prop
  | _, .done _ => True
  | _, .request q next => P q ∧ ∀ answer, (next answer).Every P
  | _, .transaction _ body next => body.Every P ∧ ∀ left, (next left).Every P

end Program

/-- Whether an action keeps the cache sound. -/
def Action.KeepsSound {α : Type} (action : Action Recorded.driver α) : Prop :=
  ∀ w, w.Sound → (action.run w).world.Sound

namespace Action.KeepsSound

variable {α β γ : Type} {action : Action Recorded.driver α}

theorem pure (a : α) : (pure a : Action Recorded.driver α).KeepsSound := fun _ hw => hw

theorem bind {next : α → Action Recorded.driver β} (h : action.KeepsSound)
    (hnext : ∀ a, (next a).KeepsSound) : (action >>= next).KeepsSound :=
  fun w hw => hnext _ _ (h w hw)

/-- A call that executes no statement keeps the cache sound. -/
theorem call {c : Call} (h : ∀ statement, c ≠ .execute statement) :
    (Action.call (d := Recorded.driver) c).KeepsSound :=
  fun w hw => hw.of_tables fun _ htable => (Recorded.step_tables (s := w.driver) c h).symm ▸ htable

theorem task_call {c : Call} (h : ∀ statement, c ≠ .execute statement) :
    (Task.call (d := Recorded.driver) c).run.KeepsSound := bind (call h) fun _ => pure _

/-- A task in two parts. -/
theorem task_bind {t : Task Recorded.driver α} {next : α → Task Recorded.driver β}
    (h : t.run.KeepsSound) (hnext : ∀ a, (next a).run.KeepsSound) :
    (t >>= next).run.KeepsSound := by
  refine bind h fun result => ?_
  cases result with
  | ok a => exact hnext a
  | error e => exact pure _

/-- A transaction keeps the cache sound where its work does: to begin, commit or roll back changes
neither the tables nor the cache. -/
theorem transaction (storage : β) (work : β → Action Recorded.driver (Attempt β α))
    (h : (work storage).KeepsSound) : (Session.transaction storage work).KeepsSound := by
  refine bind (task_call fun _ => Call.noConfusion) fun begun => ?_
  cases begun with
  | error e => exact pure _
  | ok u =>
      refine bind h fun left => bind ?_ fun result => ?_
      · exact task_bind (pure left.result) fun a =>
          task_bind (task_call fun _ => Call.noConfusion) fun _ => pure _
      · cases result with
        | ok a => exact bind (pure ()) fun _ => pure _
        | error e =>
            refine bind (bind (call fun _ => Call.noConfusion) fun undone => ?_) fun _ => pure _
            cases undone with
            | ok u => exact pure ()
            | error e => exact fun _ hw => hw

end Action.KeepsSound

/-- A program keeps the cache sound. -/
theorem Program.act_sound {α : Type} {p : Program α} (hplain : p.Every Request.PlainNames) :
    (p.act Recorded.driver).KeepsSound := by
  induction p with
  | done a => exact .pure a
  | request q next ih =>
      exact .bind (fun w hw => Request.sound hplain.1 hw) fun answer => ih answer (hplain.2 answer)
  | transaction storage body next ihbody ihnext =>
      exact .bind (.transaction storage _ (ihbody hplain.1)) fun left => ihnext left (hplain.2 left)

/-- Every call of a program leaves a sound cache where the program starts from one. -/
theorem Program.stops_sound {α : Type} {p : Program α} (hplain : p.Every Request.PlainNames)
    {w : World Recorded} (hw : w.Sound) : ∀ w' ∈ p.stops Recorded.driver w, w'.Sound := by
  induction p generalizing w with
  | done a => exact fun _ h => absurd h List.not_mem_nil
  | request q next ih =>
      have hleft := Request.sound hplain.1 hw
      intro w' h
      rcases List.mem_cons.1 h with rfl | h
      · exact hleft
      · exact ih _ (hplain.2 _) hleft w' h
  | transaction storage body next ihbody ihnext =>
      have hbegun : ((Task.call (d := Recorded.driver) .begin).exec w).world.Sound :=
        Action.KeepsSound.task_call (fun _ => Call.noConfusion) w hw
      have hleft := Action.KeepsSound.transaction storage (fun _ => body.act Recorded.driver)
        (body.act_sound hplain.1) w hw
      intro w' h
      -- The stops of the body come first, and only where the transaction has begun.
      rcases List.mem_append.1 h with h | h
      · split at h
        · exact ihbody hplain.1 hbegun w' h
        · exact absurd h List.not_mem_nil
      · rcases List.mem_cons.1 h with rfl | h
        · exact hleft
        · exact ihnext _ (hplain.2 _) hleft w' h

namespace Program

/-- Whatever requests and transactions a session runs on a recorded database, from a cache that
knows nothing and with any script of failures and answers: after every call, failed or not, each
witness of the cache stands under its own table, and that table is one of the database's. -/
theorem cache_sound {α : Type} (p : Program α) (hplain : p.Every Request.PlainNames)
    (s : Recorded) : ∀ w ∈ p.stops Recorded.driver ⟨s, .empty⟩, ∀ key held,
      w.cache.fetch key = some held → held.table = key ∧ key ∈ w.driver.tables :=
  p.stops_sound hplain fun _ _ hheld => nomatch hheld

/-- The tables of trees are created, and dropped again in a transaction. -/
def comeAndGo : Program (Except MapperError Unit) :=
  .request (.create .tree 0) fun _ =>
    .transaction () (.request (.drop .tree 0) fun answer => .done ⟨(), answer⟩) fun left =>
      .done left.result

/-- The cache is right at every stop also where the database refuses to drop the tables. -/
theorem comeAndGo_cache_sound :
    comeAndGo.Every Request.PlainNames ∧
      ∀ w ∈ comeAndGo.stops Recorded.driver ⟨{ Recorded.fresh with failOn := some "DROP" }, .empty⟩,
        ∀ key held, w.cache.fetch key = some held → held.table = key ∧ key ∈ w.driver.tables := by
  have htree : ∀ j, Models.tree.PlainNames j := by decide +kernel
  have hplain : comeAndGo.Every Request.PlainNames :=
    ⟨fun j _ => htree j, fun _ => ⟨⟨fun j _ => htree j, fun _ => trivial⟩, fun _ => trivial⟩⟩
  exact ⟨hplain, cache_sound comeAndGo hplain _⟩

end Program

end EntityMapper
