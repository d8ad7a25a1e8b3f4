import EntityMapper.Proofs.Session.Schema
import EntityMapper.Proofs.Storage.Exact
import EntityMapper.Session.Write

/-!
# Inserting records that are stored exactly

A record of a model that is stored exactly owns no others and has no links, so it is inserted by one
call, after which its key is captured (`insertSelf_run`). `insert_ok` says what an insertion that
succeeds has led to.
-/

namespace EntityMapper

variable {n : Nat} {c : Catalog n} {k : Fin n} {σ : Type} {d : Driver σ}

namespace Session

/-- Columns of exact types own no records. -/
theorem insertOwned_run {ts : List (ColumnType n)} (htypes : ∀ t ∈ ts, t.IsExact)
    (columns : Columns c ts) (w : World σ) :
    (insertOwned columns : Action d (Attempt (Columns c ts) Unit)).run w
      = ⟨⟨columns, .ok ()⟩, w, []⟩ := by
  induction ts with
  | nil =>
      cases columns
      rfl
  | cons t ts ih =>
      cases columns with
      | cons cell cells =>
          have howned : t.classify.isOwnedRelation = false := by
            rw [FieldType.isOwnedRelation, (htypes t List.mem_cons_self).relation_eq]
            rfl
          have hrest := ih (fun t' ht' => htypes t' (List.mem_cons_of_mem _ ht')) cells
          rw [insertOwned, howned]
          simp only [Bool.false_eq_true, if_false, Action.run_bind, Action.run_pure, hrest,
            List.append_nil]

/-- A record without relations has no links. -/
theorem insertLinks_exec (hexact : (c.model k).IsExact) (b : Bound c k) (w : World σ) :
    (insertLinks b : Task d Unit).exec w = ⟨.ok (), w, []⟩ := by
  rw [insertLinks, Bound.relations_of_exact hexact]
  rfl

/-- The row of a record is inserted by one call. -/
theorem insertRow_exec {b : Bound c k} {s : Sql.Statement} (hs : b.insertRow = .ok s)
    (w : World σ) :
    (insertRow b : Task d UInt64).exec w =
      { value := (d.step (.insert s) w.driver).1.mapError .driver
        world := { w with driver := (d.step (.insert s) w.driver).2 }
        journal := [.event (.statement .insert s),
          .call (.insert s) (d.step (.insert s) w.driver).1] } := by
  have hofExcept : ((Task.ofExcept b.insertRow : Task d Sql.Statement).exec w).value = .ok s := hs
  rw [insertRow, Task.exec_bind_of_ok hofExcept]
  rfl

/-- A record whose row is inserted is left with its key captured, and its links are inserted. -/
theorem insertSelf_run {b captured : Bound c k} {s : Sql.Statement} {id : UInt64} {w : World σ}
    (hs : b.insertRow = .ok s) (hanswer : (d.step (.insert s) w.driver).1 = .ok id)
    (hcapture : captureKey b id = .ok captured) :
    (insertSelf (d := d) b).run w =
      let links := (insertLinks captured : Task d Unit).exec
        { w with driver := (d.step (.insert s) w.driver).2 }
      { value := ⟨captured.columns, links.value⟩
        world := links.world
        journal := [.event (.statement .insert s), .call (.insert s) (.ok id)] ++ links.journal } := by
  have hrow : (insertRow (d := d) b).run.run w = _ := insertRow_exec hs w
  have hlinks : (insertLinks (d := d) captured).run.run
      { w with driver := (d.step (.insert s) w.driver).2 } = (insertLinks captured).exec _ := rfl
  rw [insertSelf, Action.run_bind, hrow]
  simp only [hanswer, Except.mapError, hcapture]
  rw [Action.run_bind, hlinks]
  simp only [Action.run_pure, List.append_nil]

/-- A record is inserted after the records it owns, if all of these can be inserted. -/
theorem insertHeld_run {b captured : Bound c k} {owned : Columns c (c.model k).columnTypes}
    {s : Sql.Statement} {id : UInt64} {w v after : World σ} {first links : List Entry}
    (hb : b.columns.bind = .ok b)
    (howned : (insertOwned (d := d) b.columns).run w = ⟨⟨owned, .ok ()⟩, v, first⟩)
    (hs : Bound.insertRow { b with columns := owned } = .ok s)
    (hanswer : (d.step (.insert s) v.driver).1 = .ok id)
    (hcapture : captureKey { b with columns := owned } id = .ok captured)
    (hlinks : (insertLinks (d := d) captured).exec
      { v with driver := (d.step (.insert s) v.driver).2 } = ⟨.ok (), after, links⟩) :
    (insertHeld (d := d) (.entity b.columns : Cell c (.entity k))).run w =
      { value := ⟨.entity captured.columns, .ok ()⟩
        world := after
        journal := first ++
          ([.event (.statement .insert s), .call (.insert s) (.ok id)] ++ links) } := by
  have hself := insertSelf_run hs hanswer hcapture
  rw [insertHeld, hb]
  simp only [Action.run_bind, howned, hself, hlinks, Action.run_pure, List.append_nil]

/-- A record without relations whose row is inserted is left with its key captured. -/
theorem insertSelf_run_of_exact (hexact : (c.model k).IsExact) {b captured : Bound c k}
    {s : Sql.Statement} {id : UInt64} {w : World σ} (hs : b.insertRow = .ok s)
    (hanswer : (d.step (.insert s) w.driver).1 = .ok id)
    (hcapture : captureKey b id = .ok captured) :
    (insertSelf (d := d) b).run w =
      { value := ⟨captured.columns, .ok ()⟩
        world := { w with driver := (d.step (.insert s) w.driver).2 }
        journal := [.event (.statement .insert s), .call (.insert s) (.ok id)] } := by
  rw [insertSelf_run hs hanswer hcapture, insertLinks_exec hexact]
  rfl

/-- A record is left with its key captured only where its row was inserted. -/
theorem insertSelf_ok {b : Bound c k} {w : World σ}
    (h : ((insertSelf (d := d) b).run w).value.result = .ok ()) :
    ∃ s id captured, b.insertRow = .ok s ∧ (d.step (.insert s) w.driver).1 = .ok id ∧
      captureKey b id = .ok captured := by
  have hexec : (insertRow (d := d) b).run.run w = (insertRow b).exec w := rfl
  cases hs : b.insertRow with
  | error e =>
      have hfailed : (insertRow (d := d) b).exec w = ⟨.error e, w, []⟩ := by
        rw [insertRow, hs]
        rfl
      rw [insertSelf, Action.run_bind, hexec, hfailed] at h
      cases h
  | ok s =>
      rw [insertSelf, Action.run_bind, hexec, insertRow_exec hs] at h
      cases hanswer : (d.step (.insert s) w.driver).1 with
      | error e =>
          rw [hanswer] at h
          cases h
      | ok id =>
          rw [hanswer] at h
          cases hcapture : captureKey b id with
          | error e =>
              simp only [Except.mapError, hcapture] at h
              cases h
          | ok captured => exact ⟨s, id, captured, rfl, hanswer, hcapture⟩

/-- Inserting a record is inserting the content that holds it. -/
theorem insertRecord_run_of_held {columns : Columns c (c.model k).columnTypes} {w : World σ}
    {left : Columns c (c.model k).columnTypes} {result : Except MapperError Unit} {after : World σ}
    {journal : List Entry}
    (h : (insertHeld (d := d) (.entity columns : Cell c (.entity k))).run w
      = ⟨⟨.entity left, result⟩, after, journal⟩) :
    (insertRecord (d := d) ⟨k, columns⟩).run w = ⟨⟨⟨k, left⟩, result⟩, after, journal⟩ := by
  rw [insertRecord, Action.run_bind, h]
  simp only [Action.run_pure, List.append_nil]

/-- Inserting a record that owns no others is inserting its row. -/
theorem insertRecord_run (hexact : (c.model k).IsExact) {b : Bound c k}
    (hb : b.columns.bind = .ok b) (w : World σ) :
    (insertRecord (d := d) ⟨k, b.columns⟩).run w =
      { value := ⟨⟨k, ((insertSelf (d := d) b).run w).value.storage⟩,
          ((insertSelf (d := d) b).run w).value.result⟩
        world := ((insertSelf (d := d) b).run w).world
        journal := ((insertSelf (d := d) b).run w).journal } := by
  have howned : (insertOwned (d := d) b.columns).run w = ⟨⟨b.columns, .ok ()⟩, w, []⟩ :=
    insertOwned_run (fun t ht => hexact.columnTypes ht) b.columns w
  rw [insertRecord, Action.run_bind, insertHeld, hb]
  simp only [Action.run_bind, howned, Action.run_pure, List.append_nil, List.nil_append]

/-- Only a record that binds to a description is inserted. -/
theorem bind_of_insert {columns : Columns c (c.model k).columnTypes} {w : World σ}
    (h : ((insert (d := d) ⟨k, columns⟩).run w).value.result = .ok ()) :
    ∃ b, columns.bind = .ok b := by
  rw [insert, Staged.run_operate] at h
  obtain ⟨bound, hbound, -⟩ := Staged.ok_of_exec_bind h
  obtain ⟨dependencies, -, hbound⟩ := bind_eq_ok.1 hbound
  obtain ⟨b, hb, -⟩ := bind_eq_ok.1 hbound
  exact ⟨b, hb⟩

/-- What inserting a record that is stored exactly leads to: one insertion, of its row. -/
theorem insert_ok (hexact : (c.model k).IsExact) {b : Bound c k} (hb : b.columns.bind = .ok b)
    {w : World σ} (h : ((insert (d := d) ⟨k, b.columns⟩).run w).value.result = .ok ()) :
    ∃ s id captured, b.insertRow = .ok s ∧ captureKey b id = .ok captured ∧
      ((insert (d := d) ⟨k, b.columns⟩).run w).value
        = ⟨⟨k, captured.columns⟩, .ok ()⟩ ∧
      ((insert (d := d) ⟨k, b.columns⟩).run w).world.cache.check
        (c.model k).table (c.model k).origin = .ok true ∧
      ∀ t answer, .call (.insert t) answer ∈
          ((insert (d := d) ⟨k, b.columns⟩).run w).journal ↔
        t = s ∧ answer = .ok id := by
  have hrelations := Models.relations_of_exact hexact b.described
  -- The insertion is the last step, and everything before it is work on the schema.
  have hleads : Staged.Leads (d := d) (do
      let (_, dependencies) ← Staged.ofExcept (Record.introspect ⟨k, b.columns⟩)
      Staged.advance .schemaEnsuring
      Staged.task (ensureSchema c k dependencies)
      Staged.advance .executing
      Staged.attempt insertRecord)
      ⟨.insert, (c.model k).name, .introspecting, ⟨k, b.columns⟩⟩ w fun _ p w' journal =>
        ∃ s id captured before, b.insertRow = .ok s ∧ captureKey b id = .ok captured ∧
          p.storage = ⟨k, captured.columns⟩ ∧
          w'.cache.check (c.model k).table (c.model k).origin = .ok true ∧
          journal = before ++ [.event (.statement .insert s), .call (.insert s) (.ok id)] ∧
          ∀ entry ∈ before, Entry.IsSchemaWork entry := by
    refine .bind (fun bound p w' journal => bound = (b, []) ∧ p.storage = ⟨k, b.columns⟩ ∧ w' = w ∧
      journal = []) (.ofExcept fun bound hbound => ?_) ?_
    · rw [Record.introspect_of_exact hexact hb] at hbound
      exact ⟨(Except.ok.inj hbound).symm, rfl, rfl, rfl⟩
    rintro _ p w _ ⟨rfl, hstorage, rfl, rfl⟩
    refine .bind (fun _ p w' journal => p.storage = ⟨k, b.columns⟩ ∧ w' = w ∧
      ∀ entry ∈ journal, Entry.IsSchemaWork entry)
      (.advance ⟨hstorage, rfl, by simp [Entry.IsSchemaWork]⟩) ?_
    rintro _ p w began ⟨hstorage, rfl, hbegan⟩
    have hschema : (ensureSchema c k [] : Task d Unit).Leads w fun _ w' journal =>
        w'.cache.check (c.model k).table (c.model k).origin = .ok true ∧
          ∀ entry ∈ journal, Entry.IsSchemaWork entry :=
      fun a ha => ⟨ensureSchema_leads hrelations a ha, ensureSchema_journals k [] w⟩
    refine .bind (fun _ p w' journal => p.storage = ⟨k, b.columns⟩ ∧
      w'.cache.check (c.model k).table (c.model k).origin = .ok true ∧
      ∀ entry ∈ journal, Entry.IsSchemaWork entry)
      (.task hschema fun _ _ _ hafter => ⟨hstorage, hafter⟩) ?_
    rintro _ p w' ensured ⟨hstorage, hcheck, hensured⟩
    refine .bind (fun _ p w'' journal => p.storage = ⟨k, b.columns⟩ ∧ w'' = w' ∧
      ∀ entry ∈ journal, Entry.IsSchemaWork entry)
      (.advance ⟨hstorage, rfl, by simp [Entry.IsSchemaWork]⟩) ?_
    rintro _ p w executing ⟨hstorage, rfl, hexecuting⟩
    refine .attempt fun a ha => ?_
    rw [hstorage, insertRecord_run hexact hb] at ha ⊢
    obtain ⟨s, id, captured, hs, hanswer, hcapture⟩ := insertSelf_ok ha
    rw [insertSelf_run_of_exact hexact hs hanswer hcapture]
    refine ⟨s, id, captured, began ++ (ensured ++ executing), hs, hcapture, rfl, hcheck, ?_, ?_⟩
    · simp
    · simp only [List.mem_append]
      rintro entry (hentry | hentry | hentry)
      exacts [hbegan entry hentry, hensured entry hentry, hexecuting entry hentry]
  obtain ⟨a, p, journal, final, hvalue, hjournal, s, id, captured, before, hs, hcapture, hstorage,
    hcheck, rfl, hbefore⟩ := hleads.operate ⟨(), h⟩
  refine ⟨s, id, captured, hs, hcapture, ?_, hcheck, fun t answer => ?_⟩
  · rw [← hstorage]
    exact hvalue
  · have hschema : Entry.call (.insert t) answer ∉ before := hbefore _
    rw [insert, hjournal]
    constructor
    · intro hmem
      have hcall : Entry.call (.insert t) answer = .call (.insert s) (.ok id) := by
        simpa only [List.mem_cons, List.mem_append, List.not_mem_nil, reduceCtorEq, hschema,
          false_or, or_false] using hmem
      cases hcall
      exact ⟨rfl, rfl⟩
    · rintro ⟨rfl, rfl⟩
      simp

/-- A record is inserted into a table that the cache knows by one call. -/
theorem insert_run_known (hexact : (c.model k).IsExact) {b captured : Bound c k}
    (hb : b.columns.bind = .ok b) {s : Sql.Statement} {id : UInt64} {w : World σ}
    (hcheck : w.cache.check (c.model k).table (c.model k).origin = .ok true)
    (hs : b.insertRow = .ok s) (hanswer : (d.step (.insert s) w.driver).1 = .ok id)
    (hcapture : captureKey b id = .ok captured) :
    (insert (d := d) ⟨k, b.columns⟩).run w =
      { value := ⟨⟨k, captured.columns⟩, .ok ()⟩
        world := { w with driver := (d.step (.insert s) w.driver).2 }
        journal := [.event (.began .insert (c.model k).name),
          .event (.advanced .insert (c.model k).name .introspecting .schemaEnsuring),
          .event (.advanced .insert (c.model k).name .schemaEnsuring .executing),
          .event (.statement .insert s), .call (.insert s) (.ok id),
          .event (.advanced .insert (c.model k).name .executing .done)] } := by
  have hrelations := Models.relations_of_exact hexact b.described
  rw [insert, Staged.run_operate]
  simp only [Staged.exec_bind, Staged.exec_ofExcept, Record.introspect_of_exact hexact hb,
    Staged.exec_advance, Staged.exec_task, ensureSchema_known_alone hrelations hcheck,
    Staged.exec_attempt, insertRecord_run hexact hb, insertSelf_run_of_exact hexact hs hanswer hcapture,
    Staged.closing, List.nil_append, List.cons_append]

end Session

end EntityMapper
