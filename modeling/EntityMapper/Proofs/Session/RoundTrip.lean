import EntityMapper.Proofs.Session.Insert
import EntityMapper.Proofs.Session.Query

/-!
# Querying what was inserted

A query of any record with the key of an inserted one, on a driver that serves the row that the
insertion stored, leaves the inserted record (`query_reproduces_insert`), its date-times cut to
whole seconds.
-/

namespace EntityMapper

variable {n : Nat} {c : Catalog n} {k : Fin n} {σ : Type} {d : Driver σ}

namespace Session

/-- Inserting a record of a model that is stored exactly makes one insertion. A query of any record
with the same key then has a selection, and on every driver that never fails and serves the row of
the inserted literals and the generated id, it leaves the inserted record, settled: with its
date-times cut to whole seconds, where no pointer that may be nil is behind another one. -/
theorem query_reproduces_insert {ds : List (Descriptor n)} (hds : (c.model k).describe = .ok ds)
    (hexact : (c.model k).IsExact) (columns : Columns c (c.model k).columnTypes) (w : World σ)
    (hinsert : ((insert (d := d) ⟨k, columns⟩).run w).value.result = .ok ())
    (hkey : ((insert (d := d) ⟨k, columns⟩).run w).value.storage.key ≠ .nil) :
    ∃ after insertion id,
      ((insert (d := d) ⟨k, columns⟩).run w).value = ⟨⟨k, after⟩, .ok ()⟩ ∧
      (∀ t answer, .call (.insert t) answer ∈ ((insert (d := d) ⟨k, columns⟩).run w).journal ↔
        t = insertion ∧ answer = .ok id) ∧
      ((insert (d := d) ⟨k, columns⟩).run w).world.cache.Admits (c.model k).table
        (c.model k).origin ∧
      ((∀ f ∈ (c.model k).fields, f.type.IsFlat) → after.settled = after.wholeSeconds) ∧
      ∀ asked : Columns c (c.model k).columnTypes,
        Record.key ⟨k, asked⟩ = Record.key ⟨k, after⟩ →
        ∃ b selection, asked.bind = .ok b ∧ b.selectRow = .ok selection ∧
          ∀ {τ : Type} (d' : Driver τ) (w' : World τ),
            w'.cache.Admits (c.model k).table (c.model k).origin →
            (∀ entry ∈ ((query (d := d') ⟨k, asked⟩).run w').journal,
              entry.Serves (storedRow ds insertion id selection)) →
            ((query (d := d') ⟨k, asked⟩).run w').value = ⟨⟨k, after.settled⟩, .ok ()⟩ := by
  obtain ⟨b, hb⟩ := bind_of_insert hinsert
  obtain ⟨rfl, hoffered⟩ := Columns.bind_eq_ok_iff.1 hb
  obtain ⟨s, id, captured, hs, hcapture, hvalue, hcheck, hjournal⟩ := insert_ok hexact hb hinsert
  obtain rfl : b.descriptors = ds := Except.ok.inj (b.described.symm.trans hds)
  rw [hvalue] at hkey
  refine ⟨captured.columns, s, id, hvalue, hjournal, ⟨true, hcheck⟩, fun hflat => ?_,
    fun asked hsame => ?_⟩
  · apply Columns.settled_eq_wholeSeconds
    intro t ht
    obtain ⟨f, hf, rfl⟩ := List.mem_map.1 ht
    exact ⟨hexact.types f hf, hflat f hf⟩
  · have hasked : asked.bind = .ok { b with columns := asked } :=
      Columns.bind_eq_ok_iff.2 ⟨rfl, hoffered⟩
    obtain ⟨selection, hselection⟩ :=
      Bound.selectRow_succeeds hexact { b with columns := asked } (hsame ▸ hkey)
    have hrow := Bound.rebuilds_storedRow hexact hs hcapture hselection
    refine ⟨_, selection, hasked, hselection, fun d' w' hadmits hserves => ?_⟩
    exact query_ok hexact hasked hselection hrow hadmits hserves

/-! ## A diary -/

/-- Days with a generated key. -/
def diary : Catalog 1 where
  model _ :=
    { ident := "Day", path := "diary", explicitName := none
      fields := [⟨"id", "id key auto", .integer .int64⟩, ⟨"note", "note", .nullable .text⟩,
        ⟨"title", "title", .text⟩, ⟨"at", "at", .dateTime⟩, ⟨"tags", "tags", .list .text⟩]
      offered := none }
  rank _ := 0
  rank_lt := by decide +kernel

/-- The moment before noon on the ides of March, in the year -43. -/
def ides (nanosecond : Nat) (hrange : nanosecond ≤ 999999999) : DateTime where
  year := -43
  month := 3
  day := 15
  hour := 11
  minute := 30
  second := 5
  nanosecond := nanosecond
  year_range := by decide
  month_range := by decide
  day_range := by decide
  hour_range := by decide
  minute_range := by decide
  second_range := by decide
  nanosecond_range := hrange

/-- A day of the diary. -/
def day (id : Int) (hid : IntegerKind.int64.Holds id) (note : Cell diary (.nullable .text))
    (title : String) (at' : DateTime) (tags : List String) : Bound diary 0 where
  columns := .cons (.integer id hid) (.cons note (.cons (.text title) (.cons (.dateTime at')
    (.cons (.list (.ofList (tags.map .text))) .nil))))
  descriptors :=
    [⟨0, "id", ⟨"id", true, true, FieldTag.id_ne, FieldTag.id_chars⟩, .scalar (.integer .int64)⟩,
      ⟨1, "note", ⟨"note", false, false, by decide, by decide⟩, ⟨.text, true, true, none⟩⟩,
      ⟨2, "title", ⟨"title", false, false, by decide, by decide⟩, .scalar .text⟩,
      ⟨3, "at", ⟨"at", false, false, by decide, by decide⟩, .scalar .dateTime⟩,
      ⟨4, "tags", ⟨"tags", false, false, by decide, by decide⟩, .scalar .list⟩]
  described := by decide +kernel

/-- A day as it is written: the key is not known yet, and the time has a fraction of a second. -/
def writtenDay : Bound diary 0 :=
  day 0 (by decide) .absent "it's a \\" (ides 700000000 (by decide)) ["a'b", "\""]

/-- The day with the key that the database generates. -/
def storedDay : Bound diary 0 :=
  day 1 (by decide) .absent "it's a \\" (ides 700000000 (by decide)) ["a'b", "\""]

/-- The day as it is read back. -/
def readDay : Bound diary 0 :=
  day 1 (by decide) .absent "it's a \\" (ides 0 DateTime.epoch.nanosecond_range) ["a'b", "\""]

/-- Another day with the same key. -/
def askedDay : Bound diary 0 := day 1 (by decide) (.present (.text "?")) "" .epoch []

/-- The statement that inserts the day. -/
def dayInsertion : Sql.Statement := .insertRow "diary_Day"
  [⟨"title", .string "it's a \\"⟩, ⟨"at", .string "-0043-03-15 11:30:05"⟩,
    ⟨"tags", .string "[\"a'b\",\"\\\"\"]"⟩]

/-- The row of the day. -/
def dayRow : List Value :=
  [.uint 1, .nil, .text "it's a \\", .text "-0043-03-15 11:30:05", .text "[\"a'b\",\"\\\"\"]"]

/-- A cache that knows the table of the diary. -/
def diaryCache : SchemaCache := SchemaCache.empty.put (.ofModel (diary.model 0))

theorem diary_isExact : (diary.model 0).IsExact := by decide +kernel

/-- The columns of a day are offered as the diary declares them. -/
theorem bind_diary (b : Bound diary 0) : b.columns.bind = .ok b := by
  refine Columns.bind_eq_ok_iff.2 ⟨rfl, ?_⟩
  rw [b.descriptors_length]
  decide +kernel

theorem check_diaryCache :
    diaryCache.check (diary.model 0).table (diary.model 0).origin = .ok true :=
  check_put _ _

/-- The key of a written day is the generated id. -/
theorem captureKey_writtenDay : captureKey writtenDay 1 = .ok storedDay := by
  have hassign : writtenDay.columns.assignAt 0 (.uint 1) = .ok storedDay.columns := by
    refine bind_eq_ok.2 ⟨.integer 1 (by decide), ?_, rfl⟩
    rw [Cell.assign_eq_build (t := .integer .int64) trivial]
    exact Catalog.build_integer (by decide) rfl
  show Except.mapError MapperError.value (writtenDay.assignAt 0 (.uint 1)) = _
  rw [Bound.assignAt, hassign]
  rfl

/-- A day that is written with quotes, a backslash, a nil between other columns and a negative year
is read back as it was written, up to the fraction of the second. -/
theorem writtenDay_reproduced :
    ((insert (d := Recorded.driver) ⟨0, writtenDay.columns⟩).run
        ⟨.fresh, diaryCache⟩).value.result = .ok () ∧
      ((query (d := Recorded.driver) ⟨0, askedDay.columns⟩).run
        ⟨Recorded.fresh.pushRows [dayRow], diaryCache⟩).value = ⟨⟨0, readDay.columns⟩, .ok ()⟩ := by
  have hinsertion : writtenDay.insertRow = .ok dayInsertion := by decide +kernel
  have hanswer : (Recorded.driver.step (.insert dayInsertion) Recorded.fresh).1
      = .ok (1 : UInt64) := rfl
  have hrun := insert_run_known (w := ⟨Recorded.fresh, diaryCache⟩) diary_isExact (bind_diary _)
    check_diaryCache hinsertion hanswer captureKey_writtenDay
  have hoffered : (diary.model 0).offeredKey? = some 0 := by decide +kernel
  have hkey : ∀ {columns : Columns diary (diary.model 0).columnTypes},
      columns.valueAt 0 = .int 1 → Record.key ⟨0, columns⟩ = .int 1 := by
    intro columns hvalue
    rw [Record.key_eq hoffered, hvalue]
    rfl
  refine ⟨by rw [hrun], ?_⟩
  obtain ⟨after, insertion, id, hvalue, hcalls, -, -, hquery⟩ :=
    query_reproduces_insert (d := Recorded.driver) writtenDay.described diary_isExact
      writtenDay.columns ⟨.fresh, diaryCache⟩ (by rw [hrun]) (by rw [hrun, hkey rfl]; exact Value.noConfusion)
  -- The journal shows which insertion was made and which id was answered.
  obtain ⟨rfl, hid⟩ := (hcalls dayInsertion (.ok (1 : UInt64))).1 (by rw [hrun]; simp)
  obtain rfl := Except.ok.inj hid
  rw [hrun] at hvalue
  cases hvalue
  obtain ⟨b, selection, hb, hselection, hserve⟩ :=
    hquery askedDay.columns ((hkey rfl).trans (hkey rfl).symm)
  obtain rfl := Except.ok.inj ((bind_diary _).symm.trans hb)
  have hselect : askedDay.selectRow = .ok (.selectRow "diary_Day"
      ["id", "note", "title", "at", "tags"] ⟨"id", .integer 1⟩) := by
    decide +kernel
  obtain rfl := Except.ok.inj (hselect.symm.trans hselection)
  exact hserve Recorded.driver ⟨Recorded.fresh.pushRows [dayRow], diaryCache⟩
    ⟨true, check_diaryCache⟩ (query_serves diary_isExact (bind_diary _) check_diaryCache (fetchRow_recorded _ rfl rfl rfl))

end Session

end EntityMapper
