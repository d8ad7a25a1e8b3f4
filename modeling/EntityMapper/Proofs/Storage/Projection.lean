import EntityMapper.Proofs.Number.Rounding
import EntityMapper.Proofs.Storage.Agreement

/-!
# Building from what was read

Building a content is a projection onto what contents read as: what a built content reads as builds
the same content again (`Catalog.build_value`). Every content without records comes back from what
it reads as (`Cell.build_value`), but for a present option that holds nothing, which comes back as
an absent one.
-/

namespace EntityMapper

variable {n : Nat} {c : Catalog n} {k : Fin n} {t : ColumnType n} {v w : Value}

/-! ## Contents that are nothing -/

/-- Whether a content is nothing: an absent option, under any others and boxes, or the nil of a
content that takes any value. -/
def Cell.isNothing : {t : ColumnType n} → Cell c t → Bool
  | _, .absent => true
  | _, .present inner | _, .boxed inner => inner.isNothing
  | _, .raw v => v.isNil
  | _, _ => false

/-- A content reads as nil exactly when it is nothing. -/
theorem Cell.isNil_value_eq (cell : Cell c t) : cell.value.isNil = cell.isNothing := by
  induction t with
  | integer kind =>
      cases cell
      rw [value]
      split <;> rfl
  | nullable t ih =>
      cases cell with
      | absent => rfl
      | present inner => exact ih inner
  | boxed t ih =>
      cases cell with
      | boxed inner => exact ih inner
  | bool | float | double | text | dateTime | raw | entity | list =>
      cases cell
      rfl

mutual

/-- A content whose present options that hold nothing are absent. -/
def Cell.collapsed : {t : ColumnType n} → Cell c t → Cell c t
  | _, .present inner => if inner.isNothing then .absent else .present inner.collapsed
  | _, .boxed inner => .boxed inner.collapsed
  | _, .list items => .list items.collapsed
  | _, cell => cell

/-- The items of a list with their present options that hold nothing absent. -/
def Items.collapsed : {t : ColumnType n} → Items c t → Items c t
  | _, .nil => .nil
  | _, .cons item items => .cons item.collapsed items.collapsed

end

mutual

/-- Whether no present option of a content holds nothing. -/
def Cell.isTight : {t : ColumnType n} → Cell c t → Bool
  | _, .present inner => !inner.isNothing && inner.isTight
  | _, .boxed inner => inner.isTight
  | _, .list items => items.isTight
  | _, _ => true

/-- Whether no present option of the items of a list holds nothing. -/
def Items.isTight : {t : ColumnType n} → Items c t → Bool
  | _, .nil => true
  | _, .cons item items => item.isTight && items.isTight

end

mutual

/-- Nothing collapses where no present option holds nothing. -/
theorem Cell.collapsed_of_isTight : {t : ColumnType n} → (cell : Cell c t) →
    cell.isTight = true → cell.collapsed = cell
  | _, .present inner, h => by
      rw [Cell.isTight, Bool.and_eq_true, Bool.not_eq_true'] at h
      rw [Cell.collapsed, h.1, inner.collapsed_of_isTight h.2]
      rfl
  | _, .boxed inner, h => by rw [Cell.collapsed, inner.collapsed_of_isTight h]
  | _, .list items, h => by rw [Cell.collapsed, items.collapsed_of_isTight h]
  | _, .bool _, _ | _, .integer _ _, _ | _, .float _, _ | _, .double _, _ | _, .text _, _
  | _, .dateTime _, _ | _, .raw _, _ | _, .entity _, _ | _, .absent, _ => rfl

theorem Items.collapsed_of_isTight : {t : ColumnType n} → (items : Items c t) →
    items.isTight = true → items.collapsed = items
  | _, .nil, _ => rfl
  | _, .cons item items, h => by
      rw [Items.isTight, Bool.and_eq_true] at h
      rw [Items.collapsed, item.collapsed_of_isTight h.1, items.collapsed_of_isTight h.2]

end

/-! ## Contents without records -/

/-- A number is built from what it reads as. -/
theorem Cell.build_float (x : Binary32) :
    c.build .float (Cell.float x : Cell c .float).value = .ok (.float x) := by
  rw [Catalog.build, value, Value.toFloat]
  exact congrArg (Except.ok ∘ Cell.float)
    (Binary.convert_convert BinaryFormat.single_within_double x)

mutual

/-- A content without records is built from what it reads as, with its options collapsed. -/
theorem Cell.build_value : {t : ColumnType n} → (hbase : t.base? = none) → (cell : Cell c t) →
    c.build t cell.value = .ok cell.collapsed
  | _, _, .bool _ | _, _, .double _ | _, _, .text _ | _, _, .dateTime _ | _, _, .raw _
  | _, _, .absent => by
      rw [Catalog.build]
      rfl
  | _, _, .integer _ holds => Catalog.build_integer holds (Cell.value_toInteger holds)
  | _, _, .float x => Cell.build_float x
  | .nullable t, hbase, .present inner => by
      rw [Catalog.build, Cell.value, Cell.collapsed, inner.isNil_value_eq,
        inner.build_value (t := t) hbase]
      split <;> rfl
  | .boxed t, hbase, .boxed inner => by
      rw [Catalog.build, Cell.value, inner.build_value (t := t) hbase]
      rfl
  | .list t, hbase, .list items => by
      rw [Catalog.build]
      have hitems := items.build_values (t := t) hbase
      refine bind_eq_ok.2 ⟨items.values, rfl, bind_eq_ok.2 ⟨_, hitems, ?_⟩⟩
      rw [Items.ofList_toList]
      rfl

/-- Items without records are built from what they read as, with their options collapsed. -/
theorem Items.build_values : {t : ColumnType n} → (hbase : t.base? = none) → (items : Items c t) →
    items.values.mapM (c.build t) = .ok items.collapsed.toList
  | _, _, .nil => rfl
  | _, hbase, .cons item items => by
      rw [mapM_eq_ok_iff]
      exact .cons (item.build_value hbase) (mapM_eq_ok_iff.1 (items.build_values hbase))

end

/-! ## Contents that were built -/

/-- A key is no reference. -/
theorem Value.key_key : (v : Value) → v.key.key = v.key
  | reference inner => inner.key_key
  | nil | bool _ | int _ | uint _ | float _ | text _ | dateTime _ | list _ => rfl

/-- Whether a value builds a content as another one does, and is nil only where the other one is. -/
structure Cell.Restores (x : Cell c t) (v w : Value) : Prop where
  build : c.build t w = .ok x
  nil : w.isNil = true → v.isNil = true

namespace Cell.Restores

variable {x : Cell c t}

theorem present (h : x.Restores v w) (hv : v.isNil = false) : (Cell.present x).Restores v w := by
  have hw : w.isNil = false := by
    cases hw : w.isNil with
    | false => rfl
    | true => exact (h.nil hw).symm.trans hv
  refine ⟨?_, h.nil⟩
  rw [Catalog.build, hw, h.build]
  rfl

theorem boxed (h : x.Restores v w) : (Cell.boxed x).Restores v w := by
  refine ⟨?_, h.nil⟩
  rw [Catalog.build, h.build]
  rfl

/-- What builds a content and neither is nil nor leads to a key restores the content. -/
theorem of_plain (hbuild : c.build t w = .ok x) (hnil : w.isNil = false) (hkey : w.key = w) :
    x.Restores v w ∧ (v.key = v → x.Restores v w.key) := by
  have hrestores : x.Restores v w := ⟨hbuild, fun h => absurd (hnil ▸ h) Bool.false_ne_true⟩
  exact ⟨hrestores, fun _ => hkey.symm ▸ hrestores⟩

end Cell.Restores

/-- Items read as their values. -/
theorem Items.values_ofList (cells : List (Cell c t)) :
    (Items.ofList cells).values = cells.map Cell.value := by
  induction cells with
  | nil => rfl
  | cons cell cells ih => rw [ofList, values, ih, List.map_cons]

namespace Catalog

/-- A record is built from the key that a value leads to, and reads as a reference to it. -/
theorem build_entity_ok {x : Cell c (.entity k)} (h : c.build (.entity k) v = .ok x) :
    ∃ f ∈ (c.model k).fields, f.isKey = true ∧ ∃ key : Cell c f.type,
      c.build f.type v.key = .ok key ∧ x.value = .reference key.value ∧
        ∀ w, c.build f.type w.key = .ok key → c.build (.entity k) w = .ok x := by
  cases hfound : (c.model k).offeredKeyField? with
  | none =>
      rw [build, hfound] at h
      cases h
  | some found =>
      obtain ⟨⟨index, f⟩, hf, hkey⟩ := found
      have hindex := EntityModel.offeredKey?_of_field hfound
      rw [build, hfound] at h
      obtain ⟨key, hbuild, h⟩ := bind_eq_ok.1 h
      cases h
      refine ⟨f, List.mem_of_getElem? hf, hkey, key, hbuild, Cell.value_replaceAt hindex, ?_⟩
      intro w hw
      rw [build, hfound]
      exact bind_eq_ok.2 ⟨key, hw, rfl⟩

/-- What a content reads as restores it, and so does the key that this leads to where the content
was built from a key. -/
theorem restores : (t : ColumnType n) → {v : Value} → {x : Cell c t} → c.build t v = .ok x →
    x.Restores v x.value ∧ (v.key = v → x.Restores v x.value.key)
  | .bool, _, .bool _, _ | .float, _, .float _, _ | .double, _, .double _, _
  | .text, _, .text _, _ | .dateTime, _, .dateTime _, _ =>
      Cell.Restores.of_plain (Cell.build_value rfl _) rfl rfl
  | .integer _, _, .integer _ _, _ => by
      refine Cell.Restores.of_plain (Cell.build_value rfl _) ?_ ?_
      all_goals
        rw [Cell.value]
        split <;> rfl
  | .raw, v, x, h => by
      rw [build] at h
      cases h
      have hrestores : (Cell.raw v : Cell c .raw).Restores v v := ⟨by rw [build], id⟩
      refine ⟨hrestores, fun hv => ?_⟩
      rw [Cell.value, hv]
      exact hrestores
  | .entity k, v, x, h => by
      obtain ⟨f, hf, hkey, y, hy, hvalue, hbuilds⟩ := build_entity_ok h
      have hrestores := (restores f.type hy).2 v.key_key
      rw [hvalue]
      refine ⟨⟨hbuilds _ hrestores.build, nofun⟩, fun hv => ⟨hbuilds _ ?_, fun hnil => ?_⟩⟩
      · rw [Value.key_key]
        exact hrestores.build
      · exact hv ▸ hrestores.nil hnil
  | .nullable t, v, x, h => by
      rw [build] at h
      split at h
      · rename_i hnil
        cases h
        have hrestores : (Cell.absent : Cell c (.nullable t)).Restores v .nil :=
          ⟨by rw [build]; rfl, fun _ => hnil⟩
        exact ⟨hrestores, fun _ => hrestores⟩
      · rename_i hnil
        have hnil := Bool.eq_false_iff.2 hnil
        obtain ⟨y, hy, h⟩ := bind_eq_ok.1 h
        cases h
        obtain ⟨hvalue, hkey⟩ := restores t hy
        exact ⟨hvalue.present hnil, fun hv => (hkey hv).present hnil⟩
  | .boxed t, v, x, h => by
      rw [build] at h
      obtain ⟨y, hy, h⟩ := bind_eq_ok.1 h
      cases h
      obtain ⟨hvalue, hkey⟩ := restores t hy
      exact ⟨hvalue.boxed, fun hv => (hkey hv).boxed⟩
  | .list t, v, x, h => by
      rw [build] at h
      obtain ⟨values, hvalues, h⟩ := bind_eq_ok.1 h
      obtain ⟨cells, hcells, h⟩ := bind_eq_ok.1 h
      cases h
      have hitem : ∀ {v y}, c.build t v = .ok y → c.build t y.value = .ok y :=
        fun hy => (restores t hy).1.build
      refine Cell.Restores.of_plain ?_ rfl rfl
      rw [build]
      refine bind_eq_ok.2 ⟨_, rfl, bind_eq_ok.2 ⟨cells, ?_, rfl⟩⟩
      rw [Items.values_ofList, mapM_eq_ok_iff, List.forall₂_map_left_iff, List.forall₂_same]
      intro y hy
      obtain ⟨v', -, hv'⟩ := exists_of_forall₂ (mapM_eq_ok_iff.1 hcells) hy
      exact hitem hv'
termination_by t => (c.baseRank t, t.depth)
decreasing_by
  · exact Prod.Lex.left _ _ (c.baseRank_key_lt hf hkey)
  all_goals exact Prod.Lex.right _ (by simp [ColumnType.depth])

/-- Building is a projection onto what contents read as. A content that was built from some value is
built again, in full, from what it reads as. A content without records, wherever it comes from, is
built from what it reads as with its options collapsed, so that it comes back as it was unless a
present option in it holds nothing. -/
theorem build_projects (c : Catalog n) (t : ColumnType n) :
    (∀ v x, c.build t v = .ok x → c.build t x.value = .ok x) ∧
      (t.base? = none → ∀ x : Cell c t, c.build t x.value = .ok x.collapsed ∧
        (x.isTight = true → c.build t x.value = .ok x)) := by
  refine ⟨fun v x h => (restores t h).1.build, fun hbase x => ⟨x.build_value hbase, fun h => ?_⟩⟩
  rw [x.build_value hbase, x.collapsed_of_isTight h]

/-- A label that was built from its code within references is built again from the reference that it
reads as. The least number of eight bits comes back through two options, and a present option of
nothing comes back as nothing. -/
theorem build_projects_shelf :
    shelf.build (.nullable (.boxed (.entity 0))) (.reference (.reference (.text "b")))
        = .ok (labelled "b" "") ∧
      shelf.build (.nullable (.boxed (.entity 0))) (labelled "b" "").value
        = .ok (labelled "b" "") ∧
      let t := .nullable (.nullable (.integer .int8))
      let least : Cell shelf t := .present (.present (.integer (-128) (by decide)))
      let nothing : Cell shelf t := .present .absent
      shelf.build t least.value = .ok least ∧ shelf.build t nothing.value = .ok .absent := by
  have hbuilt : shelf.build (.nullable (.boxed (.entity 0))) (.reference (.reference (.text "b")))
      = .ok (labelled "b" "") := by
    rw [build, build, build_label]
    rfl
  obtain ⟨hagain, -⟩ := build_projects shelf (.nullable (.boxed (.entity 0)))
  obtain ⟨-, hback⟩ := build_projects shelf (.nullable (.nullable (.integer .int8)))
  exact ⟨hbuilt, hagain _ _ hbuilt, (hback rfl _).2 rfl, (hback rfl _).1⟩

end Catalog

end EntityMapper
