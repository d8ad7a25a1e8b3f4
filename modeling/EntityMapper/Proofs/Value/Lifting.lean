import EntityMapper.Proofs.Checked
import EntityMapper.Value.Json

/-!
# Lifting and lowering

Lowering a value to a document fails with the fault of its first leaf that has one, and lifting the
document gives the value back but for integers that are not negative, which come back unsigned, and
date-times, which come back as their texts (`Value.toJson_of_leaves`). Lifting a document and
lowering it again gives the document back but for its objects, which become texts in their places
(`Value.toJson_ofJson`).
-/

namespace EntityMapper

/-! ## Places in lists of lists -/

/-- The item of a value at a path of positions, list by list. -/
def Value.itemAt? : Value → List Nat → Option Value
  | v, [] => some v
  | .list items, i :: path => items[i]?.bind (·.itemAt? path)
  | _, _ :: _ => none

/-- The item of a document at a path of positions, array by array. -/
def Json.itemAt? : Json → List Nat → Option Json
  | j, [] => some j
  | .array items, i :: path => items[i]?.bind (·.itemAt? path)
  | _, _ :: _ => none

namespace Value

mutual

/-- What stands in a value, at any depth of lists, and is no list itself, from left to right. -/
def leaves : Value → List Value
  | list items => leavesOf items
  | v => [v]

/-- What stands in some values. -/
def leavesOf : List Value → List Value
  | [] => []
  | item :: items => item.leaves ++ leavesOf items

end

/-- Why a document cannot hold a value at all. -/
def fault? : Value → Option ValueError
  | reference _ => some .relationLiteral
  | float x => if x.isFinite then none else some (.nonFinite x)
  | _ => none

mutual

/-- A value as documents give it back. -/
def canonical : Value → Value
  | int n => if n < 0 then int n else uint n.toUInt64
  | dateTime t => text t.text
  | list items => list (canonicalOf items)
  | v => v

/-- Some values as documents give them back. -/
def canonicalOf : List Value → List Value
  | [] => []
  | item :: items => item.canonical :: canonicalOf items

end

end Value

namespace Json

mutual

/-- A document with its objects replaced by their texts. -/
def objectsAsText : Json → Json
  | array items => array (objectsAsTextOf items)
  | object members => string (object members).text
  | j => j

/-- Some documents with their objects replaced by their texts. -/
def objectsAsTextOf : List Json → List Json
  | [] => []
  | item :: items => item.objectsAsText :: objectsAsTextOf items

end

/-- Whether no object stands in a document, at any depth of arrays. -/
def ObjectFree (j : Json) : Prop := ∀ path members, j.itemAt? path ≠ some (object members)

/-- An array without objects has items without objects. -/
theorem ObjectFree.of_mem {items : List Json} (h : (array items).ObjectFree) {item : Json}
    (hitem : item ∈ items) : item.ObjectFree := by
  intro path members hobject
  obtain ⟨i, hi⟩ := List.mem_iff_getElem?.1 hitem
  refine h (i :: path) members ?_
  rw [itemAt?, hi]
  exact hobject

mutual

/-- Without objects nothing is replaced. -/
theorem objectsAsText_eq : (j : Json) → j.ObjectFree → j.objectsAsText = j
  | array items, h => congrArg array (objectsAsTextOf_eq items fun _ => h.of_mem)
  | object members, h => absurd rfl (h [] members)
  | null, _ | bool _, _ | number _, _ | string _, _ => rfl

/-- Without objects nothing is replaced in any item. -/
theorem objectsAsTextOf_eq : (items : List Json) → (∀ item ∈ items, item.ObjectFree) →
    objectsAsTextOf items = items
  | [], _ => rfl
  | item :: items, h => by
      rw [List.forall_mem_cons] at h
      rw [objectsAsTextOf, objectsAsText_eq item h.1, objectsAsTextOf_eq items h.2]

end

end Json

namespace Value

/-! ## Leaves and their places -/

theorem leavesOf_eq_flatMap (items : List Value) : leavesOf items = items.flatMap leaves := by
  induction items with
  | nil => rfl
  | cons item items ih => rw [leavesOf, ih, List.flatMap_cons]

mutual

/-- A leaf has a place and is no list. -/
theorem exists_itemAt?_of_mem_leaves {x : Value} : (v : Value) → x ∈ v.leaves →
    (∃ path, v.itemAt? path = some x) ∧ x.shape ≠ .list
  | list items, h => by
      obtain ⟨⟨i, path, hpath⟩, hshape⟩ := exists_itemAt?_of_mem_leavesOf items h
      exact ⟨⟨i :: path, hpath⟩, hshape⟩
  | nil, h | bool _, h | int _, h | uint _, h | float _, h | text _, h | dateTime _, h
  | reference _, h => by
      cases List.mem_singleton.1 h
      exact ⟨⟨[], rfl⟩, nofun⟩

/-- A leaf of some values has a place in one of them and is no list. -/
theorem exists_itemAt?_of_mem_leavesOf {x : Value} : (items : List Value) → x ∈ leavesOf items →
    (∃ (i : Nat) (path : List Nat), (items[i]?.bind (·.itemAt? path)) = some x) ∧ x.shape ≠ .list
  | item :: items, h => by
      rcases List.mem_append.1 h with h | h
      · obtain ⟨⟨path, hpath⟩, hshape⟩ := exists_itemAt?_of_mem_leaves item h
        exact ⟨⟨0, path, hpath⟩, hshape⟩
      · obtain ⟨⟨i, path, hpath⟩, hshape⟩ := exists_itemAt?_of_mem_leavesOf items h
        exact ⟨⟨i + 1, path, hpath⟩, hshape⟩

end

/-- The leaves of a value are what has a place in it and is no list. -/
theorem mem_leaves_iff {x v : Value} :
    x ∈ v.leaves ↔ (∃ path, v.itemAt? path = some x) ∧ x.shape ≠ .list := by
  refine ⟨exists_itemAt?_of_mem_leaves v, ?_⟩
  rintro ⟨⟨path, hpath⟩, hshape⟩
  induction path generalizing v with
  | nil =>
      cases hpath
      cases x with
      | list items => exact absurd rfl hshape
      | _ => exact List.mem_singleton_self _
  | cons i path ih =>
      cases v with
      | list items =>
          obtain ⟨item, hitem, hrest⟩ := Option.bind_eq_some_iff.1 hpath
          rw [leaves, leavesOf_eq_flatMap, List.mem_flatMap]
          exact ⟨item, List.mem_of_getElem? hitem, ih hrest⟩
      | _ => cases hpath

/-- Some leaf has a fault exactly when something has, wherever it stands. -/
theorem exists_fault_iff {v : Value} : (∃ e, v.leaves.findSome? fault? = some e) ↔
    ∃ path x e, v.itemAt? path = some x ∧ x.fault? = some e := by
  constructor
  · rintro ⟨e, h⟩
    obtain ⟨x, hx, hfault⟩ := List.exists_of_findSome?_eq_some h
    obtain ⟨path, hpath⟩ := (mem_leaves_iff.1 hx).1
    exact ⟨path, x, e, hpath, hfault⟩
  · rintro ⟨path, x, e, hpath, hfault⟩
    have hx : x ∈ v.leaves := by
      refine mem_leaves_iff.2 ⟨⟨path, hpath⟩, fun hlist => ?_⟩
      cases x with
      | list items => cases hfault
      | _ => cases hlist
    rw [← Option.isSome_iff_exists, List.findSome?_isSome_iff]
    exact ⟨x, hx, by rw [hfault]; rfl⟩

/-! ## Lowering -/

/-- An integer that is not negative keeps its number without a sign. -/
theorem toNat_toUInt64 {n : Int64} (h : ¬ n < 0) : (n.toUInt64.toNat : Int) = n.toInt := by
  have hn : 0 ≤ n.toInt := by simpa [Int64.lt_iff_toInt_lt] using h
  have hnat : n.toUInt64.toNat = n.toBitVec.toNat := rfl
  have hlt := n.toBitVec.isLt
  rw [← Int64.toInt_toBitVec, BitVec.toInt_eq_toNat_cond] at hn ⊢
  rw [hnat]
  split at hn <;> omega

/-- A lowered integer is lifted without a sign when it is not negative. -/
theorem ofJson_intNumber (n : Int64) : ofJson (.number (intNumber n)) = (int n).canonical := by
  rw [intNumber, canonical]
  split
  · rfl
  · next h => rw [ofJson, ← toNat_toUInt64 h, Int.toNat_natCast, UInt64.ofNat_toNat]

mutual

/-- A value whose leaves have no faults is lowered to a document that lifts to its canonical
form. -/
theorem toJson_of_leaves : (v : Value) → v.leaves.findSome? fault? = none →
    ∃ j, v.toJson = .ok j ∧ ofJson j = v.canonical
  | list items, h => by
      obtain ⟨js, hjs, hlift⟩ := listToJson_of_leaves items h
      refine ⟨.array js, ?_, ?_⟩
      · rw [toJson, hjs]
        rfl
      · rw [ofJson, hlift, canonical]
  | float x, h => by
      have hfinite : x.isFinite = true := by simpa [leaves, fault?] using h
      exact ⟨.number (.float x hfinite), dif_pos hfinite, rfl⟩
  | reference key, h => by cases h
  | int n, h => ⟨_, rfl, ofJson_intNumber n⟩
  | nil, h | bool _, h | uint _, h | text _, h | dateTime _, h => ⟨_, rfl, rfl⟩

/-- Values whose leaves have no faults are lowered to documents that lift to their canonical
forms. -/
theorem listToJson_of_leaves : (items : List Value) → (leavesOf items).findSome? fault? = none →
    ∃ js, listToJson items = .ok js ∧ listOfJson js = canonicalOf items
  | [], h => ⟨[], rfl, rfl⟩
  | item :: items, h => by
      rw [leavesOf, List.findSome?_append, Option.or_eq_none_iff] at h
      obtain ⟨j, hj, hlift⟩ := toJson_of_leaves item h.1
      obtain ⟨js, hjs, hlifts⟩ := listToJson_of_leaves items h.2
      refine ⟨j :: js, ?_, ?_⟩
      · rw [listToJson, hj, hjs]
        rfl
      · rw [listOfJson, hlift, hlifts, canonicalOf]

end

mutual

/-- Lowering fails with the fault of the first leaf that has one. -/
theorem toJson_of_fault : (v : Value) → {e : ValueError} → v.leaves.findSome? fault? = some e →
    v.toJson = .error e
  | list items, e, h => by
      rw [toJson, listToJson_of_fault items h]
      rfl
  | float x, e, h => by
      rw [toJson]
      split
      · next hfinite => simp [leaves, fault?, hfinite] at h
      · next hfinite =>
          simp only [leaves, List.findSome?_cons, fault?, if_neg hfinite] at h
          cases h
          rfl
  | reference key, e, h => by
      cases h
      rfl
  | nil, e, h | bool _, e, h | int _, e, h | uint _, e, h | text _, e, h | dateTime _, e, h => by
      cases h

/-- Lowering some values fails with the fault of the first leaf that has one. -/
theorem listToJson_of_fault : (items : List Value) → {e : ValueError} →
    (leavesOf items).findSome? fault? = some e → listToJson items = .error e
  | [], e, h => by cases h
  | item :: items, e, h => by
      rw [leavesOf, List.findSome?_append] at h
      rw [listToJson]
      cases hitem : item.leaves.findSome? fault? with
      | some e' =>
          rw [hitem] at h
          cases h
          rw [toJson_of_fault item hitem]
          rfl
      | none =>
          rw [hitem, Option.none_or] at h
          obtain ⟨j, hj, -⟩ := toJson_of_leaves item hitem
          rw [hj, listToJson_of_fault items h]
          rfl

end

/-! ## Lifting -/

mutual

/-- Lowering a lifted document gives the document with its objects replaced by their texts. -/
theorem toJson_ofJson : (j : Json) → (ofJson j).toJson = .ok j.objectsAsText
  | .array items => by
      rw [ofJson, toJson, listToJson_listOfJson items]
      rfl
  | .number (.natural n) => rfl
  | .number (.negative n lt_zero) => by
      rw [ofJson, toJson, intNumber, dif_pos lt_zero]
      rfl
  | .number (.float x finite) => by
      rw [ofJson, toJson, dif_pos finite]
      rfl
  | .null | .bool _ | .string _ | .object _ => rfl

/-- Lowering lifted documents gives them with their objects replaced by their texts. -/
theorem listToJson_listOfJson : (items : List Json) →
    listToJson (listOfJson items) = .ok (Json.objectsAsTextOf items)
  | [] => rfl
  | item :: items => by
      rw [listOfJson, listToJson, toJson_ofJson item, listToJson_listOfJson items]
      rfl

end

theorem listOfJson_eq_map (items : List Json) : listOfJson items = items.map ofJson := by
  induction items with
  | nil => rfl
  | cons item items ih => rw [listOfJson, ih, List.map_cons]

/-- Everything in a document is lifted in its place. -/
theorem itemAt?_ofJson (j : Json) (path : List Nat) :
    (ofJson j).itemAt? path = (j.itemAt? path).map ofJson := by
  induction path generalizing j with
  | nil => simp [itemAt?, Json.itemAt?]
  | cons i path ih =>
      cases j with
      | array items =>
          rw [ofJson, itemAt?, Json.itemAt?, listOfJson_eq_map, List.getElem?_map]
          cases items[i]? with
          | none => rfl
          | some item => exact ih item
      | number n => cases n <;> rfl
      | null | bool | string | object => rfl

/-- Lowering fails exactly when a reference or a number that is not finite stands somewhere in the
value, with the fault of the first one. Otherwise lifting the document gives the value back, with
its integers unsigned where they are not negative and its date-times as texts. Lifting a document
without objects and lowering it gives the document back; an object is lifted to its text, and
nothing else is lifted differently for it. -/
theorem lifting_inverts_lowering :
    (∀ v : Value, (∀ e, v.toJson = .error e ↔ v.leaves.findSome? fault? = some e) ∧
      ((∃ e, v.toJson = .error e) ↔ ∃ path x e, v.itemAt? path = some x ∧ x.fault? = some e) ∧
      (v.leaves.findSome? fault? = none → ∃ j, v.toJson = .ok j ∧ ofJson j = v.canonical)) ∧
    (∀ n : Int64, ¬ n < 0 → (n.toUInt64.toNat : Int) = n.toInt) ∧
    (∀ j : Json, j.ObjectFree → (ofJson j).toJson = .ok j) ∧
    (∀ j : Json, (ofJson j).toJson = .ok j.objectsAsText) ∧
    ∀ (j : Json) (path : List Nat), (ofJson j).itemAt? path = (j.itemAt? path).map ofJson ∧
      ∀ members, j.itemAt? path = some (.object members) →
        (ofJson j).itemAt? path = some (text (Json.object members).text) := by
  have hfails : ∀ (v : Value) e, v.toJson = .error e ↔ v.leaves.findSome? fault? = some e := by
    refine fun v e => ⟨fun h => ?_, toJson_of_fault v⟩
    cases hfault : v.leaves.findSome? fault? with
    | some e' => exact congrArg some (Except.error.inj ((toJson_of_fault v hfault).symm.trans h))
    | none =>
        obtain ⟨j, hj, -⟩ := toJson_of_leaves v hfault
        cases h.symm.trans hj
  refine ⟨fun v => ⟨hfails v, ?_, toJson_of_leaves v⟩, fun _ => toNat_toUInt64, fun j hj => ?_,
    toJson_ofJson, fun j path => ⟨itemAt?_ofJson j path, fun members h => ?_⟩⟩
  · rw [← exists_fault_iff]
    exact exists_congr (hfails v)
  · rw [toJson_ofJson, j.objectsAsText_eq hj]
  · rw [itemAt?_ofJson, h]
    rfl

/-- A value of numbers and a date-time, some of them in a list of its own. The double is one. -/
def sampleList : Value :=
  list [int 3, list [dateTime .epoch, int (-1)],
    float (.finite false 4503599627370496 (-52) (by decide)), nil]

/-- A value of two faulty leaves, the first of them in a list of its own. -/
def faultyList : Value := list [int 1, list [reference (uint 4)], float .nan]

/-- A document without objects. -/
def sampleArray : Json := .array [.number (.natural 0), .array [.string "a", .null]]

/-- A document with an object between other items. -/
def mixedArray : Json := .array [.null, .object [("k", .number (.natural 1))], .bool true]

theorem sampleArray_objectFree : sampleArray.ObjectFree := by
  rintro (_ | ⟨_ | _ | i, _ | ⟨_ | _ | k, _ | path⟩⟩) members h <;> cases h

/-- The samples are lowered and lifted as described. -/
theorem samples_lifted_lowered :
    faultyList.toJson = .error .relationLiteral ∧
    (∃ j, sampleList.toJson = .ok j ∧ ofJson j = list [uint 3,
      list [text "1970-01-01 00:00:00", int (-1)],
      float (.finite false 4503599627370496 (-52) (by decide)), nil]) ∧
    (ofJson sampleArray).toJson = .ok sampleArray ∧
    (ofJson mixedArray).itemAt? [1] = some (text "\x7b\"k\":1\x7d") := by
  obtain ⟨hlower, -, hfree, -, hplace⟩ := lifting_inverts_lowering
  refine ⟨((hlower faultyList).1 _).2 rfl, (hlower sampleList).2.2 rfl,
    hfree sampleArray sampleArray_objectFree, ?_⟩
  exact (hplace mixedArray [1]).2 _ rfl

end Value

end EntityMapper
