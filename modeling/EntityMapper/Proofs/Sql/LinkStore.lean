import EntityMapper.Sql.Statement
import Mathlib.Tactic.Common

/-!
# Link stores

What link tables hold, and how statements change it. A statement about links changes them at one
place only, the table and the literal on their left (`LinkStore.pairs_run`), so what stands at a
place comes from the statements for that place alone (`LinkStore.linked_runAll`).
-/

namespace EntityMapper.Sql

/-- The place of the links that a statement changes: their table and the literal on their left. -/
def Statement.linkPlace? : Statement → Option (String × Literal)
  | insertLink table left _ | deleteLink table left _ | clearLinks table left => some (table, left)
  | _ => none

/-- What link tables hold: for each table the pairs of literals that its rows link, in order. -/
structure LinkStore where
  rows : String → List (Literal × Literal)

namespace LinkStore

variable (store : LinkStore)

/-- A store with other pairs in a table. -/
def set (table : String) (pairs : List (Literal × Literal)) : LinkStore where
  rows other := if other = table then pairs else store.rows other

/-- A store after a statement. -/
def run : Statement → LinkStore
  | .insertLink table left right => store.set table (store.rows table ++ [(left, right)])
  | .deleteLink table left right => store.set table ((store.rows table).filter (· ≠ (left, right)))
  | .clearLinks table left => store.set table ((store.rows table).filter (·.1 ≠ left))
  | _ => store

/-- A store after statements, one after the other. -/
def runAll (ss : List Statement) : LinkStore := ss.foldl run store

/-- The pairs of a table whose left side is to be kept, in order. -/
def pairs (table : String) (keep : Literal → Bool) : List (Literal × Literal) :=
  (store.rows table).filter fun pair => keep pair.1

/-- The pairs at a place, in order. -/
def linked (table : String) (left : Literal) : List (Literal × Literal) :=
  store.pairs table (· == left)

variable {store} {store' : LinkStore} {table : String} {left : Literal} {keep : Literal → Bool}
  {s : Statement} {ss : List Statement}

@[simp] theorem rows_set_self (changed : List (Literal × Literal)) :
    (store.set table changed).rows table = changed :=
  if_pos rfl

theorem rows_set_of_ne {table' : String} (h : table ≠ table')
    (changed : List (Literal × Literal)) :
    (store.set table' changed).rows table = store.rows table :=
  if_neg h

/-- Other pairs in a table leave those that are kept as they are. -/
theorem pairs_set {changed : List (Literal × Literal)} {table' : String}
    (h : table' = table → changed.filter (fun pair => keep pair.1) = store.pairs table keep) :
    (store.set table' changed).pairs table keep = store.pairs table keep := by
  by_cases htable : table' = table
  · rw [← h htable, htable, pairs, rows_set_self]
  · rw [pairs, rows_set_of_ne (Ne.symm htable), pairs]

/-- A statement leaves all pairs as they are but those at its place. -/
theorem pairs_run (h : ∀ left, s.linkPlace? = some (table, left) → keep left = false) :
    (store.run s).pairs table keep = store.pairs table keep := by
  cases s with
  | insertLink table' left right =>
      refine pairs_set fun htable => ?_
      subst htable
      rw [List.filter_append, List.filter_cons_of_neg (by simpa using h left rfl), List.filter_nil,
        List.append_nil]
      rfl
  | deleteLink table' left right =>
      refine pairs_set fun htable => ?_
      subst htable
      rw [List.filter_filter]
      refine List.filter_congr fun pair _ => ?_
      have hleft := h left rfl
      by_cases hpair : pair = (left, right) <;> simp [hpair, hleft]
  | clearLinks table' left =>
      refine pairs_set fun htable => ?_
      subst htable
      rw [List.filter_filter]
      refine List.filter_congr fun pair _ => ?_
      have hleft := h left rfl
      by_cases hpair : pair.1 = left <;> simp [hpair, hleft]
  | _ => rfl

/-- Statements leave all pairs as they are but those at their places. -/
theorem pairs_runAll
    (h : ∀ s ∈ ss, ∀ left, s.linkPlace? = some (table, left) → keep left = false) :
    (store.runAll ss).pairs table keep = store.pairs table keep := by
  induction ss generalizing store with
  | nil => rfl
  | cons s ss ih =>
      rw [runAll, List.foldl_cons, ← runAll, ih fun s hs => h s (List.mem_cons_of_mem _ hs),
        pairs_run (h s List.mem_cons_self)]

/-- A statement for another place leaves the pairs at a place as they are. -/
theorem linked_run_of_ne (h : s.linkPlace? ≠ some (table, left)) :
    (store.run s).linked table left = store.linked table left := by
  refine pairs_run fun left' hplace => ?_
  rw [beq_eq_false_iff_ne]
  rintro rfl
  exact h hplace

/-- An inserted link comes last at its place. -/
theorem linked_insertLink (right : Literal) :
    (store.run (.insertLink table left right)).linked table left
      = store.linked table left ++ [(left, right)] := by
  rw [run, linked, pairs, rows_set_self, List.filter_append,
    List.filter_cons_of_pos (by exact beq_self_eq_true left), List.filter_nil]
  rfl

/-- No link is left where links are cleared. -/
theorem linked_clearLinks : (store.run (.clearLinks table left)).linked table left = [] := by
  rw [run, linked, pairs, rows_set_self, List.filter_filter, List.filter_eq_nil_iff]
  intro pair _
  by_cases hpair : pair.1 = left <;> simp [hpair]

/-- A deleted link is no longer at its place. -/
theorem linked_deleteLink (right : Literal) :
    (store.run (.deleteLink table left right)).linked table left
      = (store.linked table left).filter (· ≠ (left, right)) := by
  rw [run, linked, pairs, rows_set_self, linked, pairs, List.filter_filter, List.filter_filter]
  exact List.filter_congr fun pair _ => Bool.and_comm ..

/-- What a statement leaves at a place depends on what stood there. -/
theorem linked_run_congr (h : store.linked table left = store'.linked table left) :
    (store.run s).linked table left = (store'.run s).linked table left := by
  by_cases hplace : s.linkPlace? = some (table, left)
  · cases s with
    | insertLink _ _ right =>
        cases hplace
        rw [linked_insertLink, linked_insertLink, h]
    | clearLinks _ _ =>
        cases hplace
        rw [linked_clearLinks, linked_clearLinks]
    | deleteLink _ _ right =>
        cases hplace
        rw [linked_deleteLink, linked_deleteLink, h]
    | _ => cases hplace
  · rw [linked_run_of_ne hplace, linked_run_of_ne hplace, h]

/-- What stands at a place comes from the statements for the place. -/
theorem linked_runAll (h : store.linked table left = store'.linked table left) :
    (store.runAll ss).linked table left
      = (store'.runAll (ss.filter (·.linkPlace? = some (table, left)))).linked table left := by
  induction ss generalizing store store' with
  | nil => exact h
  | cons s ss ih =>
      rw [List.filter_cons]
      split
      · exact ih (linked_run_congr h)
      · rename_i hplace
        exact ih ((linked_run_of_ne (by simpa using hplace)).trans h)

/-- Inserted links come last, in order. -/
theorem linked_insertLinks (rights : List Literal) :
    (store.runAll (rights.map (.insertLink table left))).linked table left
      = store.linked table left ++ rights.map (left, ·) := by
  induction rights generalizing store with
  | nil => exact (List.append_nil _).symm
  | cons right rights ih =>
      have hrest : (store.runAll ((right :: rights).map (.insertLink table left))).linked table left
          = (store.run (.insertLink table left right)).linked table left
            ++ rights.map (left, ·) := ih
      rw [hrest, linked_insertLink, List.append_assoc]
      rfl

/-- Where the statements for a place clear it and then insert links, these are what it holds. -/
theorem linked_of_replaced {rights : List Literal}
    (h : ss.filter (·.linkPlace? = some (table, left))
      = .clearLinks table left :: rights.map (.insertLink table left)) :
    (store.runAll ss).linked table left = rights.map (left, ·) := by
  have hinserted : (store.runAll (.clearLinks table left ::
      rights.map (.insertLink table left))).linked table left
        = (store.run (.clearLinks table left)).linked table left ++ rights.map (left, ·) :=
    linked_insertLinks rights
  rw [linked_runAll rfl, h, hinserted, linked_clearLinks, List.nil_append]

end LinkStore

end EntityMapper.Sql
