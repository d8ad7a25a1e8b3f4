import EntityMapper.Cache.KeyMap
import EntityMapper.Model.Description

/-! # Closures of models

The models reached from a model through relation fields, leaves first. A table belongs to the
first type that claims it; a second type with that table is an error, and the same type is
not visited again, so cycles end.
-/

namespace EntityMapper

/-- A step of the traversal that is still to do. -/
inductive ClosureTask (n : Nat)
  /-- Visit a model that some field refers to. -/
  | visit (k : Fin n)
  /-- List a model, now that everything below it is listed. -/
  | list (k : Fin n)

theorem countP_lt_countP {α : Type} {p q : α → Bool} {l : List α} {a : α}
    (le : ∀ x ∈ l, q x → p x) (mem : a ∈ l) (hp : p a) (hq : q a = false) :
    l.countP q < l.countP p := by
  induction l with
  | nil => simp at mem
  | cons x l ih =>
    have le' : l.countP q ≤ l.countP p :=
      List.countP_mono_left fun y hy => le y (List.mem_cons_of_mem _ hy)
    rcases List.mem_cons.1 mem with rfl | mem
    · simp only [List.countP_cons, hp, hq, if_true]
      simpa using Nat.lt_succ_of_le le'
    · have ih := ih (fun y hy => le y (List.mem_cons_of_mem _ hy)) mem
      have hx := le x List.mem_cons_self
      simp only [List.countP_cons]
      cases h : q x
      · simp only [Bool.false_eq_true, if_false]; omega
      · simp only [hx h, if_true]; omega

namespace Models

variable {n : Nat} (ms : Models n)

/-- The number of models whose tables nobody has claimed, where every claim is a table under
the origin of its type. -/
def unclaimed (claims : KeyMap String) : Nat :=
  (List.finRange n).countP fun k => (claims.get? (ms.model k).table).isNone

/-- Claiming a free table leaves fewer free ones. -/
theorem unclaimed_insert_lt {claims : KeyMap String} {k : Fin n} (origin : String)
    (free : claims.get? (ms.model k).table = none) :
    ms.unclaimed (claims.insert (ms.model k).table origin) < ms.unclaimed claims := by
  refine countP_lt_countP (fun j _ h => ?_) (List.mem_finRange k) (by simp [free])
    (by simp [KeyMap.get?_insert])
  rw [KeyMap.get?_insert] at h
  split at h
  · simp at h
  · exact h

/-- The models that the relation fields of a model refer to, in declaration order. -/
def targets (k : Fin n) : Except MapperError (List (Fin n)) := do
  return (← (ms.model k).describe).filterMap fun d => d.type.relation.map (·.model)

/-- Carries out the tasks of a traversal in order, and lists the models they come to. -/
def resolve (claims : KeyMap String) : List (ClosureTask n) → Except MapperError (List (Fin n))
  | [] => .ok []
  | .list k :: tasks => do return k :: (← resolve claims tasks)
  | .visit k :: tasks =>
      match free : claims.get? (ms.model k).table with
      | some owner =>
          if owner = (ms.model k).origin then resolve claims tasks
          else .error (.conflictingTypes (ms.model k).table owner (ms.model k).origin)
      | none => do
          let targets ← ms.targets k
          resolve (claims.insert (ms.model k).table (ms.model k).origin)
            (targets.map .visit ++ .list k :: tasks)
termination_by tasks => (ms.unclaimed claims, tasks.length)
decreasing_by
  · exact Prod.Lex.right _ (by simp)
  · exact Prod.Lex.right _ (by simp)
  · exact Prod.Lex.left _ _ (ms.unclaimed_insert_lt _ free)

/-- Every other model that a model reaches, leaves first. -/
def dependencies (k : Fin n) : Except MapperError (List (Fin n)) := do
  let targets ← ms.targets k
  ms.resolve (KeyMap.empty.insert (ms.model k).table (ms.model k).origin) (targets.map .visit)

end Models

end EntityMapper
