import EntityMapper.Proofs.Session.Loading

/-!
# Whom errors blame

Some errors blame a model: it cannot be described, cannot be given a table, or shares one with
another type. Rendering the statements of a record blames no model, except that there may be
nothing to set in an update: what can be wrong otherwise is a value or a missing key.
-/

namespace EntityMapper

variable {n : Nat} {c : Catalog n} {k : Fin n} {α β : Type}

/-- Whether an error says that something is wrong with a model. -/
def MapperError.BlamesModel (e : MapperError) : Prop :=
  e.errorClass = .invalidArgument ∨ e.errorClass = .malformedTag ∨ e.errorClass = .conflictingType

instance (e : MapperError) : Decidable e.BlamesModel := by
  unfold MapperError.BlamesModel
  infer_instance

/-- Whether a step that fails blames no model. -/
def Blameless (x : Except MapperError α) : Prop := ∀ e, x = .error e → ¬ e.BlamesModel

namespace Blameless

theorem ok (a : α) : Blameless (.ok a) := fun _ h => nomatch h

theorem error {e : MapperError} (h : ¬ e.BlamesModel) : Blameless (.error e : Except _ α) :=
  fun _ he => Except.error.inj he ▸ h

/-- Two steps in a row blame no model if neither does. -/
theorem bind {x : Except MapperError α} {f : α → Except MapperError β} (hx : Blameless x)
    (hf : ∀ a, x = .ok a → Blameless (f a)) : Blameless (x >>= f) := by
  cases x with
  | ok a => exact hf a rfl
  | error e =>
      intro e' h
      cases h
      exact hx e rfl

/-- What is wrong with a value blames no model. -/
theorem value (x : Except ValueError α) : Blameless (x.mapError .value) := by
  cases x with
  | ok a => exact ok a
  | error e =>
      refine error ?_
      cases e <;> simp [MapperError.BlamesModel, MapperError.errorClass]

/-- A record without a key blames no model. -/
theorem missingKey (origin : ErrorOrigin) (entity : String) :
    Blameless (.error (.missingKey origin entity) : Except _ α) :=
  error (by simp [MapperError.BlamesModel, MapperError.errorClass])

end Blameless

namespace Bound

variable {b : Bound c k} {f : Field c}

/-- What is wrong with a key is that it is missing or that its value cannot be written. -/
theorem keyLiteral_blameless (b : Bound c k) : Blameless b.keyLiteral := by
  unfold keyLiteral
  dsimp only
  split
  · exact .missingKey _ _
  · refine .bind (.value _) fun literal? _ => ?_
    split
    · exact .ok _
    · exact .missingKey _ _

theorem keyClause_blameless (b : Bound c k) : Blameless b.keyClause := by
  unfold keyClause
  split
  · exact .missingKey _ _
  · exact .bind b.keyLiteral_blameless fun _ _ => .ok _

/-- What is wrong with assignments is that a value cannot be written. -/
theorem assignments_blameless (fs : List (Field c)) : Blameless (assignments fs) := by
  induction fs with
  | nil => exact .ok []
  | cons f fs ih =>
      refine .bind (.value _) fun literal? _ => ?_
      split
      · exact .bind ih fun _ _ => .ok _
      · exact ih

theorem insertRow_blameless (b : Bound c k) : Blameless b.insertRow :=
  .bind (assignments_blameless _) fun _ _ => .ok _

theorem deleteRow_blameless (b : Bound c k) : Blameless b.deleteRow :=
  .bind b.keyClause_blameless fun _ _ => .ok _

theorem selectRow_blameless (b : Bound c k) : Blameless b.selectRow :=
  .bind b.keyClause_blameless fun _ _ => .ok _

/-- Only an update with nothing to set blames the model. -/
theorem updateRow_blameless (h : ∀ as, assignments b.updatable = .ok as → as ≠ []) :
    Blameless b.updateRow := by
  refine .bind b.keyClause_blameless fun key _ => .bind (assignments_blameless _) fun as has => ?_
  rw [if_neg (by simpa using h as has)]
  exact .ok _

/-- A relation field has a link table. -/
theorem linkTable_blameless (hf : f.descriptor.type.isRelation) : Blameless (b.linkTable f) := by
  obtain ⟨relation, hrelation⟩ := Option.isSome_iff_exists.1 hf
  rw [linkTable, Descriptor.relation?, hrelation]
  exact .ok _

end Bound

theorem Record.keyLiteral_blameless (r : Record c) : Blameless r.keyLiteral := by
  refine .bind (.value _) fun literal? _ => ?_
  split
  · exact .ok _
  · exact .missingKey _ _

namespace Bound

variable {b : Bound c k} {f : Field c} (hf : f.descriptor.type.isRelation)

include hf

/-- A link fails for the key of either record. -/
theorem insertLink_blameless (related : Record c) : Blameless (b.insertLink f related) :=
  .bind (linkTable_blameless hf) fun _ _ => .bind b.keyLiteral_blameless fun _ _ =>
    .bind related.keyLiteral_blameless fun _ _ => .ok _

theorem deleteLink_blameless (related : Record c) : Blameless (b.deleteLink f related) :=
  .bind (linkTable_blameless hf) fun _ _ => .bind b.keyLiteral_blameless fun _ _ =>
    .bind related.keyLiteral_blameless fun _ _ => .ok _

/-- Clearing links fails for the key of the owner alone. -/
theorem clearLinks_blameless : Blameless (b.clearLinks f) :=
  .bind (linkTable_blameless hf) fun _ _ => .bind b.keyLiteral_blameless fun _ _ => .ok _

theorem selectLinks_blameless : Blameless (b.selectLinks f) :=
  .bind (linkTable_blameless hf) fun _ _ => .bind b.keyLiteral_blameless fun _ _ => .ok _

end Bound

namespace Session

/-- An id that the key's type cannot hold is a fault of the id. -/
theorem captureKey_blameless (b : Bound c k) (id : UInt64) : Blameless (captureKey b id) := by
  unfold captureKey
  split
  · split
    · exact .value _
    · exact .ok _
  · exact .ok _

/-- Assigning a row blames no model. -/
theorem hydrate_blameless {ts : List (ColumnType n)} (columns : Columns c ts) (row : List Value) :
    Blameless (hydrate columns row).result := by
  induction ts generalizing row with
  | nil =>
      cases columns
      exact .ok ()
  | cons t ts ih =>
      cases columns with
      | cons cell cells =>
          cases hrelation : t.classify.isRelation with
          | true =>
              rw [hydrate_relation hrelation]
              exact ih cells row
          | false =>
              cases row with
              | nil =>
                  rw [show hydrate (.cons cell cells) [] = ⟨.cons cell cells, .ok ()⟩ from
                    if_neg (Bool.eq_false_iff.1 hrelation)]
                  exact .ok ()
              | cons v row =>
                  cases hassign : cell.assign v with
                  | ok assigned =>
                      rw [hydrate_stored hrelation hassign]
                      exact ih cells row
                  | error e =>
                      rw [hydrate_failed hrelation hassign]
                      exact Blameless.value (.error e)

end Session

/-- Whether all that may go wrong in the work on the rows of a closure's records is among certain
errors. -/
structure RowFaults (c : Catalog n) (root : Fin n) (E : MapperError → Prop) : Prop where
  unbound : ∀ j ∈ c.closure root, ∀ (columns : Columns c (c.model j).columnTypes) e,
    columns.bind = .error e → E e
  unset : ∀ j ∈ c.closure root, ∀ (b : Bound c j) e, b.updatable.any (!·.isNil) →
    b.updateRow = .error e → E e
  blameless : ∀ e, ¬ e.BlamesModel → E e

/-- Any error at all. -/
theorem RowFaults.any {root : Fin n} : RowFaults c root fun _ => True :=
  ⟨fun _ _ _ _ _ => trivial, fun _ _ _ _ _ _ => trivial, fun _ _ => trivial⟩

end EntityMapper
