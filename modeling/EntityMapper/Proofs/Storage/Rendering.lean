import EntityMapper.Proofs.Number.Overflow
import EntityMapper.Proofs.Storage.Classification

/-!
# What a column accepts and what it renders

A column of scalars, options, boxes and lists has a literal for what it accepted, and none only for
a nil that an option took (`Cell.literal?_of_accepted`). The exception is single precision: it
accepts finite doubles of every size, and those from its overflow bound on are stored as infinite
numbers, which fail only when they are rendered (`beyondSingle_accepted`).
-/

namespace EntityMapper

variable {n : Nat} {c : Catalog n} {t : ColumnType n} {v : Value}

/-! ## Values of finite numbers -/

namespace Value

mutual

/-- Whether all numbers in a value are finite. -/
def IsFinite : Value → Prop
  | float x => x.isFinite = true
  | reference key => key.IsFinite
  | list items => AreFinite items
  | _ => True

/-- Whether all numbers in some values are finite. -/
def AreFinite : List Value → Prop
  | [] => True
  | item :: items => item.IsFinite ∧ AreFinite items

end

theorem areFinite_iff {items : List Value} : AreFinite items ↔ ∀ item ∈ items, item.IsFinite := by
  induction items with
  | nil => simp [AreFinite]
  | cons item items ih => rw [AreFinite, ih, List.forall_mem_cons]

mutual

/-- The numbers of a document are finite. -/
theorem isFinite_ofJson : (j : Json) → (ofJson j).IsFinite
  | .number (.float _ finite) => finite
  | .array items => areFinite_listOfJson items
  | .null | .bool _ | .number (.natural _) | .number (.negative _ _) | .string _
  | .object _ => trivial

/-- The numbers of some documents are finite. -/
theorem areFinite_listOfJson : (js : List Json) → AreFinite (listOfJson js)
  | [] => trivial
  | j :: js => ⟨isFinite_ofJson j, areFinite_listOfJson js⟩

end

/-- The items of a value of finite numbers are such values. -/
theorem IsFinite.toList (hv : v.IsFinite) {kind : FieldKind} {items : List Value}
    (h : v.toList kind = .ok items) : ∀ item ∈ items, item.IsFinite := by
  rw [← areFinite_iff]
  cases v with
  | list items' =>
      cases h
      exact hv
  | nil =>
      cases h
      trivial
  | text s =>
      rw [Value.toList] at h
      split at h
      · cases h
        trivial
      · split at h
        · cases h
          exact areFinite_listOfJson _
        · cases h
        · cases h
  | _ => cases h

/-- The number of a value is the double that it is or comes from an integer of 64 bits. -/
theorem toFloat_ok {kind : FieldKind} {y : Binary64} (h : v.toFloat kind = .ok y) :
    v = .float y ∨ (∀ x, v ≠ .float x) ∧ ∃ n : Int, n.natAbs < 2 ^ 64 ∧ y = .ofInt .double n := by
  cases v with
  | float x =>
      cases h
      exact .inl rfl
  | int n =>
      have hlow := n.le_toInt
      have hhigh := n.toInt_lt
      exact .inr ⟨by rintro x ⟨⟩, n.toInt, by omega, (Except.ok.inj h).symm⟩
  | uint n =>
      exact .inr ⟨by rintro x ⟨⟩, n.toNat, n.toNat_lt, (Except.ok.inj h).symm⟩
  | _ => cases h

/-- The items of a value do not depend on the kind that asks for them. -/
theorem toList_kind {kind : FieldKind} {items : List Value} (h : v.toList kind = .ok items)
    (kind' : FieldKind) : v.toList kind' = .ok items := by
  cases v with
  | list | nil | text => exact h
  | _ => cases h

end Value

namespace ColumnType

/-- Whether the type is built from scalars, options, boxes and lists. -/
def IsPlain : ColumnType n → Prop
  | bool | integer _ | float | double | text | dateTime => True
  | nullable t | boxed t | list t => t.IsPlain
  | raw | entity _ => False

/-- Whether the doubles that a value brings to single precision are below the bound from which on
they become infinite there. -/
def Fits : ColumnType n → Value → Prop
  | float, .float x => x.magnitude < 2 ^ 128 - 2 ^ 103
  | nullable t, v | boxed t, v => t.Fits v
  | list t, v => ∀ items, v.toList .list = .ok items → ∀ item ∈ items, t.Fits item
  | _, _ => True

/-- What is no double fits into single precision. -/
theorem fits_float (h : ∀ x, v ≠ .float x) : (float : ColumnType n).Fits v := by
  cases v with
  | float x => exact absurd rfl (h x)
  | _ => trivial

/-- Nil brings no doubles. -/
theorem fits_nil : (t : ColumnType n) → t.Fits .nil
  | nullable t | boxed t => t.fits_nil
  | list t => by
      rintro items ⟨⟩ item hitem
      cases hitem
  | bool | integer _ | float | double | text | dateTime | raw | entity _ => trivial

/-- A plain type has no records in it. -/
theorem IsPlain.base?_eq (h : t.IsPlain) : t.base? = none := by
  induction t with
  | nullable t ih | boxed t ih | list t ih => exact ih h
  | bool | integer | float | double | text | dateTime => rfl
  | raw | entity => exact h.elim

/-- A type is nullable exactly when it is an option under boxes. -/
theorem isNullable_iff_option (t : ColumnType n) :
    t.classify.isNullable = true ↔ ∃ (m : Nat) (u : ColumnType n), t = boxed^[m] (nullable u) := by
  constructor
  · intro h
    induction t with
    | nullable t => exact ⟨0, t, rfl⟩
    | boxed t ih =>
        obtain ⟨m, u, rfl⟩ := ih h
        exact ⟨m + 1, u, (Function.iterate_succ_apply' boxed m _).symm⟩
    | list t =>
        rw [isNullable_iff] at h
        cases h
    | bool | integer | float | double | text | dateTime | raw | entity => cases h
  · rintro ⟨m, u, rfl⟩
    induction m with
    | zero => rfl
    | succ m ih =>
        rw [Function.iterate_succ_apply']
        exact ih

end ColumnType

/-! ## Renderings -/

/-- Whether a rendering succeeds where a condition holds, and stops at an infinite number where it
does not. -/
structure RendersWhen {α : Type} (p : Prop) (rendered : Except ValueError α) : Prop where
  succeeds : p → ∃ a, rendered = .ok a
  fails : ¬ p → ∃ negative, rendered = .error (.nonFinite (.infinite negative))

namespace RendersWhen

variable {α β : Type} {p q : Prop} {rendered : Except ValueError α}

theorem of_ok (hp : p) (h : ∃ a, rendered = .ok a) : RendersWhen p rendered :=
  ⟨fun _ => h, fun hnot => absurd hp hnot⟩

theorem congr (hpq : p ↔ q) (h : RendersWhen p rendered) : RendersWhen q rendered :=
  ⟨fun hq => h.succeeds (hpq.2 hq), fun hq => h.fails (mt hpq.1 hq)⟩

/-- What is made of a rendering succeeds and fails with it. -/
theorem map (h : RendersWhen p rendered) (f : α → β) :
    RendersWhen p (rendered >>= fun a => .ok (f a)) := by
  constructor
  · intro hp
    obtain ⟨a, rfl⟩ := h.succeeds hp
    exact ⟨f a, rfl⟩
  · intro hp
    obtain ⟨negative, rfl⟩ := h.fails hp
    exact ⟨negative, rfl⟩

end RendersWhen

/-- Whether a content that a value was stored in renders, in a column of its own and as an item. -/
structure Cell.Renders (x : Cell c t) (v : Value) : Prop where
  literal : RendersWhen (t.Fits v) x.value.literal?
  json : RendersWhen (t.Fits v) x.value.toJson

namespace Cell.Renders

variable {x : Cell c t}

/-- A number renders where it is finite. -/
theorem of_float {y : Binary64} (hvalue : x.value = .float y)
    (hfits : t.Fits v ↔ y.isFinite = true)
    (hinfinite : y.isFinite = false → ∃ negative, y = .infinite negative) : x.Renders v := by
  cases hy : y.isFinite with
  | true =>
      refine ⟨.of_ok (hfits.2 hy) ⟨some (.float ⟨y, hy⟩), ?_⟩,
        .of_ok (hfits.2 hy) ⟨.number (.float y hy), ?_⟩⟩
      · rw [hvalue, Value.literal?, dif_pos hy]
      · rw [hvalue, Value.toJson, dif_pos hy]
  | false =>
      obtain ⟨negative, rfl⟩ := hinfinite hy
      have hnot : ¬ t.Fits v := fun h => Bool.false_ne_true (hy.symm.trans (hfits.1 h))
      constructor <;>
        exact ⟨fun h => absurd h hnot, fun _ => ⟨negative, by rw [hvalue]; rfl⟩⟩

/-- A double renders where it is finite, and what an integer is rounded to is so. -/
theorem of_double (hv : v.IsFinite) {kind : FieldKind} {y : Binary64}
    (hy : v.toFloat kind = .ok y) :
    (Cell.double y : Cell c .double).Renders v := by
  have hfinite : y.isFinite = true := by
    rcases Value.toFloat_ok hy with rfl | ⟨-, n, hn, rfl⟩
    · exact hv
    · exact (Binary.isFinite_ofInt hn).1
  exact of_float rfl (iff_of_true trivial hfinite) fun h => nomatch hfinite.symm.trans h

/-- A double that is narrowed renders where it is below the overflow bound. -/
theorem of_single (hv : v.IsFinite) {kind : FieldKind} {y : Binary64}
    (hy : v.toFloat kind = .ok y) :
    (Cell.float (y.convert .single) : Cell c .float).Renders v := by
  have hback : ((y.convert .single).convert .double).isFinite = (y.convert .single).isFinite :=
    Binary.isFinite_convert_of_within BinaryFormat.single_within_double _
  rcases Value.toFloat_ok hy with rfl | ⟨hother, n, hn, rfl⟩
  · refine of_float rfl ?_ fun h => ?_
    · rw [hback, Binary.isFinite_convert_iff BinaryFormat.isProper_single,
        BinaryFormat.overflow_single]
      exact ⟨fun h => ⟨hv, h⟩, And.right⟩
    · obtain ⟨negative, hnarrowed⟩ :=
        Binary.convert_eq_infinite BinaryFormat.isProper_single hv (hback.symm.trans h)
      exact ⟨negative, by rw [hnarrowed]; rfl⟩
  · have hfinite := hback.trans (Binary.isFinite_ofInt hn).2
    refine of_float rfl (iff_of_true ?_ hfinite) fun h => nomatch hfinite.symm.trans h
    exact ColumnType.fits_float hother

/-- A list renders where its items do; the first that does not stops it. -/
theorem list {values : List Value} {cells : List (Cell c t)}
    (h : List.Forall₂ (fun v x => Renders x v) values cells) :
    RendersWhen (∀ item ∈ values, t.Fits item) (Value.listToJson (cells.map Cell.value)) := by
  induction h with
  | nil => exact .of_ok nofun ⟨[], rfl⟩
  | @cons value cell values cells hcell _ ih =>
      rw [List.forall_mem_cons, List.map_cons, Value.listToJson]
      -- The first item is rendered before the others, so it decides alone where it does not fit.
      by_cases hfirst : t.Fits value
      · obtain ⟨json, hjson⟩ := hcell.json.succeeds hfirst
        rw [hjson]
        have hrest := ih.map (json :: ·)
        exact ⟨fun h => hrest.succeeds h.2, fun h => hrest.fails fun h' => h ⟨hfirst, h'⟩⟩
      · obtain ⟨negative, hjson⟩ := hcell.json.fails hfirst
        rw [hjson]
        exact ⟨fun h => absurd h.1 hfirst, fun _ => ⟨negative, rfl⟩⟩

end Cell.Renders

namespace Catalog

/-- What a column accepts it renders, unless a double does not fit into single precision. -/
theorem renders_of_build (ht : t.IsPlain) (hv : v.IsFinite) {x : Cell c t}
    (h : c.build t v = .ok x) : x.Renders v := by
  induction t generalizing v with
  | bool | text | dateTime =>
      cases x
      exact ⟨.of_ok trivial ⟨_, rfl⟩, .of_ok trivial ⟨_, rfl⟩⟩
  | integer kind =>
      cases x
      refine ⟨.of_ok trivial ?_, .of_ok trivial ?_⟩ <;>
        rw [Cell.value] <;> split <;> exact ⟨_, rfl⟩
  | float =>
      rw [build] at h
      obtain ⟨y, hy, h⟩ := bind_eq_ok.1 h
      cases h
      exact .of_single hv hy
  | double =>
      rw [build] at h
      obtain ⟨y, hy, h⟩ := bind_eq_ok.1 h
      cases h
      exact .of_double hv hy
  | nullable t ih =>
      rw [build] at h
      split at h
      · rename_i hnil
        cases h
        cases v with
        | nil => exact ⟨.of_ok t.fits_nil ⟨none, rfl⟩, .of_ok t.fits_nil ⟨.null, rfl⟩⟩
        | _ => cases hnil
      · obtain ⟨inner, hinner, h⟩ := bind_eq_ok.1 h
        cases h
        obtain ⟨hliteral, hjson⟩ := ih ht hv hinner
        exact ⟨hliteral, hjson⟩
  | boxed t ih =>
      rw [build] at h
      obtain ⟨inner, hinner, h⟩ := bind_eq_ok.1 h
      cases h
      obtain ⟨hliteral, hjson⟩ := ih ht hv hinner
      exact ⟨hliteral, hjson⟩
  | list t ih =>
      rw [build] at h
      obtain ⟨values, hvalues, h⟩ := bind_eq_ok.1 h
      obtain ⟨cells, hcells, h⟩ := bind_eq_ok.1 h
      cases h
      have hitems : List.Forall₂ (fun v x => Cell.Renders x v) values cells :=
        ((List.forall₂_and_left _ _).2 ⟨hv.toList hvalues, mapM_eq_ok_iff.1 hcells⟩).imp
          fun _ _ hitem => ih ht hitem.1 hitem.2
      have hlist : (∀ item ∈ values, t.Fits item) ↔ t.list.Fits v := by
        constructor
        · intro h items hitems
          cases (Value.toList_kind hvalues .list).symm.trans hitems
          exact h
        · exact fun h => h values (Value.toList_kind hvalues .list)
      have hrendered := (Cell.Renders.list hitems).congr hlist
      rw [← Items.values_ofList] at hrendered
      exact ⟨hrendered.map _, hrendered.map _⟩
  | raw | entity => exact ht.elim

/-- A content of a plain type was built as nothing exactly where an option took a nil. -/
theorem isNothing_of_build (ht : t.IsPlain) {x : Cell c t} (h : c.build t v = .ok x) :
    x.isNothing = true ↔ v = .nil ∧ t.classify.isNullable = true := by
  induction t with
  | nullable t ih =>
      rw [build] at h
      split at h
      · rename_i hnil
        cases h
        cases v with
        | nil => exact iff_of_true rfl ⟨rfl, rfl⟩
        | _ => cases hnil
      · rename_i hnil
        obtain ⟨inner, hinner, h⟩ := bind_eq_ok.1 h
        cases h
        rw [Cell.isNothing, ih ht hinner]
        have hv : v ≠ .nil := by
          rintro rfl
          exact hnil rfl
        exact iff_of_false (fun h => hv h.1) fun h => hv h.1
  | boxed t ih =>
      rw [build] at h
      obtain ⟨inner, hinner, h⟩ := bind_eq_ok.1 h
      cases h
      exact ih ht hinner
  | list t =>
      cases x
      refine iff_of_false nofun fun h => ?_
      have hoption := (ColumnType.isNullable_iff _).1 h.2
      cases hoption
  | bool | integer | float | double | text | dateTime =>
      cases x
      exact iff_of_false nofun nofun
  | raw | entity => exact ht.elim

end Catalog

/-! ## What was accepted -/

/-- A column of scalars, options, boxes and lists has a literal for what it accepted, built or
assigned, when the value has finite numbers only and its doubles fit into single precision where
they come to it; it has none only for a nil that an option under boxes took. Where a double does not
fit, the column accepts it nevertheless and fails to render it, as an infinite number. -/
theorem Cell.literal?_of_accepted (ht : t.IsPlain) (hv : v.IsFinite) {x : Cell c t}
    (haccepted : c.build t v = .ok x ∨ ∃ cell : Cell c t, cell.assign v = .ok x) :
    (t.Fits v → ∃ l, x.value.literal? = .ok l) ∧
      (¬ t.Fits v → ∃ negative, x.value.literal? = .error (.nonFinite (.infinite negative))) ∧
      (x.value.literal? = .ok none ↔
        v = .nil ∧ ∃ (m : Nat) (u : ColumnType n), t = ColumnType.boxed^[m] (.nullable u)) := by
  -- Without records in it, a content that is assigned to is built anew, whatever it was.
  have hbuild : c.build t v = .ok x := by
    rcases haccepted with hbuild | ⟨cell, hassign⟩
    · exact hbuild
    · exact (cell.assign_eq_build_of_base? ht.base?_eq v).symm.trans hassign
  obtain ⟨hsucceeds, hfails⟩ := (Catalog.renders_of_build ht hv hbuild).literal
  refine ⟨hsucceeds, hfails, ?_⟩
  rw [← t.isNullable_iff_option, ← Catalog.isNothing_of_build ht hbuild, ← x.isNil_value_eq]
  constructor
  · intro h
    exact Value.isNil_of_literal? h
  · intro hnil
    cases hvalue : x.value with
    | nil => rfl
    | _ =>
        rw [hvalue] at hnil
        cases hnil

/-- A single-precision number is what the double of a value is narrowed to. -/
theorem Catalog.build_single {y : Binary64} {z : Binary32} (hy : v.toFloat .float = .ok y)
    (hz : y.convert .single = z) : c.build .float v = .ok (.float z) := by
  rw [build, hy, ← hz]
  rfl

/-- A list is built from the values that build its items. -/
theorem Catalog.build_list {values : List Value} {cells : List (Cell c t)}
    (h : List.Forall₂ (fun v x => c.build t v = .ok x) values cells) :
    c.build (.list t) (.list values) = .ok (.list (.ofList cells)) := by
  rw [build]
  exact bind_eq_ok.2 ⟨values, rfl, bind_eq_ok.2 ⟨cells, mapM_eq_ok_iff.2 h, rfl⟩⟩

/-- A list of single-precision numbers behind an option and a box. -/
def singles (xs : List Binary32) : Cell shelf (.boxed (.nullable (.list .float))) :=
  .boxed (.present (.list (.ofList (xs.map .float))))

/-- A list that holds an infinite number has a literal once it is assigned three and one and a half,
and none once it is assigned nil. -/
theorem singles_literal? :
    let v : Value := .list [.int 3, .float (.finite false (3 * 2 ^ 51) (-52) (by decide))]
    let left := singles [.finite false (3 * 2 ^ 22) (-22) (by decide),
      .finite false (3 * 2 ^ 22) (-23) (by decide)]
    (ColumnType.boxed (.nullable (.list .float)) : ColumnType 1).IsPlain ∧
      (v.IsFinite ∧ (singles [.infinite false]).assign v = .ok left ∧
        (ColumnType.boxed (.nullable (.list .float)) : ColumnType 1).Fits v ∧
        ∃ l, left.value.literal? = .ok (some l)) ∧
      Value.nil.IsFinite ∧ (singles [.infinite false]).assign .nil = .ok (.boxed .absent) ∧
        (.boxed .absent : Cell shelf (.boxed (.nullable (.list .float)))).value.literal?
          = .ok none := by
  intro v left
  have hplain : (ColumnType.boxed (.nullable (.list .float)) : ColumnType 1).IsPlain := trivial
  have hv : v.IsFinite := ⟨trivial, rfl, trivial⟩
  have hassign : (singles [.infinite false]).assign v = .ok left := by
    have hlist : shelf.build (.list .float) v = .ok (.list (.ofList
        [.float (.finite false (3 * 2 ^ 22) (-22) (by decide)),
          .float (.finite false (3 * 2 ^ 22) (-23) (by decide))])) :=
      Catalog.build_list (.cons (Catalog.build_single rfl (by decide +kernel))
        (.cons (Catalog.build_single rfl (by decide +kernel)) .nil))
    rw [Cell.assign_eq_build_of_base? rfl, Catalog.build, Catalog.build, hlist]
    rfl
  have hfits : (ColumnType.boxed (.nullable (.list .float)) : ColumnType 1).Fits v := by
    rintro items ⟨⟩
    rw [List.forall_mem_cons, List.forall_mem_singleton]
    refine ⟨trivial, ?_⟩
    show (_ : Rat) < _
    norm_num [Binary.magnitude]
  have hnil : (singles [.infinite false]).assign .nil = .ok (.boxed .absent) := rfl
  obtain ⟨hliteral, -, hnone⟩ := Cell.literal?_of_accepted hplain hv (.inr ⟨_, hassign⟩)
  have hnilFinite : Value.nil.IsFinite := trivial
  obtain ⟨-, -, hnothing⟩ := Cell.literal?_of_accepted hplain hnilFinite (.inr ⟨_, hnil⟩)
  refine ⟨hplain, ⟨hv, hassign, hfits, ?_⟩, hnilFinite, hnil, hnothing.2 ⟨rfl, 1, _, rfl⟩⟩
  obtain ⟨l, hl⟩ := hliteral hfits
  cases l with
  | none =>
      have hvalue : v = .nil := (hnone.1 hl).1
      exact Value.noConfusion hvalue
  | some l => exact ⟨l, hl⟩

/-- Two to the power of 128, the least power of two without a number in single precision. -/
def beyondSingle : Value := .float (.finite false (2 ^ 52) 76 (by decide))

/-- A column of single precision accepts a finite double beyond its range, alone and in a list, and
has no literal for it afterwards. -/
theorem beyondSingle_accepted :
    (ColumnType.float : ColumnType 1).IsPlain ∧ beyondSingle.IsFinite ∧
      (∃ x : Cell shelf .float, shelf.build .float beyondSingle = .ok x ∧
        (shelf.blank .float).assign beyondSingle = .ok x ∧
        x.value.literal? = .error (.nonFinite (.infinite false))) ∧
      ∃ x : Cell shelf (.list .float), shelf.build (.list .float) (.list [beyondSingle]) = .ok x ∧
        x.value.literal? = .error (.nonFinite (.infinite false)) := by
  have hbuild : shelf.build .float beyondSingle = .ok (.float (.infinite false)) :=
    Catalog.build_single rfl (by decide +kernel)
  have hlist : shelf.build (.list .float) (.list [beyondSingle])
      = .ok (.list (.ofList [.float (.infinite false)])) :=
    Catalog.build_list (.cons hbuild .nil)
  have hassign := Cell.assign_eq_build_of_base? rfl (shelf.blank .float) beyondSingle
  exact ⟨trivial, rfl, ⟨.float (.infinite false), hbuild, hassign.trans hbuild, rfl⟩,
    .list (.ofList [.float (.infinite false)]), hlist, rfl⟩

end EntityMapper
