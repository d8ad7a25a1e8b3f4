import EntityMapper.Proofs.Model.LinkTables
import EntityMapper.Proofs.Session.JobRuns
import EntityMapper.Proofs.Storage.Family

/-!
# Whose tables statements are about

A model owns its own table and the link tables of the relations it declares. Every statement on
the rows or links of a record is about a table that the record's model owns, and a job serves a
model when it is about such a table.
-/

namespace EntityMapper

variable {n : Nat} {c : Catalog n} {k : Fin n}

namespace Sql.Statement

/-- Whether a statement creates a table. -/
def IsCreation : Statement → Prop
  | createTable .. | createLinks _ => True
  | _ => False

/-- Whether a statement is about the rows of records. -/
def IsOnRows : Statement → Prop
  | insertRow .. | updateRow .. | deleteRow .. | selectRow .. => True
  | _ => False

/-- Whether a statement is about links. -/
def IsOnLinks : Statement → Prop
  | insertLink .. | deleteLink .. | clearLinks .. | selectLinks .. => True
  | _ => False

end Sql.Statement

namespace Models

variable (ms : Models n)

/-- Whether a table is a model's own or holds the links of a relation that the model declares. -/
inductive Owns (j : Fin n) : String → Prop
  | table : Owns j (ms.model j).table
  | links {rs : List (Relation n)} {r : Relation n} (hrs : ms.relations j = .ok rs) (hr : r ∈ rs) :
      Owns j (ms.linkTable r)

/-- Whether a statement is about the rows of a model, or about the links of a relation that the
model declares. -/
inductive Uses (j : Fin n) (s : Sql.Statement) : Prop
  | rows (hs : s.IsOnRows) (htable : s.table = (ms.model j).table)
  | links {rs : List (Relation n)} {r : Relation n} (hs : s.IsOnLinks)
      (hrs : ms.relations j = .ok rs) (hr : r ∈ rs) (htable : s.table = ms.linkTable r)

variable {ms}

/-- A statement is about a table that the model it serves owns. -/
theorem Uses.owns {j : Fin n} {s : Sql.Statement} (h : ms.Uses j s) : ms.Owns j s.table := by
  cases h with
  | rows hs htable => exact htable ▸ .table
  | links hs hrs hr htable => exact htable ▸ .links hrs hr

end Models

/-- What a job is for. -/
inductive Job.Kind
  | ensuring | dropping | onRows
  deriving DecidableEq

/-- The kind of a job. -/
def Job.kind : Job → Kind
  | .ensure .. => .ensuring
  | .drop .. => .dropping
  | .insert _ | .update _ | .delete _ | .fetchRow .. | .fetchColumn .. => .onRows

/-- Whether a job is about a table of a model: one that is ensured or dropped for the model's type,
or one that a statement uses. -/
def Job.Serves (ms : Models n) (j : Fin n) : Job → Prop
  | .ensure witness _ definition =>
      ms.Owns j witness.table ∧ witness.origin = (ms.model j).origin ∧
        ∀ s, definition = .ok s → s.IsCreation ∧ s.table = witness.table
  | .drop table origin _ statement =>
      ms.Owns j table ∧ origin = (ms.model j).origin ∧ statement = .dropTable table
  | .insert s | .update s | .delete s | .fetchRow s _ | .fetchColumn s _ => ms.Uses j s

/-- Whether a job is of a kind and serves a model of a closure. -/
structure Job.Within (ms : Models n) (root : Fin n) (kind : Kind) (job : Job) : Prop where
  kind_eq : job.kind = kind
  serves : ∃ j ∈ ms.closure root, job.Serves ms j

/-! ## The calls of jobs -/

/-- Whether a call suits a kind of job: ensuring looks for tables and creates them, dropping drops
them, and work on rows runs statements and follows cursors. -/
def Call.Suits : Job.Kind → Call → Prop
  | .ensuring, .tableExists _ => True
  | .ensuring, .execute s => s.IsCreation
  | .dropping, .execute s => ∃ table, s = .dropTable table
  | .onRows, .query _ | .onRows, .insert _ | .onRows, .update _ | .onRows, .delete _
  | .onRows, .next | .onRows, .read _ | .onRows, .finish => True
  | _, _ => False

/-- Whether a call is made on behalf of a model: it names a table that the model owns, or it names
none and works on a cursor. -/
def Call.Serves (ms : Models n) (j : Fin n) : Call → Prop
  | .tableExists table => ms.Owns j table
  | .execute s => ms.Owns j s.table
  | .query s | .insert s | .update s | .delete s => ms.Uses j s
  | .next | .read _ | .finish => True
  | .release | .begin | .commit | .rollback => False

/-- A statement that is run on rows on behalf of a model uses a table that the model owns. -/
theorem Call.Serves.uses {ms : Models n} {j : Fin n} {call : Call} {s : Sql.Statement}
    (h : call.Serves ms j) (hsuits : call.Suits .onRows) (hs : call.statement? = some s) :
    ms.Uses j s := by
  cases call with
  | query | insert | update | delete =>
      cases hs
      exact h
  | execute => exact absurd hsuits id
  | next | read | finish | tableExists | release | begin | commit | rollback => cases hs

/-- A job on rows has a statement. -/
theorem Job.exists_rows {job : Job} (h : job.kind = .onRows) : ∃ s, job.rows? = some s := by
  cases job with
  | ensure | drop => cases h
  | insert s | update s | delete s | fetchRow s | fetchColumn s => exact ⟨s, rfl⟩

/-- A job on rows leaves the cache alone at every line. -/
theorem Job.Within.idle {σ : Type} {d : Driver σ} {ms : Models n} {root : Fin n} {job : Job}
    (h : job.Within ms root .onRows) (w : World σ) :
    ∀ entry ∈ ((job.task d).exec w).journal, ¬ entry.ChangesCache := by
  obtain ⟨s, hs⟩ := Job.exists_rows h.kind_eq
  exact fun entry hentry => (Job.rows_lines hs w entry hentry).idle

section Calls

variable {σ : Type} {d : Driver σ} {ms : Models n} {j : Fin n} {w : World σ} {call : Call}
  {answer : Except DriverError call.Answer}

/-- The calls of a job suit its kind and are made on behalf of a model of the closure. -/
theorem Job.Within.calls {root : Fin n} {kind : Job.Kind} {job : Job}
    (hjob : job.Within ms root kind) (h : .call call answer ∈ ((job.task d).exec w).journal) :
    call.Suits kind ∧ ∃ j ∈ ms.closure root, call.Serves ms j := by
  have hrows : ∀ s, job.rows? = some s → ∀ j, ms.Uses j s →
      call.Suits .onRows ∧ call.Serves ms j := by
    intro s hs j huses
    have hworks : call.WorksOn s := Job.rows_lines hs w _ h
    cases call with
    | query | insert | update | delete =>
        rcases hworks with rfl
        exact ⟨trivial, huses⟩
    | next | read | finish => exact ⟨trivial, trivial⟩
    | release | begin | commit | rollback | execute | tableExists => exact absurd hworks id
  obtain ⟨rfl, j, hj, hserves⟩ := hjob
  cases job with
  | ensure witness creating definition =>
      obtain ⟨htable, -, hdefinition⟩ := hserves
      rcases Session.ensure_makes h with rfl | ⟨s, hs, rfl⟩
      · exact ⟨trivial, j, hj, htable⟩
      · obtain ⟨hcreation, hs⟩ := hdefinition s hs
        exact ⟨hcreation, j, hj, (congrArg (ms.Owns j) hs).mpr htable⟩
  | drop table origin dropping statement =>
      obtain ⟨htable, -, rfl⟩ := hserves
      obtain rfl := Session.dropKnown_makes h
      exact ⟨⟨table, rfl⟩, j, hj, htable⟩
  | insert s | update s | delete s | fetchRow s | fetchColumn s =>
      obtain ⟨hsuits, hcall⟩ := hrows s rfl j hserves
      exact ⟨hsuits, j, hj, hcall⟩

end Calls

/-! ## The tables of statements -/

namespace Bound

variable {b : Bound c k} {f : Field c} {s : Sql.Statement} {table : String}

/-- The link table of a record's field belongs to a relation that the record's model declares. -/
theorem linkTable_relation (hf : f.descriptor ∈ b.descriptors) (h : b.linkTable f = .ok table) :
    ∃ rs, c.relations k = .ok rs ∧ ∃ r ∈ rs, table = c.linkTable r := by
  have hrs : c.relations k = .ok (b.descriptors.filterMap (·.relation? k)) :=
    bind_eq_ok.2 ⟨b.descriptors, b.described, rfl⟩
  rw [linkTable] at h
  split at h
  · rename_i r hr
    cases h
    exact ⟨_, hrs, r, List.mem_filterMap.2 ⟨_, hf, hr⟩, rfl⟩
  · cases h

/-- A statement on the links of a field uses the field's link table. -/
theorem uses_links (hf : f.descriptor ∈ b.descriptors) (h : b.linkTable f = .ok s.table)
    (hs : s.IsOnLinks) : c.Uses k s := by
  obtain ⟨rs, hrs, r, hr, htable⟩ := linkTable_relation hf h
  exact .links hs hrs hr htable

theorem uses_insertRow (h : b.insertRow = .ok s) : c.Uses k s := by
  obtain ⟨as, -, h⟩ := bind_eq_ok.1 h
  cases h
  exact .rows trivial rfl

theorem uses_updateRow (h : b.updateRow = .ok s) : c.Uses k s := by
  obtain ⟨key, -, h⟩ := bind_eq_ok.1 h
  obtain ⟨as, -, h⟩ := bind_eq_ok.1 h
  dsimp only at h
  split at h
  · cases h
  · cases h
    exact .rows trivial rfl

theorem uses_deleteRow (h : b.deleteRow = .ok s) : c.Uses k s := by
  obtain ⟨key, -, h⟩ := bind_eq_ok.1 h
  cases h
  exact .rows trivial rfl

theorem uses_selectRow (h : b.selectRow = .ok s) : c.Uses k s := by
  obtain ⟨key, -, h⟩ := bind_eq_ok.1 h
  cases h
  exact .rows trivial rfl

theorem uses_insertLink {related : Record c} (hf : f.descriptor ∈ b.descriptors)
    (h : b.insertLink f related = .ok s) : c.Uses k s := by
  obtain ⟨table, htable, h⟩ := bind_eq_ok.1 h
  obtain ⟨left, -, h⟩ := bind_eq_ok.1 h
  obtain ⟨right, -, h⟩ := bind_eq_ok.1 h
  cases h
  exact uses_links hf htable trivial

theorem uses_deleteLink {related : Record c} (hf : f.descriptor ∈ b.descriptors)
    (h : b.deleteLink f related = .ok s) : c.Uses k s := by
  obtain ⟨table, htable, h⟩ := bind_eq_ok.1 h
  obtain ⟨left, -, h⟩ := bind_eq_ok.1 h
  obtain ⟨right, -, h⟩ := bind_eq_ok.1 h
  cases h
  exact uses_links hf htable trivial

theorem uses_clearLinks (hf : f.descriptor ∈ b.descriptors) (h : b.clearLinks f = .ok s) :
    c.Uses k s := by
  obtain ⟨table, htable, h⟩ := bind_eq_ok.1 h
  obtain ⟨left, -, h⟩ := bind_eq_ok.1 h
  cases h
  exact uses_links hf htable trivial

theorem uses_selectLinks (hf : f.descriptor ∈ b.descriptors) (h : b.selectLinks f = .ok s) :
    c.Uses k s := by
  obtain ⟨table, htable, h⟩ := bind_eq_ok.1 h
  obtain ⟨left, -, h⟩ := bind_eq_ok.1 h
  cases h
  exact uses_links hf htable trivial

end Bound

/-! ## The models that columns are built on -/

/-- A type that is built on a model is a relation to it. -/
theorem ColumnType.relation_of_base? {t : ColumnType n} {j : Fin n} (h : t.base? = some j) :
    ∃ relation, t.classify.relation = some relation ∧ relation.model = j := by
  induction t with
  | entity i =>
      cases h
      exact ⟨_, rfl, rfl⟩
  | nullable t ih | boxed t ih =>
      obtain ⟨relation, hrelation, hmodel⟩ := ih h
      exact ⟨{ relation with isPointer := true }, Option.map_eq_some_iff.2 ⟨_, hrelation, rfl⟩,
        hmodel⟩
  | list t ih =>
      obtain ⟨relation, hrelation, hmodel⟩ := ih h
      refine ⟨relation, ?_, hmodel⟩
      rw [classify, FieldType.list, hrelation]
  | bool | integer | float | double | text | dateTime | raw => cases h

/-- The columns of a model of a closure are built on models of the closure. -/
theorem Models.base?_mem_closure {ms : Models n} {root : Fin n} (hk : k ∈ ms.closure root)
    {t : ColumnType n} (ht : t ∈ (ms.model k).columnTypes) {j : Fin n} (hj : t.base? = some j) :
    j ∈ ms.closure root := by
  obtain ⟨f, hf, rfl⟩ := List.mem_map.1 ht
  obtain ⟨relation, hrelation, hmodel⟩ := ColumnType.relation_of_base? hj
  exact closure_refers hk ⟨f, hf, relation, hrelation, hmodel⟩

end EntityMapper
