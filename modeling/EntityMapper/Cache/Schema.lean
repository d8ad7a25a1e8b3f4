import EntityMapper.Cache.KeyMap
import EntityMapper.Error
import EntityMapper.Model.Description

/-! # The schema cache

What is known to exist in the database: for every ensured table a witness that names the type
it was ensured for. Witnesses never expire. Several handles may share one cache.
-/

namespace EntityMapper

/-- The proof that a table was ensured for a type. -/
structure Witness where
  table : String
  name : String
  origin : String
  deriving DecidableEq

variable {n : Nat}

/-- The witness of a table owned by a model. -/
def Witness.ofTable (table : String) (owner : EntityModel n) : Witness :=
  ⟨table, owner.name, owner.origin⟩

/-- The witness of a model's own table. -/
def Witness.ofModel (m : EntityModel n) : Witness := .ofTable m.table m

/-- Witnesses by the names of their tables. -/
structure SchemaCache where
  witnesses : KeyMap Witness

namespace SchemaCache

variable (cache : SchemaCache)

/-- The cache without witnesses. -/
def empty : SchemaCache := ⟨.empty⟩

instance : Inhabited SchemaCache := ⟨empty⟩

/-- Notes a witness under its table, in place of an earlier one. -/
def put (w : Witness) : SchemaCache := ⟨cache.witnesses.insert w.table w⟩

/-- The witness of a table. -/
def fetch (table : String) : Option Witness := cache.witnesses.get? table

/-- Whether a table was ensured for a type; a table of another type is an error. -/
def check (table origin : String) : Except MapperError Bool :=
  match cache.fetch table with
  | none => .ok false
  | some w => if w.origin = origin then .ok true else .error (.foreignTable table w.origin origin)

/-- Forgets a table. -/
def remove (table : String) : SchemaCache := ⟨cache.witnesses.erase table⟩

/-- The number of witnesses. -/
def size : Nat := cache.witnesses.size

/-- A cache as diagnostics write it; its contents are not shown. -/
def diagnosticText (_ : SchemaCache) : String := "StructInfoCache \x7b .. \x7d"

end SchemaCache

/-- Caches behind handles. Handles with the same backend are clones of one another. -/
structure CachePool where
  backendOf : Nat → Nat
  backends : Nat → SchemaCache

namespace CachePool

/-- Empty caches behind handles. -/
def ofHandles (backendOf : Nat → Nat) : CachePool := ⟨backendOf, fun _ => .empty⟩

variable (pool : CachePool)

/-- The cache that a handle sees. -/
def view (handle : Nat) : SchemaCache := pool.backends (pool.backendOf handle)

/-- Changes the cache behind a handle. -/
def modify (handle : Nat) (f : SchemaCache → SchemaCache) : CachePool :=
  { pool with
    backends := fun backend =>
      if backend = pool.backendOf handle then f (pool.backends backend) else pool.backends backend }

end CachePool

end EntityMapper
