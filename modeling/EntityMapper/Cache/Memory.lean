import EntityMapper.Cache.KeyMap

/-! # Entries with a lifetime

A store whose entries may expire. An expired entry stays until it is asked for, and counts
until then. Time is a number of nanoseconds that the caller passes in.
-/

namespace EntityMapper

/-- How long an entry lives. -/
inductive Lifetime
  | forever
  | nanoseconds (count : Nat)
  deriving DecidableEq

/-- A lifetime of whole seconds. -/
def Lifetime.seconds (count : Nat) : Lifetime := .nanoseconds (count * 1000000000)

/-- The last nanosecond that the clock can tell: its seconds fill 63 bits. -/
def clockLimit : Nat := Nat.pow 2 63 * 1000000000 - 1

/-- The time at which an entry put now expires; beyond the clock's range it never does. -/
def Lifetime.deadline? (now : Nat) : Lifetime → Option Nat
  | forever => none
  | nanoseconds count => if now + count ≤ clockLimit then some (now + count) else none

/-- A value with the time at which it expires. -/
structure TimedEntry (α : Type) where
  value : α
  deadline : Option Nat

/-- Whether an entry has expired. -/
def TimedEntry.isExpired {α : Type} (e : TimedEntry α) (now : Nat) : Bool :=
  e.deadline.any (· ≤ now)

/-- A store of entries that may expire. -/
structure MemoryCache (α : Type) where
  entries : KeyMap (TimedEntry α)

namespace MemoryCache

variable {α : Type} (m : MemoryCache α)

/-- The store without entries. -/
def empty : MemoryCache α := ⟨.empty⟩

/-- Puts a value under a key, in place of an earlier one. -/
def put (now : Nat) (key : String) (value : α) (lifetime : Lifetime) : MemoryCache α :=
  ⟨m.entries.insert key ⟨value, lifetime.deadline? now⟩⟩

/-- The live value under a key. An expired entry is removed on the way. -/
def fetch (now : Nat) (key : String) : Option α × MemoryCache α :=
  match m.entries.get? key with
  | none => (none, m)
  | some e => if e.isExpired now then (none, ⟨m.entries.erase key⟩) else (some e.value, m)

/-- Removes a key. -/
def remove (key : String) : MemoryCache α := ⟨m.entries.erase key⟩

/-- Removes every key. -/
def clear : MemoryCache α := empty

/-- The number of entries, expired ones included. -/
def size : Nat := m.entries.size

end MemoryCache

end EntityMapper
