/-! # Maps keyed by text

A finite map from text, kept in the order of first insertion. Looking up after an insertion
or an erasure is described by `get?_insert` and `get?_erase`.
-/

namespace EntityMapper

/-- The keys of a list of entries. -/
def entryKeys {α : Type} (entries : List (String × α)) : List String := entries.map (·.1)

/-- The value of the first entry with a key. -/
def lookupEntry {α : Type} (key : String) : List (String × α) → Option α
  | [] => none
  | (other, held) :: entries => if other = key then some held else lookupEntry key entries

/-- Puts a value under a key among entries, in place of an earlier one. -/
def insertEntry {α : Type} (key : String) (value : α) :
    List (String × α) → List (String × α)
  | [] => [(key, value)]
  | (other, held) :: entries =>
      if other = key then (key, value) :: entries
      else (other, held) :: insertEntry key value entries

theorem mem_entryKeys_insertEntry {α : Type} {key other : String} {value : α}
    {entries : List (String × α)} :
    other ∈ entryKeys (insertEntry key value entries) ↔ other = key ∨ other ∈ entryKeys entries := by
  induction entries with
  | nil => simp [insertEntry, entryKeys]
  | cons e es ih =>
    obtain ⟨k, v⟩ := e
    by_cases h : k = key
    · subst h; simp [insertEntry, entryKeys]
    · simp only [insertEntry, h, if_false, entryKeys, List.map_cons, List.mem_cons]
      simp only [entryKeys] at ih
      rw [ih]
      constructor
      · rintro (a | a | a) <;> simp [a]
      · rintro (a | a | a) <;> simp [a]

theorem nodup_entryKeys_insertEntry {α : Type} {key : String} {value : α}
    {entries : List (String × α)} (h : (entryKeys entries).Nodup) :
    (entryKeys (insertEntry key value entries)).Nodup := by
  induction entries with
  | nil => simp [insertEntry, entryKeys]
  | cons e es ih =>
    obtain ⟨k, v⟩ := e
    simp only [entryKeys, List.map_cons, List.nodup_cons] at h
    by_cases hk : k = key
    · subst hk; simpa [insertEntry, entryKeys] using h
    · simp only [insertEntry, hk, if_false, entryKeys, List.map_cons, List.nodup_cons]
      refine ⟨fun mem => ?_, ih h.2⟩
      rcases mem_entryKeys_insertEntry.1 mem with rfl | mem
      · exact hk rfl
      · exact h.1 mem

/-- A finite map from text. -/
structure KeyMap (α : Type) where
  entries : List (String × α)
  nodup : (entryKeys entries).Nodup

namespace KeyMap

variable {α : Type}

/-- The map without entries. -/
def empty : KeyMap α := ⟨[], List.nodup_nil⟩

instance : Inhabited (KeyMap α) := ⟨empty⟩

/-- The value under a key. -/
def get? (m : KeyMap α) (key : String) : Option α := lookupEntry key m.entries

/-- The map with a value put under a key. -/
def insert (m : KeyMap α) (key : String) (value : α) : KeyMap α :=
  ⟨insertEntry key value m.entries, nodup_entryKeys_insertEntry m.nodup⟩

/-- The map without a key. -/
def erase (m : KeyMap α) (key : String) : KeyMap α :=
  ⟨m.entries.filter fun entry => entry.1 ≠ key, m.nodup.sublist (List.filter_sublist.map _)⟩

/-- The number of keys. -/
def size (m : KeyMap α) : Nat := m.entries.length

@[simp] theorem get?_empty (key : String) : (empty : KeyMap α).get? key = none := rfl

theorem lookupEntry_insertEntry (key other : String) (value : α)
    (entries : List (String × α)) :
    lookupEntry other (insertEntry key value entries) =
      if other = key then some value else lookupEntry other entries := by
  induction entries with
  | nil => simp [insertEntry, lookupEntry, eq_comm]
  | cons e es ih =>
    obtain ⟨k, v⟩ := e
    by_cases hk : k = key
    · subst hk
      by_cases h : k = other
      · simp [insertEntry, lookupEntry, h]
      · simp [insertEntry, lookupEntry, h, Ne.symm h]
    · by_cases h : k = other
      · subst h; simp [insertEntry, lookupEntry, hk]
      · simp [insertEntry, lookupEntry, hk, h, ih]

theorem lookupEntry_filter (key other : String) (entries : List (String × α)) :
    lookupEntry other (entries.filter fun entry => entry.1 ≠ key) =
      if other = key then none else lookupEntry other entries := by
  induction entries with
  | nil => simp [lookupEntry]
  | cons e es ih =>
    obtain ⟨k, v⟩ := e
    by_cases hk : k = key
    · subst hk
      by_cases h : k = other
      · subst h; simpa using ih
      · simpa [lookupEntry, h, Ne.symm h] using ih
    · by_cases h : k = other
      · subst h; simp [lookupEntry, hk]
      · simpa [lookupEntry, hk, h] using ih

theorem get?_insert (m : KeyMap α) (key other : String) (value : α) :
    (m.insert key value).get? other = if other = key then some value else m.get? other :=
  lookupEntry_insertEntry key other value m.entries

theorem get?_erase (m : KeyMap α) (key other : String) :
    (m.erase key).get? other = if other = key then none else m.get? other :=
  lookupEntry_filter key other m.entries

end KeyMap

end EntityMapper
