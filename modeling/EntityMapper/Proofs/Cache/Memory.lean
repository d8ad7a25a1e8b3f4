import EntityMapper.Cache.Memory
import Mathlib.Data.Set.Card

/-!
# Stores that follow their history

A store of entries with a lifetime is a map with deadlines: what it answers is decided by the calls
that were made on it (`MemoryCache.follows`). `MemoryCache.get?_serve` says what a call does to an
entry and `MemoryCache.get?_after` what a history leaves of it, for any clock. That a fetch depends
on nothing but the last put of its key needs a clock that never goes back: an entry that an earlier
fetch has found expired is gone.
-/

namespace EntityMapper

/-! ## What stands at the end of a history -/

section Stands

variable {β : Type} {begins ends : β → Prop} {history : List β} {c : β}

/-- Whether an event of a history begins something that no later event of it ends. -/
def Stands (begins ends : β → Prop) (history : List β) : Prop :=
  ∃ early b late, history = early ++ b :: late ∧ begins b ∧ ∀ c ∈ late, ¬ ends c

theorem not_stands_nil : ¬ Stands begins ends [] := by
  rintro ⟨early, b, late, heq, -⟩
  simp at heq

/-- An event lets stand what it begins, and what stood before it and it does not end. -/
theorem stands_concat :
    Stands begins ends (history ++ [c]) ↔ begins c ∨ Stands begins ends history ∧ ¬ ends c := by
  constructor
  · -- What begins is the last event itself, or it stands among the earlier ones.
    rintro ⟨early, b, late, heq, hbegins, hlate⟩
    rcases List.eq_nil_or_concat late with rfl | ⟨late, d, rfl⟩
    · have hlast := (List.append_inj' heq rfl).2
      exact .inl ((List.cons.inj hlast).1 ▸ hbegins)
    · rw [List.concat_eq_append, ← List.cons_append, ← List.append_assoc] at heq
      obtain ⟨hhistory, hlast⟩ := List.append_inj' heq rfl
      obtain rfl : c = d := (List.cons.inj hlast).1
      rw [List.concat_eq_append, List.forall_mem_append] at hlate
      exact .inr ⟨⟨early, b, late, hhistory, hbegins, hlate.1⟩, hlate.2 c List.mem_cons_self⟩
  · rintro (hbegins | ⟨⟨early, b, late, rfl, hbegins, hlate⟩, hends⟩)
    · exact ⟨history, c, [], rfl, hbegins, by simp⟩
    · refine ⟨early, b, late ++ [c], by simp, hbegins, ?_⟩
      exact List.forall_mem_append.2 ⟨hlate, List.forall_mem_singleton.2 hends⟩

/-- What stands stands for as long as fewer events end it. -/
theorem Stands.mono {ends' : β → Prop} (h : Stands begins ends history)
    (hends : ∀ c ∈ history, ends' c → ends c) : Stands begins ends' history := by
  obtain ⟨early, b, late, rfl, hbegins, hlate⟩ := h
  refine ⟨early, b, late, rfl, hbegins, fun c hc hends' => hlate c hc (hends c ?_ hends')⟩
  exact List.mem_append_right _ (List.mem_cons_of_mem _ hc)

/-- What stands among events of a kind. -/
theorem stands_filter (p : β → Prop) [DecidablePred p] :
    Stands begins ends (history.filter (p ·)) ↔
      Stands (fun c => p c ∧ begins c) (fun c => p c ∧ ends c) history := by
  induction history using List.reverseRecOn with
  | nil => exact iff_of_false not_stands_nil not_stands_nil
  | append_singleton history c ih =>
      rw [List.filter_append, List.filter_singleton, stands_concat, ← ih]
      by_cases h : p c
      · rw [decide_eq_true h, cond_true, stands_concat]
        simp only [h, true_and]
      · rw [decide_eq_false h, cond_false, List.append_nil]
        simp only [h, false_and, false_or, not_false_eq_true, and_true]

/-- What stands among events that others are read as. -/
theorem stands_map {γ : Type} (f : γ → β) (events : List γ) :
    Stands begins ends (events.map f) ↔
      Stands (fun c => begins (f c)) (fun c => ends (f c)) events := by
  induction events using List.reverseRecOn with
  | nil => exact iff_of_false not_stands_nil not_stands_nil
  | append_singleton events c ih => rw [List.map_append, List.map_singleton, stands_concat,
      stands_concat, ih]

end Stands

/-! ## The keys of a map -/

namespace KeyMap

variable {α : Type}

theorem mem_entryKeys_iff {key : String} {entries : List (String × α)} :
    key ∈ entryKeys entries ↔ ∃ value, lookupEntry key entries = some value := by
  induction entries with
  | nil => simp [entryKeys, lookupEntry]
  | cons entry entries ih =>
      obtain ⟨other, held⟩ := entry
      rw [entryKeys, List.map_cons, List.mem_cons, lookupEntry]
      split_ifs with h
      · simp [h]
      · rw [← ih, entryKeys]
        simp [Ne.symm h]

/-- The size of a map is the number of keys that have a value. -/
theorem encard_keys (m : KeyMap α) : {key | ∃ value, m.get? key = some value}.encard = m.size := by
  have hkeys : {key | ∃ value, m.get? key = some value}
      = ((entryKeys m.entries).toFinset : Set String) := by
    ext key
    rw [List.coe_toFinset]
    exact mem_entryKeys_iff.symm
  rw [hkeys, Set.encard_coe_eq_coe_finsetCard, List.toFinset_card_of_nodup m.nodup, entryKeys,
    List.length_map, size]

end KeyMap

namespace TimedEntry

variable {α : Type} {e : TimedEntry α} {now : Nat}

theorem isExpired_iff : e.isExpired now = true ↔ ∃ d ∈ e.deadline, d ≤ now := by
  simp [isExpired, Option.any_eq_true]

theorem not_isExpired_iff : ¬ e.isExpired now = true ↔ ∀ d ∈ e.deadline, now < d := by
  simp [isExpired_iff]

end TimedEntry

namespace MemoryCache

variable {α : Type}

/-! ## Calls -/

/-- What a store can be asked to do. -/
inductive Request (α : Type)
  | put (key : String) (value : α) (lifetime : Lifetime)
  | fetch (key : String)
  | remove (key : String)
  | clear
  deriving DecidableEq

/-- A request and the time at which it is served. -/
structure Call (α : Type) where
  time : Nat
  request : Request α
  deriving DecidableEq

/-- Serves a call: what a fetch finds, and the store that is left. -/
def serve (m : MemoryCache α) (c : Call α) : Option α × MemoryCache α :=
  match c.request with
  | .put key value lifetime => (none, m.put c.time key value lifetime)
  | .fetch key => m.fetch c.time key
  | .remove key => (none, m.remove key)
  | .clear => (none, clear)

/-- The store that a history of calls makes of an empty one. -/
def after (history : List (Call α)) : MemoryCache α :=
  history.foldl (fun m c => (m.serve c).2) empty

/-- The store after one more call. -/
theorem after_concat (history : List (Call α)) (c : Call α) :
    after (history ++ [c]) = ((after history).serve c).2 := by
  rw [after, List.foldl_append]
  rfl

/-- Whether the clock never goes back in a history. -/
def Chronological (history : List (Call α)) : Prop := history.Pairwise (·.time ≤ ·.time)

instance (history : List (Call α)) : Decidable (Chronological history) := by
  unfold Chronological; infer_instance

namespace Call

variable (c : Call α) (key : String)

/-- Whether a call puts an entry under a key. -/
def Puts (e : TimedEntry α) : Prop :=
  ∃ lifetime, c.request = .put key e.value lifetime ∧ e.deadline = lifetime.deadline? c.time

/-- Whether a call displaces what is under a key, whatever it is: by another put of the key, or
by removing the key or all keys. -/
def Displaces : Prop :=
  (∃ value lifetime, c.request = .put key value lifetime) ∨ c.request = .remove key ∨
    c.request = .clear

/-- Whether a call is a fetch of a key that comes too late for a deadline. -/
def FindsExpired (deadline : Option Nat) : Prop :=
  c.request = .fetch key ∧ ∃ d ∈ deadline, d ≤ c.time

variable {c key} {time : Nat} {other : String} {value : α} {lifetime : Lifetime} {e : TimedEntry α}

theorem puts_iff : (⟨time, .put other value lifetime⟩ : Call α).Puts key e ↔
    key = other ∧ e = ⟨value, lifetime.deadline? time⟩ := by
  obtain ⟨held, deadline⟩ := e
  simp only [Puts, Request.put.injEq, TimedEntry.mk.injEq]
  constructor
  · rintro ⟨_, ⟨rfl, rfl, rfl⟩, rfl⟩
    exact ⟨rfl, rfl, rfl⟩
  · rintro ⟨rfl, rfl, rfl⟩
    exact ⟨lifetime, ⟨rfl, rfl, rfl⟩, rfl⟩

theorem displaces_put_iff :
    (⟨time, .put other value lifetime⟩ : Call α).Displaces key ↔ key = other := by
  simp [Displaces, eq_comm]

end Call

/-! ## What calls do -/

variable {m : MemoryCache α} {now : Nat} {key other : String} {value : α} {e : TimedEntry α}
  {c : Call α} {history : List (Call α)}

/-- A fetch finds what is under its key before the deadline. -/
theorem fetch_eq_some_iff : (m.fetch now key).1 = some value ↔
    ∃ deadline, m.entries.get? key = some ⟨value, deadline⟩ ∧ ∀ d ∈ deadline, now < d := by
  rw [fetch]
  cases m.entries.get? key with
  | none => simp
  | some e =>
      obtain ⟨held, deadline⟩ := e
      dsimp only
      split_ifs with hexpired
      · refine iff_of_false (by simp) ?_
        rintro ⟨_, hheld, hlive⟩
        cases hheld
        exact TimedEntry.not_isExpired_iff.2 hlive hexpired
      · constructor
        · intro h
          cases h
          exact ⟨deadline, rfl, TimedEntry.not_isExpired_iff.1 hexpired⟩
        · rintro ⟨_, hheld, -⟩
          cases hheld
          rfl

/-- A fetch leaves every entry in place but the one of its key when it has expired. -/
theorem get?_fetch : (m.fetch now key).2.entries.get? other = some e ↔
    m.entries.get? other = some e ∧ (other = key → ∀ d ∈ e.deadline, now < d) := by
  rw [fetch, ← TimedEntry.not_isExpired_iff]
  cases hget : m.entries.get? key with
  | none =>
      refine ⟨fun h => ⟨h, ?_⟩, And.left⟩
      rintro rfl
      cases hget.symm.trans h
  | some held =>
      dsimp only
      split_ifs with hexpired
      · rw [KeyMap.get?_erase]
        split_ifs with hkey
        · subst hkey
          refine iff_of_false (by simp) ?_
          rintro ⟨hheld, hlive⟩
          cases hget.symm.trans hheld
          exact hlive rfl hexpired
        · simp [hkey]
      · refine ⟨fun h => ⟨h, ?_⟩, And.left⟩
        rintro rfl
        cases hget.symm.trans h
        exact hexpired

/-- What a call leaves under a key is what it puts there, or what was there before unless the call
displaces it or finds it expired. -/
theorem get?_serve : (m.serve c).2.entries.get? key = some e ↔ c.Puts key e ∨
    m.entries.get? key = some e ∧ ¬ (c.Displaces key ∨ c.FindsExpired key e.deadline) := by
  obtain ⟨time, request⟩ := c
  cases request with
  | put other value lifetime =>
      simp only [serve, put, KeyMap.get?_insert, Call.puts_iff, Call.displaces_put_iff]
      split_ifs with h
      · simp [h, eq_comm]
      · simp [h, Call.FindsExpired]
  | fetch other =>
      simp only [serve, get?_fetch, Call.Puts, Call.Displaces, Call.FindsExpired]
      simp [eq_comm]
  | remove other =>
      simp only [serve, remove, KeyMap.get?_erase, Call.Puts, Call.Displaces, Call.FindsExpired]
      by_cases h : key = other <;> simp [h, eq_comm]
  | clear => simp [serve, clear, empty, Call.Puts, Call.Displaces]

/-- What is under a key after a history is what was put there and neither displaced nor found
expired since. -/
theorem get?_after : (after history).entries.get? key = some e ↔
    Stands (·.Puts key e) (fun c => c.Displaces key ∨ c.FindsExpired key e.deadline) history := by
  induction history using List.reverseRecOn with
  | nil => exact iff_of_false (by simp [after, empty]) not_stands_nil
  | append_singleton history c ih =>
      rw [after_concat, get?_serve, stands_concat, ih]

/-- Before a deadline no earlier fetch has come too late for it. -/
theorem not_findsExpired {deadline : Option Nat} (hlive : ∀ d ∈ deadline, now < d)
    (hbefore : c.time ≤ now) : ¬ c.FindsExpired key deadline := by
  rintro ⟨-, d, hd, hle⟩
  exact absurd (hlive d hd) (Nat.not_lt_of_le (hle.trans hbefore))

/-- What a store answers and holds, in terms of the calls that were made on it. -/
structure Follows (history : List (Call α)) : Prop where
  /-- A fetch finds the value of the last put of its key, unless that was removed or has reached its
  deadline, as long as the clock has not gone back. -/
  fetch_iff : ∀ now key value, Chronological (history ++ [⟨now, .fetch key⟩]) →
    (((after history).fetch now key).1 = some value ↔ ∃ deadline,
      Stands (·.Puts key ⟨value, deadline⟩) (·.Displaces key) history ∧ ∀ d ∈ deadline, now < d)
  /-- A fetch leaves all entries as they are but the one of its key when it has expired. -/
  fetch_leaves : ∀ now key other e,
    ((after history).fetch now key).2.entries.get? other = some e ↔
      (after history).entries.get? other = some e ∧ (other = key → ∀ d ∈ e.deadline, now < d)
  /-- The size is the number of keys that were put and neither removed nor found expired since. -/
  size_eq : {key | ∃ e, Stands (·.Puts key e)
      (fun c => c.Displaces key ∨ c.FindsExpired key e.deadline) history}.encard
    = (after history).size

/-- Every store follows its history. -/
theorem follows (history : List (Call α)) : Follows history where
  fetch_iff now key value hclock := by
    have hbefore : ∀ c ∈ history, c.time ≤ now := fun c hc =>
      (List.pairwise_append.1 hclock).2.2 c hc _ List.mem_cons_self
    simp only [fetch_eq_some_iff, get?_after]
    refine exists_congr fun deadline => and_congr_left fun hlive => ?_
    constructor
    · exact fun h => h.mono fun c _ => .inl
    · -- An earlier fetch that found the entry expired would have been served after its deadline.
      refine fun h => h.mono fun c hc hends => hends.resolve_right ?_
      exact not_findsExpired hlive (hbefore c hc)
  fetch_leaves _ _ _ _ := get?_fetch
  size_eq := by
    simp only [← get?_after]
    exact KeyMap.encard_keys _

end MemoryCache

end EntityMapper
