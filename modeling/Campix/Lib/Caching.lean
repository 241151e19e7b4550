import Mathlib.Data.List.Nodup
import Mathlib.Logic.Function.Basic

/-!
# Maps with a bounded number of entries

A cache that is asked to hold one more entry than it can puts another one out and
returns it. `BoundedMap` is the interface of such a cache with the rules that its users
rely on, whichever entry it chooses; `leastRecent` is the one that puts out the entry
used least recently.
-/

namespace Campix.Lib.Caching

set_option autoImplicit false

variable {Key Value : Type} [DecidableEq Key]

structure BoundedMap (Key Value : Type) [DecidableEq Key] where
  Cache : Type
  capacity : Nat
  lookup : Cache → Key → Option Value
  keys : Cache → List Key
  empty : Cache
  /-- The value behind a mutable reference; the cache notes the use. -/
  getMut : Cache → Key → Option Value × Cache
  /-- A write through the reference. -/
  assign : Cache → Key → Value → Cache
  push : Cache → Key → Value → Option (Key × Value) × Cache
  pop : Cache → Key → Option Value × Cache
  keys_nodup : ∀ cache, (keys cache).Nodup
  mem_keys : ∀ cache key, key ∈ keys cache ↔ lookup cache key ≠ none
  bounded : ∀ cache, (keys cache).length ≤ capacity
  lookup_empty : ∀ key, lookup empty key = none
  get_mut_value : ∀ cache key, (getMut cache key).1 = lookup cache key
  lookup_get_mut : ∀ cache key, lookup (getMut cache key).2 = lookup cache
  lookup_assign : ∀ cache key value, lookup cache key ≠ none →
    lookup (assign cache key value) = Function.update (lookup cache) key (some value)
  lookup_push : ∀ cache key value, lookup cache key = none → (push cache key value).1 = none →
    lookup (push cache key value).2 = Function.update (lookup cache) key (some value)
  lookup_push_evicted : ∀ cache key value old oldValue, lookup cache key = none →
    (push cache key value).1 = some (old, oldValue) →
      lookup cache old = some oldValue ∧ lookup (push cache key value).2 =
        Function.update (Function.update (lookup cache) old none) key (some value)
  pop_value : ∀ cache key, (pop cache key).1 = lookup cache key
  lookup_pop : ∀ cache key, lookup (pop cache key).2 = Function.update (lookup cache) key none

structure Recent (Key Value : Type) (capacity : Nat) where
  entries : List (Key × Value)
  nodup : (entries.map Prod.fst).Nodup
  bounded : entries.length ≤ capacity

namespace Recent

variable {capacity : Nat}

def find (entries : List (Key × Value)) (key : Key) : Option Value :=
  (entries.find? fun entry => entry.1 = key).map Prod.snd

def others (entries : List (Key × Value)) (key : Key) : List (Key × Value) :=
  entries.filter fun entry => entry.1 ≠ key

theorem find_cons (entries : List (Key × Value)) (key : Key) (value : Value) :
    find ((key, value) :: entries) = Function.update (find entries) key (some value) := by
  funext other
  unfold find
  by_cases same : other = key
  · rw [same, Function.update_self, List.find?_cons_of_pos (by simp)]
    rfl
  · rw [Function.update_of_ne same, List.find?_cons_of_neg (by simpa using Ne.symm same)]

theorem find_others (entries : List (Key × Value)) (key : Key) :
    find (others entries key) = Function.update (find entries) key none := by
  funext other
  unfold find others
  rw [List.find?_filter]
  by_cases same : other = key
  · rw [same, Function.update_self, Option.map_eq_none_iff, List.find?_eq_none]
    intro entry _
    simp
  · rw [Function.update_of_ne same]
    apply congrArg (Option.map Prod.snd)
    apply congrArg (fun p => List.find? p entries)
    funext entry
    by_cases here : entry.1 = other
    · simp [here, same]
    · simp [here]

theorem mem_iff_find (entries : List (Key × Value)) (key : Key) :
    key ∈ entries.map Prod.fst ↔ find entries key ≠ none := by
  rw [find, ne_eq, Option.map_eq_none_iff, List.find?_eq_none, List.mem_map]
  push Not
  constructor
  · rintro ⟨entry, member, rfl⟩
    exact ⟨entry, member, by simp⟩
  · rintro ⟨entry, member, here⟩
    exact ⟨entry, member, by simpa using here⟩

theorem find_of_mem {entries : List (Key × Value)} (nodup : (entries.map Prod.fst).Nodup)
    {entry : Key × Value} (member : entry ∈ entries) : find entries entry.1 = some entry.2 := by
  induction entries with
  | nil => exact absurd member List.not_mem_nil
  | cons first entries ih =>
      rw [List.map_cons, List.nodup_cons] at nodup
      have shape := find_cons entries first.1 first.2
      rw [shape]
      rcases List.mem_cons.mp member with rfl | later
      · exact Function.update_self _ _ _
      · have apart : entry.1 ≠ first.1 := fun same =>
          nodup.1 (same ▸ List.mem_map_of_mem later)
        rw [Function.update_of_ne apart]
        exact ih nodup.2 later

def drop (cache : Recent Key Value capacity) (key : Key) : Recent Key Value capacity where
  entries := others cache.entries key
  nodup := cache.nodup.sublist (List.filter_sublist.map Prod.fst)
  bounded := Nat.le_trans (List.length_filter_le _ _) cache.bounded

theorem others_shorter {entries : List (Key × Value)} {key : Key}
    (found : find entries key ≠ none) : (others entries key).length < entries.length := by
  obtain ⟨entry, member, rfl⟩ := List.mem_map.mp ((mem_iff_find entries key).mpr found)
  apply List.length_filter_lt_length_iff_exists.mpr
  exact ⟨entry, member, by simp⟩

theorem key_not_in_others (entries : List (Key × Value)) (key : Key) :
    key ∉ (others entries key).map Prod.fst := by
  rw [mem_iff_find, find_others, Function.update_self]
  exact fun impossible => impossible rfl

def refresh (cache : Recent Key Value capacity) (key : Key) (value : Value)
    (found : find cache.entries key ≠ none) : Recent Key Value capacity where
  entries := (key, value) :: others cache.entries key
  nodup := List.nodup_cons.mpr
    ⟨key_not_in_others cache.entries key, (cache.drop key).nodup⟩
  bounded := Nat.lt_of_lt_of_le (others_shorter found) cache.bounded

def use (cache : Recent Key Value capacity) (key : Key) : Recent Key Value capacity :=
  match found : find cache.entries key with
  | none => cache
  | some value => cache.refresh key value (by rw [found]; simp)

def put (cache : Recent Key Value capacity) (key : Key) (value : Value) :
    Recent Key Value capacity :=
  if found : find cache.entries key ≠ none then cache.refresh key value found else cache

theorem find_use (cache : Recent Key Value capacity) (key : Key) :
    find (cache.use key).entries = find cache.entries := by
  unfold use
  split
  · rfl
  · rename_i value found
    rw [refresh, find_cons, find_others, Function.update_idem, ← found, Function.update_eq_self]

theorem find_put (cache : Recent Key Value capacity) (key : Key) (value : Value)
    (found : find cache.entries key ≠ none) :
    find (cache.put key value).entries = Function.update (find cache.entries) key (some value) := by
  rw [put, dif_pos found, refresh, find_cons, find_others, Function.update_idem]

/-- Adds an entry for a new key, at the cost of the last one if the cache is full. -/
def insert (cache : Recent Key Value capacity) (positive : 0 < capacity) (key : Key) (value : Value)
    (missing : find cache.entries key = none) :
    Option (Key × Value) × Recent Key Value capacity :=
  have fresh : key ∉ cache.entries.map Prod.fst := fun member =>
    (mem_iff_find cache.entries key).mp member missing
  if room : cache.entries.length < capacity then
    (none,
      { entries := (key, value) :: cache.entries
        nodup := List.nodup_cons.mpr ⟨fresh, cache.nodup⟩
        bounded := room })
  else
    (cache.entries.getLast?,
      { entries := (key, value) :: cache.entries.dropLast
        nodup := List.nodup_cons.mpr ⟨fun member => fresh
            ((List.dropLast_sublist cache.entries).map Prod.fst |>.subset member),
          cache.nodup.sublist ((List.dropLast_sublist cache.entries).map Prod.fst)⟩
        bounded := by
          have full := cache.bounded
          rw [List.length_cons, List.length_dropLast]
          omega })

def push (cache : Recent Key Value capacity) (positive : 0 < capacity) (key : Key) (value : Value) :
    Option (Key × Value) × Recent Key Value capacity :=
  match found : find cache.entries key with
  | some old => (some (key, old), cache.put key value)
  | none => cache.insert positive key value found

theorem push_new (cache : Recent Key Value capacity) (positive : 0 < capacity) (key : Key)
    (value : Value) (missing : find cache.entries key = none) :
    cache.push positive key value = cache.insert positive key value missing := by
  unfold push
  split
  · rename_i old found
    exact absurd (missing.symm.trans found) (by simp)
  · rfl

theorem find_dropLast {entries : List (Key × Value)} (nodup : (entries.map Prod.fst).Nodup)
    {last : Key × Value} (ends : entries.getLast? = some last) :
    find entries.dropLast = Function.update (find entries) last.1 none := by
  have shape := List.dropLast_append_getLast? last ends
  have apart : ∀ entry ∈ entries.dropLast, entry.1 ≠ last.1 := by
    intro entry member same
    rw [← shape, List.map_append, List.nodup_append] at nodup
    exact nodup.2.2 entry.1 (List.mem_map_of_mem member) last.1 (by simp) same
  have front : others entries last.1 = entries.dropLast := by
    rw [others]
    nth_rewrite 1 [← shape]
    rw [List.filter_append, List.filter_eq_self.mpr, List.filter_cons_of_neg (by simp),
      List.filter_nil, List.append_nil]
    intro entry member
    simpa using apart entry member
  rw [← front, find_others]

end Recent

def leastRecent (Key Value : Type) [DecidableEq Key] (capacity : Nat) (positive : 0 < capacity) :
    BoundedMap Key Value where
  Cache := Recent Key Value capacity
  capacity := capacity
  lookup cache := Recent.find cache.entries
  keys cache := cache.entries.map Prod.fst
  empty := ⟨[], List.nodup_nil, Nat.zero_le _⟩
  getMut cache key := (Recent.find cache.entries key, cache.use key)
  assign cache key value := cache.put key value
  push cache key value := cache.push positive key value
  pop cache key := (Recent.find cache.entries key, cache.drop key)
  keys_nodup cache := cache.nodup
  mem_keys cache key := Recent.mem_iff_find cache.entries key
  bounded cache := by
    rw [List.length_map]
    exact cache.bounded
  lookup_empty _ := rfl
  get_mut_value _ _ := rfl
  lookup_get_mut cache key := cache.find_use key
  lookup_assign cache key value found := cache.find_put key value found
  lookup_push cache key value missing none := by
    rw [Recent.push_new cache positive key value missing] at none ⊢
    unfold Recent.insert at none ⊢
    by_cases room : cache.entries.length < capacity
    · rw [dif_pos room]
      exact Recent.find_cons _ _ _
    · rw [dif_neg room] at none
      have nil : cache.entries = [] := List.getLast?_eq_none_iff.mp none
      rw [nil] at room
      exact absurd positive room
  lookup_push_evicted cache key value old oldValue missing evicted := by
    rw [Recent.push_new cache positive key value missing] at evicted ⊢
    unfold Recent.insert at evicted ⊢
    by_cases room : cache.entries.length < capacity
    · rw [dif_pos room] at evicted
      exact absurd evicted (by simp)
    · rw [dif_neg room] at evicted ⊢
      have member := List.mem_of_getLast? evicted
      refine ⟨Recent.find_of_mem cache.nodup member, ?_⟩
      rw [Recent.find_cons, Recent.find_dropLast cache.nodup evicted]
  pop_value _ _ := rfl
  lookup_pop cache key := Recent.find_others cache.entries key

end Campix.Lib.Caching
