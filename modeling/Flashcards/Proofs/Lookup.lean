import Flashcards.Cache
import Mathlib.Data.List.Nodup
import Mathlib.Data.List.DropRight

/-!
# What a cache holds

A request does one of three things to a cache: it finds its template and moves it to the end, it
reads it and stores it, or it cannot be read and only the miss is counted (`get_cases`). Everything
else about caches is argued from these three.

Three facts survive all of them. What is kept under a key was read from that key, no key is kept
twice, and there are never more entries than there is room for.
-/

namespace Flashcards

namespace Cache

open Template

/-! ## Looking up -/

theorem mem_keys {cache : Cache} {key : CacheKey} :
    key ∈ cache.keys ↔ ∃ nodes, (key, nodes) ∈ cache.entries := by
  simp [keys]

theorem mem_of_find? {cache : Cache} {key : CacheKey} {nodes : Nodes}
    (h : cache.find? key = some nodes) : (key, nodes) ∈ cache.entries := by
  obtain ⟨entry, hentry, hnodes⟩ := Option.map_eq_some_iff.mp h
  have hmem := List.mem_of_find?_eq_some hentry
  have hkey : entry.1 = key := by simpa using List.find?_some hentry
  rw [← hkey, ← hnodes]
  exact hmem

theorem not_mem_of_find? {cache : Cache} {key : CacheKey} (h : cache.find? key = none) :
    key ∉ cache.keys := by
  intro hmem
  obtain ⟨nodes, hmem⟩ := mem_keys.mp hmem
  have hnone := List.find?_eq_none.mp (Option.map_eq_none_iff.mp h) _ hmem
  simp at hnone

/-- What a request does: it finds the template, reads and stores it, or cannot read it. -/
theorem get_cases (cache : Cache) (key : CacheKey) :
    (∃ nodes, (key, nodes) ∈ cache.entries ∧
      cache.get key = (.ok nodes, cache.touch key nodes)) ∨
    (∃ nodes, key ∉ cache.keys ∧ parse key.policy key.template = .ok nodes ∧
      cache.get key = (.ok nodes, cache.miss.store key nodes)) ∨
    (∃ error, key ∉ cache.keys ∧ parse key.policy key.template = .error error ∧
      cache.get key = (.error error, cache.miss)) := by
  cases hfind : cache.find? key with
  | some nodes =>
      exact .inl ⟨nodes, mem_of_find? hfind, by simp only [get, hfind]⟩
  | none =>
      have habsent := not_mem_of_find? hfind
      cases hparse : parse key.policy key.template with
      | ok nodes =>
          exact .inr (.inl ⟨nodes, habsent, rfl, by simp only [get, hfind, hparse]⟩)
      | error error =>
          exact .inr (.inr ⟨error, habsent, rfl, by simp only [get, hfind, hparse]⟩)

/-! ## Entries after a request -/

theorem keys_touch (cache : Cache) (key : CacheKey) (nodes : Nodes) :
    (cache.touch key nodes).keys = cache.keys.filter (· ≠ key) ++ [key] := by
  simp [touch, keys, List.filter_map, Function.comp_def]

theorem length_touch_le {cache : Cache} {key : CacheKey} {nodes : Nodes}
    (hmem : (key, nodes) ∈ cache.entries) :
    (cache.touch key nodes).entries.length ≤ cache.entries.length := by
  -- The entry that moves leaves a place behind.
  have hless : (cache.entries.filter fun entry => entry.1 ≠ key).length < cache.entries.length :=
    List.length_filter_lt_length_iff_exists.mpr ⟨_, hmem, by simp⟩
  simp only [touch, List.length_append, List.length_singleton]
  omega

/-- A new entry goes to the end, and as many entries are kept as there is room for. -/
theorem entries_store {cache : Cache} (hfits : cache.entries.length ≤ cache.capacity)
    (key : CacheKey) (nodes : Nodes) :
    (cache.store key nodes).entries
      = (cache.entries ++ [(key, nodes)]).rtake cache.capacity := by
  unfold store
  by_cases hroom : cache.capacity = 0
  · have hempty : cache.entries = [] := List.eq_nil_of_length_eq_zero (by omega)
    simp [hroom, hempty]
  · rw [if_neg hroom, List.rtake]

theorem keys_store {cache : Cache} (hfits : cache.entries.length ≤ cache.capacity)
    (key : CacheKey) (nodes : Nodes) :
    (cache.store key nodes).keys = (cache.keys ++ [key]).rtake cache.capacity := by
  rw [keys, entries_store hfits, List.rtake, List.rtake, List.map_drop]
  simp [keys]

@[simp] theorem capacity_store (cache : Cache) (key : CacheKey) (nodes : Nodes) :
    (cache.store key nodes).capacity = cache.capacity := by
  unfold store
  split <;> rfl

@[simp] theorem keys_clear (cache : Cache) : cache.clear.keys = [] := rfl

/-! ## The invariant -/

/-- What holds of a cache at all times. -/
structure Inv (cache : Cache) : Prop where
  /-- What is kept under a key was read from it. -/
  faithful : ∀ key nodes, (key, nodes) ∈ cache.entries →
    parse key.policy key.template = .ok nodes
  /-- No key is kept twice. -/
  distinct : cache.keys.Nodup
  /-- There is room for all entries. -/
  fits : cache.entries.length ≤ cache.capacity

theorem inv_empty (capacity : Nat) : (empty capacity).Inv where
  faithful := by intro key nodes h; simp [empty] at h
  distinct := by simp [empty, keys]
  fits := by simp [empty]

theorem inv_clear (cache : Cache) : cache.clear.Inv where
  faithful := by intro key nodes h; simp [clear] at h
  distinct := by simp
  fits := by simp [clear]

theorem inv_miss {cache : Cache} (h : cache.Inv) : cache.miss.Inv :=
  ⟨h.faithful, h.distinct, h.fits⟩

theorem inv_touch {cache : Cache} (h : cache.Inv) {key : CacheKey} {nodes : Nodes}
    (hmem : (key, nodes) ∈ cache.entries) : (cache.touch key nodes).Inv where
  faithful := by
    intro other found hfound
    rcases List.mem_append.mp hfound with hkept | hlast
    · exact h.faithful other found (List.mem_of_mem_filter hkept)
    · obtain ⟨rfl, rfl⟩ := Prod.mk.inj (List.mem_singleton.mp hlast)
      exact h.faithful _ _ hmem
  distinct := by
    rw [keys_touch]
    refine List.Nodup.append (h.distinct.filter _) (List.nodup_singleton key) ?_
    simp
  fits := Nat.le_trans (length_touch_le hmem) h.fits

theorem inv_store {cache : Cache} (h : cache.Inv) {key : CacheKey} {nodes : Nodes}
    (habsent : key ∉ cache.keys) (hparse : parse key.policy key.template = .ok nodes) :
    (cache.store key nodes).Inv := by
  have hentries := entries_store h.fits key nodes
  refine ⟨?_, ?_, ?_⟩
  · intro other found hfound
    rw [hentries] at hfound
    rcases List.mem_append.mp (List.mem_of_mem_drop hfound) with hkept | hlast
    · exact h.faithful other found hkept
    · obtain ⟨rfl, rfl⟩ := Prod.mk.inj (List.mem_singleton.mp hlast)
      exact hparse
  · have hkeys : (cache.keys ++ [key]).Nodup :=
      List.Nodup.append h.distinct (List.nodup_singleton key) (by simpa using habsent)
    rw [keys_store h.fits]
    exact hkeys.sublist (List.drop_sublist _ _)
  · rw [hentries, capacity_store, List.rtake, List.length_drop]
    omega

/-- **Every request keeps the invariant.** -/
theorem inv_get {cache : Cache} (h : cache.Inv) (key : CacheKey) : (cache.get key).2.Inv := by
  rcases get_cases cache key with ⟨nodes, hmem, hget⟩ | ⟨nodes, habsent, hparse, hget⟩ |
    ⟨error, -, -, hget⟩
  · rw [hget]
    exact inv_touch h hmem
  · rw [hget]
    exact inv_store (inv_miss h) habsent hparse
  · rw [hget]
    exact inv_miss h

/-- **A request gives what reading the template gives**, whatever was asked before. -/
theorem get_outcome {cache : Cache} (h : cache.Inv) (key : CacheKey) :
    (cache.get key).1 = parse key.policy key.template := by
  rcases get_cases cache key with ⟨nodes, hmem, hget⟩ | ⟨nodes, -, hparse, hget⟩ |
    ⟨error, -, hparse, hget⟩
  · rw [hget, h.faithful key nodes hmem]
  · rw [hget, hparse]
  · rw [hget, hparse]

end Cache

end Flashcards
