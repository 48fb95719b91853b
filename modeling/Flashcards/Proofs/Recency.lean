import Flashcards.Proofs.Lookup
import Mathlib.Data.List.Dedup
import Mathlib.Data.List.Induction

/-!
# The templates used last

What a cache holds is told by the requests alone: of the templates that were asked for since it was
last cleared and that can be read, those asked for last, as many as there is room for. This module
states that over whole histories of requests, together with the books a cache keeps on hits, misses
and evictions.

The step is the same for a template that is found and for one that is stored: its key moves to the
end, and what no longer fits is dropped from the front (`keys_get`). Keys that were dropped before
make no difference to what is dropped next (`rtake_toEnd`), which is why the history can be cut down
to its end without running it.
-/

namespace Flashcards

open Template

/-- Whether a template can be read under its policy. -/
def CacheKey.isReadable (key : CacheKey) : Bool := (parse key.policy key.template).isOk

theorem CacheKey.isReadable_of_ok {key : CacheKey} {nodes : Nodes}
    (h : parse key.policy key.template = .ok nodes) : key.isReadable = true := by
  rw [isReadable, h]
  rfl

theorem CacheKey.isReadable_of_error {key : CacheKey} {error : Template.Error}
    (h : parse key.policy key.template = .error error) : key.isReadable = false := by
  rw [isReadable, h]
  rfl

namespace Cache

/-! ## Moving a key to the end -/

variable {key : CacheKey} {keys : List CacheKey}

/-- The keys with this one moved, or added, to the end. -/
def toEnd (key : CacheKey) (keys : List CacheKey) : List CacheKey :=
  keys.filter (· ≠ key) ++ [key]

theorem length_le_toEnd (h : keys.Nodup) : keys.length ≤ (toEnd key keys).length := by
  have herase : keys.filter (· ≠ key) = keys.erase key := by
    rw [h.erase_eq_filter]
    exact List.filter_congr fun other _ => by simp [bne, beq_eq_decide]
  have hlength := List.length_erase (a := key) (l := keys)
  rw [toEnd, herase, List.length_append, List.length_singleton, hlength]
  split <;> omega

/-- Of a key that is listed again, only the later place counts. -/
theorem dedup_concat (key : CacheKey) (keys : List CacheKey) :
    (keys ++ [key]).dedup = toEnd key keys.dedup := by
  induction keys with
  | nil => simp [toEnd]
  | cons other keys ih =>
      rw [List.cons_append]
      by_cases hagain : other ∈ keys
      · rw [List.dedup_cons_of_mem hagain,
          List.dedup_cons_of_mem (List.mem_append_left [key] hagain), ih]
      · rw [List.dedup_cons_of_notMem hagain]
        by_cases hsame : other = key
        · rw [List.dedup_cons_of_mem (by simp [hsame]), ih]
          simp [toEnd, hsame]
        · rw [List.dedup_cons_of_notMem (by simp [hagain, hsame]), ih]
          simp [toEnd, hsame]

theorem rtake_append_of_le {α : Type} {front back : List α} {n : Nat} (h : n ≤ back.length) :
    (front ++ back).rtake n = back.rtake n := by
  have hsplit : front.length + back.length - n = front.length + (back.length - n) := by omega
  rw [List.rtake, List.rtake, List.length_append, hsplit, List.drop_append]
  simp

/-- What was dropped before makes no difference to what is kept. -/
theorem rtake_toEnd (h : keys.Nodup) (n : Nat) :
    (toEnd key keys).rtake n = (toEnd key (keys.rtake n)).rtake n := by
  obtain ⟨dropped, hsplit⟩ : keys.rtake n <:+ keys := List.drop_suffix _ _
  have hkept : (keys.rtake n).length = keys.length - (keys.length - n) := List.length_drop
  have hlonger : (keys.rtake n).length ≤ (toEnd key (keys.rtake n)).length :=
    length_le_toEnd (h.sublist (List.drop_sublist _ _))
  -- either nothing is dropped, or what is left is `n` keys and the move keeps that many
  by_cases hroom : keys.length ≤ n
  · have hall : keys.rtake n = keys := by rw [List.rtake, Nat.sub_eq_zero_of_le hroom]; rfl
    rw [hall]
  · have hmoved : toEnd key keys
        = dropped.filter (· ≠ key) ++ toEnd key (keys.rtake n) := by
      rw [toEnd, toEnd, ← List.append_assoc, ← List.filter_append, hsplit]
    rw [hmoved, rtake_append_of_le (by omega)]

/-! ## One request -/

variable {cache : Cache}

theorem length_keys (cache : Cache) : cache.keys.length = cache.entries.length :=
  List.length_map Prod.fst

theorem capacity_get (cache : Cache) (key : CacheKey) :
    (cache.get key).2.capacity = cache.capacity := by
  rcases get_cases cache key with ⟨nodes, -, hget⟩ | ⟨nodes, -, -, hget⟩ | ⟨error, -, -, hget⟩
  · rw [hget]
    rfl
  · rw [hget, capacity_store]
    rfl
  · rw [hget]
    rfl

/-- **The key of a template that can be read moves to the end, and the front makes room.** -/
theorem keys_get (h : cache.Inv) (key : CacheKey) :
    (cache.get key).2.keys
      = if key.isReadable then (toEnd key cache.keys).rtake cache.capacity else cache.keys := by
  have hinv := inv_get h key
  rcases get_cases cache key with ⟨nodes, hmem, hget⟩ | ⟨nodes, habsent, hparse, hget⟩ |
    ⟨error, -, hparse, hget⟩
  · have hread := CacheKey.isReadable_of_ok (h.faithful key nodes hmem)
    -- moving a key makes no key too many, so nothing is dropped
    have hfits := hinv.fits
    rw [capacity_get, ← length_keys, hget, keys_touch] at hfits
    rw [if_pos hread, hget, keys_touch, List.rtake, toEnd, Nat.sub_eq_zero_of_le hfits,
      List.drop_zero]
  · have hread := CacheKey.isReadable_of_ok hparse
    have hkept : cache.keys.filter (· ≠ key) = cache.keys := by
      refine List.filter_eq_self.mpr fun other hother => ?_
      have hne : other ≠ key := fun hsame => habsent (hsame ▸ hother)
      simpa using hne
    rw [if_pos hread, hget, keys_store (inv_miss h).fits, toEnd, hkept]
    rfl
  · rw [CacheKey.isReadable_of_error hparse, hget]
    rfl

/-- A request counts as a hit if its key is kept, and as a miss if it is not. -/
theorem counts_get (cache : Cache) (key : CacheKey) :
    (cache.get key).2.hits = cache.hits + (if key ∈ cache.keys then 1 else 0) ∧
      (cache.get key).2.misses = cache.misses + (if key ∈ cache.keys then 0 else 1) := by
  rcases get_cases cache key with ⟨nodes, hmem, hget⟩ | ⟨nodes, habsent, -, hget⟩ |
    ⟨error, habsent, -, hget⟩
  · have hkey : key ∈ cache.keys := mem_keys.mpr ⟨nodes, hmem⟩
    rw [hget, if_pos hkey, if_pos hkey]
    exact ⟨rfl, rfl⟩
  · rw [hget, if_neg habsent, if_neg habsent]
    unfold store
    split <;> exact ⟨rfl, rfl⟩
  · rw [hget, if_neg habsent, if_neg habsent]
    exact ⟨rfl, rfl⟩

/-- A request that fails leaves the entries as they are. -/
theorem entries_get_of_error {key : CacheKey} {error : Template.Error}
    (h : (cache.get key).1 = .error error) : (cache.get key).2.entries = cache.entries := by
  rcases get_cases cache key with ⟨nodes, -, hget⟩ | ⟨nodes, -, -, hget⟩ | ⟨error, -, -, hget⟩
  · rw [hget] at h
    cases h
  · rw [hget] at h
    cases h
  · rw [hget]
    rfl

/-! ## Histories -/

/-- What is asked of a cache. -/
inductive Request
  | get (key : CacheKey)
  | clear
  deriving DecidableEq

/-- The cache after a request. -/
def serve (cache : Cache) : Request → Cache
  | .get key => (cache.get key).2
  | .clear => cache.clear

/-- A new cache after requests that are made one after the other. -/
def after (capacity : Nat) (history : List Request) : Cache :=
  history.foldl serve (empty capacity)

theorem inv_serve (h : cache.Inv) (request : Request) : (cache.serve request).Inv := by
  cases request with
  | get key => exact inv_get h key
  | clear => exact inv_clear cache

theorem capacity_serve (cache : Cache) (request : Request) :
    (cache.serve request).capacity = cache.capacity := by
  cases request with
  | get key => exact capacity_get cache key
  | clear => rfl

theorem after_concat (capacity : Nat) (history : List Request) (request : Request) :
    after capacity (history ++ [request]) = (after capacity history).serve request := by
  rw [after, after, List.foldl_append]
  rfl

theorem inv_after (capacity : Nat) (history : List Request) : (after capacity history).Inv := by
  induction history using List.reverseRecOn with
  | nil => exact inv_empty capacity
  | append_singleton history request ih =>
      rw [after_concat]
      exact inv_serve ih request

theorem capacity_after (capacity : Nat) (history : List Request) :
    (after capacity history).capacity = capacity := by
  induction history using List.reverseRecOn with
  | nil => rfl
  | append_singleton history request ih => rw [after_concat, capacity_serve, ih]

/-! ## The templates asked for last -/

/-- The key of a template that is asked for and can be read. -/
def Request.readable? : Request → Option CacheKey
  | .get key => if key.isReadable then some key else none
  | .clear => none

/-- The keys of the templates that can be read and were asked for since the last time the cache was
cleared, in the order in which they were last asked for. -/
def recent (history : List Request) : List CacheKey :=
  -- of a key that stands there more than once, `dedup` keeps the last place
  ((history.rtakeWhile (· ≠ .clear)).filterMap Request.readable?).dedup

theorem recent_clear (history : List Request) : recent (history ++ [.clear]) = [] := by
  rw [recent, List.rtakeWhile_concat_neg _ _ _ (by simp)]
  rfl

theorem recent_get (history : List Request) (key : CacheKey) :
    recent (history ++ [.get key])
      = if key.isReadable then toEnd key (recent history) else recent history := by
  rw [recent, List.rtakeWhile_concat_pos _ _ _ (by simp), List.filterMap_append]
  by_cases hread : key.isReadable
  · have hlast : [Request.get key].filterMap Request.readable? = [key] := by
      simp [Request.readable?, hread]
    rw [if_pos hread, hlast, dedup_concat]
    rfl
  · have hlast : [Request.get key].filterMap Request.readable? = [] := by
      simp [Request.readable?, hread]
    rw [if_neg hread, hlast, List.append_nil]
    rfl

/-- **A cache holds the templates asked for last, as many as there is room for.** -/
theorem keys_after (capacity : Nat) (history : List Request) :
    (after capacity history).keys = (recent history).rtake capacity := by
  induction history using List.reverseRecOn with
  | nil => simp [after, empty, keys, recent]
  | append_singleton history request ih =>
      rw [after_concat]
      cases request with
      | clear =>
          rw [recent_clear, List.rtake_nil]
          rfl
      | get key =>
          have hkeys := keys_get (inv_after capacity history) key
          rw [capacity_after, ih] at hkeys
          -- the keys were cut down before the request, and only the end of them counts
          rw [serve, hkeys, recent_get]
          by_cases hread : key.isReadable
          · rw [if_pos hread, if_pos hread]
            exact (rtake_toEnd (List.nodup_dedup _) capacity).symm
          · rw [if_neg hread, if_neg hread]

/-- The same template counts twice if it is read by both policies. -/
example : (after 1 [.get ⟨"a", .lenient⟩, .get ⟨"a", .strict⟩]).keys = [⟨"a", .strict⟩] := by
  cbv

/-! ## The books -/

/-- Whether a template is asked for. -/
def Request.isGet : Request → Bool
  | .get _ => true
  | .clear => false

/-- How many templates a request makes the cache read: one that it does not have and that can be
read. -/
def loads (cache : Cache) : Request → Nat
  | .get key => if key ∉ cache.keys ∧ key.isReadable then 1 else 0
  | .clear => 0

/-- How many entries a request clears away. -/
def cleared (cache : Cache) : Request → Nat
  | .get _ => 0
  | .clear => cache.entries.length

/-- An amount that each request has, added up over a history. -/
def total (amount : Cache → Request → Nat) (cache : Cache) : List Request → Nat
  | [] => 0
  | request :: later => amount cache request + total amount (cache.serve request) later

theorem total_concat (amount : Cache → Request → Nat) (cache : Cache) (history : List Request)
    (request : Request) :
    total amount cache (history ++ [request])
      = total amount cache history + amount (history.foldl serve cache) request := by
  induction history generalizing cache with
  | nil => simp [total]
  | cons first later ih =>
      rw [List.cons_append, total, total, ih, List.foldl_cons]
      omega

theorem counts_after (capacity : Nat) (history : List Request) :
    (after capacity history).hits + (after capacity history).misses
      = history.countP Request.isGet := by
  induction history using List.reverseRecOn with
  | nil => rfl
  | append_singleton history request ih =>
      rw [after_concat, List.countP_append, ← ih]
      cases request with
      | clear => rfl
      | get key =>
          obtain ⟨hhits, hmisses⟩ := counts_get (after capacity history) key
          rw [serve, hhits, hmisses, List.countP_singleton, Request.isGet, if_pos rfl]
          split <;> omega

/-- An entry that is found only moves: it is taken out once, as no key is kept twice, and put
back. -/
theorem length_touch (h : cache.Inv) {key : CacheKey} {nodes : Nodes}
    (hmem : (key, nodes) ∈ cache.entries) :
    (cache.touch key nodes).entries.length = cache.entries.length := by
  have hmoved : cache.keys.length ≤ (cache.touch key nodes).keys.length := by
    rw [keys_touch]
    exact length_le_toEnd h.distinct
  rw [length_keys, length_keys] at hmoved
  exact Nat.le_antisymm (length_touch_le hmem) hmoved

/-- An entry that is added stays, or makes another one leave. -/
theorem length_store (h : cache.Inv) (hroom : cache.capacity ≠ 0) (key : CacheKey)
    (nodes : Nodes) :
    (cache.store key nodes).evictions + (cache.store key nodes).entries.length
      = cache.evictions + cache.entries.length + 1 := by
  have hfits := h.fits
  rw [store, if_neg hroom]
  simp only [List.length_drop, List.length_append, List.length_singleton]
  omega

/-- Every entry that is read is kept, evicted or cleared away. -/
theorem balance_serve (h : cache.Inv) (hroom : 0 < cache.capacity) (request : Request) :
    (cache.serve request).evictions + cleared cache request + (cache.serve request).entries.length
      = cache.evictions + cache.entries.length + loads cache request := by
  cases request with
  | clear => simp [serve, clear, cleared, loads]
  | get key =>
      simp only [serve, cleared, loads]
      rcases get_cases cache key with ⟨nodes, hmem, hget⟩ | ⟨nodes, habsent, hparse, hget⟩ |
        ⟨error, -, hparse, hget⟩
      · have hkey : key ∈ cache.keys := mem_keys.mpr ⟨nodes, hmem⟩
        rw [hget, if_neg (fun hload => hload.1 hkey), length_touch h hmem]
        rfl
      · have hstored := length_store (inv_miss h) (Nat.ne_of_gt hroom) key nodes
        rw [hget, if_pos ⟨habsent, CacheKey.isReadable_of_ok hparse⟩, Nat.add_zero, hstored]
        rfl
      · rw [hget, CacheKey.isReadable_of_error hparse, if_neg (by simp)]
        rfl

theorem balance_after (capacity : Nat) (history : List Request) (hroom : 0 < capacity) :
    (after capacity history).evictions + total cleared (empty capacity) history
        + (after capacity history).entries.length
      = total loads (empty capacity) history := by
  induction history using List.reverseRecOn with
  | nil => rfl
  | append_singleton history request ih =>
      have hstep := balance_serve (inv_after capacity history)
        (by rw [capacity_after]; exact hroom) request
      rw [after_concat, total_concat, total_concat]
      -- the amounts of the last request are taken over the cache it finds
      change _ + (_ + cleared (after capacity history) request) + _
        = _ + loads (after capacity history) request
      omega

/-- Nothing is evicted where nothing is kept. -/
theorem evictions_serve_of_no_room (hnone : cache.capacity = 0) (request : Request) :
    (cache.serve request).evictions = cache.evictions := by
  cases request with
  | clear => rfl
  | get key =>
      rw [serve]
      rcases get_cases cache key with ⟨nodes, -, hget⟩ | ⟨nodes, -, -, hget⟩ | ⟨error, -, -, hget⟩
      · rw [hget]
        rfl
      · have hmiss : cache.miss.capacity = 0 := hnone
        rw [hget, store, if_pos hmiss]
        rfl
      · rw [hget]
        rfl

theorem evictions_after_of_no_room (history : List Request) : (after 0 history).evictions = 0 := by
  induction history using List.reverseRecOn with
  | nil => rfl
  | append_singleton history request ih =>
      rw [after_concat, evictions_serve_of_no_room (capacity_after 0 history), ih]

/-- What it means that a cache, after these requests, has kept the templates used last. -/
structure LeastRecentlyUsed (capacity : Nat) (history : List Request) : Prop where
  /-- The keys are those asked for last. -/
  keys_eq : (after capacity history).keys = (recent history).rtake capacity
  /-- The next request is a hit if its key is kept. -/
  hits_eq : ∀ key, (after capacity (history ++ [.get key])).hits
    = (after capacity history).hits + if key ∈ (after capacity history).keys then 1 else 0
  /-- The next request is a miss if its key is not kept. -/
  misses_eq : ∀ key, (after capacity (history ++ [.get key])).misses
    = (after capacity history).misses + if key ∈ (after capacity history).keys then 0 else 1
  /-- If the next request fails, everything stays in its place. -/
  failed_eq : ∀ key error, ((after capacity history).get key).1 = .error error →
    (after capacity (history ++ [.get key])).entries = (after capacity history).entries
  /-- Every request so far was a hit or a miss. -/
  counts_eq : (after capacity history).hits + (after capacity history).misses
    = history.countP Request.isGet
  /-- There is room for what is kept. -/
  fits : (after capacity history).entries.length ≤ capacity
  /-- What was read is evicted, cleared away or kept. -/
  evictions_eq : 0 < capacity →
    (after capacity history).evictions + total cleared (empty capacity) history
      + (after capacity history).entries.length = total loads (empty capacity) history
  /-- A cache without room has nothing to evict. -/
  evictions_eq_zero : capacity = 0 → (after capacity history).evictions = 0

/-- **After any requests, a cache has kept the templates used last.** -/
theorem leastRecentlyUsed (capacity : Nat) (history : List Request) :
    LeastRecentlyUsed capacity history where
  keys_eq := keys_after capacity history
  hits_eq := by
    intro key
    rw [after_concat]
    exact (counts_get _ key).1
  misses_eq := by
    intro key
    rw [after_concat]
    exact (counts_get _ key).2
  failed_eq := by
    intro key error h
    rw [after_concat]
    exact entries_get_of_error h
  counts_eq := counts_after capacity history
  fits := by
    have hfits := (inv_after capacity history).fits
    rw [capacity_after] at hfits
    exact hfits
  evictions_eq := balance_after capacity history
  evictions_eq_zero := by
    intro hnone
    rw [hnone]
    exact evictions_after_of_no_room history

end Cache

end Flashcards
