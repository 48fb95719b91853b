import Flashcards.Failure
import Flashcards.Template.Parser

/-!
# A cache of templates

Templates that were read are kept for the next time, up to a number of them. The list of entries
goes from the one used longest ago to the one used last; a template that is used again moves to
the end, and the first entry makes room for a new one. Templates that cannot be read are not kept.
A cache without room keeps nothing.
-/

namespace Flashcards

open Template

/-- What a template is kept under: its text and the policy it was read with. -/
structure CacheKey where
  template : String
  policy : Policy
  deriving DecidableEq, Repr

/-- Templates that were read, from the one used longest ago, and how the cache did so far. -/
structure Cache where
  capacity : Nat
  entries : List (CacheKey × Nodes)
  hits : Nat
  misses : Nat
  evictions : Nat
  deriving Repr

namespace Cache

/-- A cache with nothing in it. -/
def empty (capacity : Nat) : Cache := ⟨capacity, [], 0, 0, 0⟩

/-- A cache for the given number of templates, which must not be below zero. -/
def ofCapacity (capacity : Int) : Except Failure Cache :=
  if capacity < 0 then .error (.negativeCapacity capacity) else .ok (empty capacity.toNat)

/-- The keys of the entries, from the one used longest ago. -/
def keys (cache : Cache) : List CacheKey := cache.entries.map Prod.fst

/-- What is kept under a key. -/
def find? (cache : Cache) (key : CacheKey) : Option Nodes :=
  (cache.entries.find? fun entry => entry.1 = key).map Prod.snd

/-- Moves an entry to the end and counts the hit. -/
def touch (cache : Cache) (key : CacheKey) (nodes : Nodes) : Cache :=
  { cache with
    entries := cache.entries.filter (fun entry => entry.1 ≠ key) ++ [(key, nodes)]
    hits := cache.hits + 1 }

/-- Adds an entry at the end and drops the first ones that no longer fit. -/
def store (cache : Cache) (key : CacheKey) (nodes : Nodes) : Cache :=
  if cache.capacity = 0 then cache
  else
    let entries := cache.entries ++ [(key, nodes)]
    let excess := entries.length - cache.capacity
    { cache with entries := entries.drop excess, evictions := cache.evictions + excess }

/-- Counts a miss. -/
def miss (cache : Cache) : Cache := { cache with misses := cache.misses + 1 }

/-- Reads a template, unless it is kept already. -/
def get (cache : Cache) (key : CacheKey) : Except Template.Error Nodes × Cache :=
  match cache.find? key with
  | some nodes => (.ok nodes, cache.touch key nodes)
  | none =>
    match parse key.policy key.template with
    | .error error => (.error error, cache.miss)
    | .ok nodes => (.ok nodes, cache.miss.store key nodes)

/-- Drops all entries. The counts stay. -/
def clear (cache : Cache) : Cache := { cache with entries := [] }

end Cache

end Flashcards
