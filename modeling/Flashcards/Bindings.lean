/-!
# Bindings in order

Objects of a data file and the fields of a note are keyed by text, and their order can show: in
which field is reported first, and in what is written back. A key keeps the place where it was
first bound and takes the value bound last.
-/

namespace Flashcards

/-- Values bound to keys, in the order in which the keys were first bound. -/
abbrev Bindings (κ α : Type) := List (κ × α)

namespace Bindings

variable {κ α : Type} [DecidableEq κ]

/-- The value bound to a key. -/
def find? (key : κ) : Bindings κ α → Option α
  | [] => none
  | (k, v) :: rest => if k = key then some v else find? key rest

/-- Binds a key: in its old place if it has one, at the end otherwise. -/
def bind (key : κ) (value : α) : Bindings κ α → Bindings κ α
  | [] => [(key, value)]
  | (k, v) :: rest => if k = key then (k, value) :: rest else (k, v) :: bind key value rest

/-- Binds the pairs one after the other. -/
def bindAll (bindings : Bindings κ α) (pairs : List (κ × α)) : Bindings κ α :=
  pairs.foldl (fun acc (k, v) => bind k v acc) bindings

/-- The keys in order. -/
def keys {κ α : Type} (bindings : Bindings κ α) : List κ := bindings.map Prod.fst

theorem find?_bind (key other : κ) (value : α) (bindings : Bindings κ α) :
    find? other (bind key value bindings)
      = if key = other then some value else find? other bindings := by
  induction bindings with
  | nil => simp [bind, find?]
  | cons head rest ih =>
    obtain ⟨k, v⟩ := head
    by_cases hk : k = key
    · subst hk
      by_cases ho : k = other <;> simp [bind, find?, ho]
    · by_cases ho : k = other
      · subst ho
        simp [bind, find?, hk, Ne.symm hk]
      · simp [bind, find?, hk, ho, ih]

/-- Binding a key that has a value already leaves the order of the keys alone. -/
theorem keys_bind (key : κ) (value : α) (bindings : Bindings κ α) :
    keys (bind key value bindings)
      = if key ∈ keys bindings then keys bindings else keys bindings ++ [key] := by
  induction bindings with
  | nil => simp [bind, keys]
  | cons head rest ih =>
    obtain ⟨k, v⟩ := head
    by_cases hk : k = key
    · simp [bind, keys, hk]
    · simp only [keys] at ih
      by_cases hm : key ∈ List.map Prod.fst rest <;>
        simp [bind, hk, keys, Ne.symm hk, ih, hm]

end Bindings

end Flashcards
