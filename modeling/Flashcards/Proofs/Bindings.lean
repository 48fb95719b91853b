import Flashcards.Bindings
import Mathlib.Data.List.Nodup

/-!
# Bindings that are made one after the other

What an object of a data file or a set of fields holds is found by its keys. Where no key is bound
twice, looking a key up and going through the pairs come to the same (`Bindings.find?_eq_some_iff`),
and binding one more key keeps it so.
-/

namespace Flashcards.Bindings

variable {κ α : Type} [DecidableEq κ] {key : κ} {value : α} {bindings : Bindings κ α}

theorem bindAll_cons (bindings : Bindings κ α) (pair : κ × α) (pairs : List (κ × α)) :
    bindings.bindAll (pair :: pairs) = (bindings.bind pair.1 pair.2).bindAll pairs := rfl

/-- A key that is not bound yet is bound behind the others. -/
theorem bind_of_fresh (h : key ∉ bindings.keys) (value : α) :
    bindings.bind key value = bindings ++ [(key, value)] := by
  induction bindings with
  | nil => rfl
  | cons head bindings ih =>
      obtain ⟨hhead, hrest⟩ := not_or.mp (mt List.mem_cons.mpr h)
      rw [Bindings.bind, if_neg (Ne.symm hhead), ih hrest]
      rfl

theorem nodup_keys_bind (h : (keys bindings).Nodup) : (keys (bind key value bindings)).Nodup := by
  rw [keys_bind]
  split
  · exact h
  · rename_i hnew
    exact List.nodup_append.mpr ⟨h, List.nodup_singleton key, by
      rintro k hk _ hkey rfl
      exact hnew (List.mem_singleton.mp hkey ▸ hk)⟩

theorem nodup_keys_bindAll (h : (keys bindings).Nodup) (pairs : List (κ × α)) :
    (keys (bindAll bindings pairs)).Nodup := by
  induction pairs generalizing bindings with
  | nil => exact h
  | cons pair rest ih => exact ih (nodup_keys_bind h)

/-- What is bound after a key was bound is its value, or was bound before. -/
theorem mem_of_mem_bind {pair : κ × α} (h : pair ∈ bind key value bindings) :
    pair = (key, value) ∨ pair ∈ bindings := by
  induction bindings with
  | nil => exact .inl (List.mem_singleton.mp h)
  | cons head rest ih =>
      rw [bind] at h
      split at h
      · rename_i hkey
        rcases List.mem_cons.mp h with rfl | hrest
        · exact .inl (by rw [hkey])
        · exact .inr (List.mem_cons_of_mem _ hrest)
      · rcases List.mem_cons.mp h with rfl | hrest
        · exact .inr List.mem_cons_self
        · rcases ih hrest with hpair | hmem
          · exact .inl hpair
          · exact .inr (List.mem_cons_of_mem _ hmem)

/-- What is found is bound. -/
theorem mem_of_find? (h : find? key bindings = some value) : (key, value) ∈ bindings := by
  induction bindings with
  | nil => cases h
  | cons head rest ih =>
      rw [find?] at h
      split at h
      · rename_i hkey
        cases h
        rw [← hkey]
        exact List.mem_cons_self
      · exact List.mem_cons_of_mem _ (ih h)

/-- Where no key is bound twice, what is bound is what is found. -/
theorem find?_eq_some_iff (h : (keys bindings).Nodup) :
    find? key bindings = some value ↔ (key, value) ∈ bindings := by
  refine ⟨mem_of_find?, fun hmem => ?_⟩
  induction bindings with
  | nil => cases hmem
  | cons head rest ih =>
      obtain ⟨hnew, hrest⟩ := List.nodup_cons.mp h
      rw [find?]
      rcases List.mem_cons.mp hmem with rfl | hmem
      · exact if_pos rfl
      · rw [if_neg, ih hrest hmem]
        rintro rfl
        exact hnew (List.mem_map.mpr ⟨_, hmem, rfl⟩)

/-- Names that are not bound are those that nothing is found under. -/
theorem find?_eq_none_iff : find? key bindings = none ↔ key ∉ keys bindings := by
  induction bindings with
  | nil => simp [find?, keys]
  | cons head rest ih =>
      obtain ⟨k, v⟩ := head
      by_cases hk : k = key
      · simp [find?, keys, hk]
      · simpa [find?, keys, hk, Ne.symm hk] using ih

end Flashcards.Bindings
