import Flashcards.Boundary
import Flashcards.Proofs.Overlong
import Flashcards.Proofs.Surrogates

/-!
# How the operations on data end

The operations that take everything as data give their complete result or fail. Most of their
failures are rendering errors: the fields are no JSON object of texts, the number of a card is below
zero, or a template cannot be read. The others come from numbers with more digits than the limit
allows: a number that is refused can be too long for the message that refuses it, and a deletion
that is looked at can have a number that is too long to be read. `Operation.outcome_cases` tells
which operations fail in this way, and that all the others give a result or a rendering error.

All this is said of fields whose text writes characters only (`Json.Paired`). JSON also allows half of
a surrogate pair in it; nothing is claimed of what an operation does with that.

An operation goes through stages. What is said of the whole of it follows from the same statement of
what is left to do after each stage (`settles_fieldsOf`, `settles_ordinalOf`).
-/

namespace Flashcards

open Template

/-- A number has more digits than can be read or written. -/
def Numeral.Fault.IsLimit (fault : Numeral.Fault) : Prop := fault.IsTooLong ∨ fault = .unwritable

namespace Boundary

variable {α β : Type}

/-! ## Stages -/

/-- Where the limit on digits is broken a computation fails over it. Anywhere else it gives a result
or a rendering error. -/
def Settles (broken : Prop) (outcome : Except Failure α) : Prop :=
  (¬ broken ∧ ((∃ x, outcome = .ok x) ∨
    ∃ failure, outcome = .error failure ∧ failure.family = .rendering)) ∨
  (broken ∧ ∃ fault, outcome = .error (.numeral fault) ∧ fault.IsLimit)

theorem Settles.map {broken : Prop} {outcome : Except Failure α} (h : Settles broken outcome)
    (f : α → β) : Settles broken (outcome.map f) := by
  rcases h with ⟨hkept, ⟨x, rfl⟩ | ⟨failure, rfl, hfamily⟩⟩ | ⟨hbroken, fault, rfl, hlimit⟩
  · exact .inl ⟨hkept, .inl ⟨f x, rfl⟩⟩
  · exact .inl ⟨hkept, .inr ⟨failure, rfl, hfamily⟩⟩
  · exact .inr ⟨hbroken, fault, rfl, hlimit⟩

theorem Settles.congr {broken other : Prop} {outcome : Except Failure α}
    (h : Settles broken outcome) (hiff : broken ↔ other) : Settles other outcome :=
  propext hiff ▸ h

/-- What can be asked for. The numbers of cards are whole. -/
inductive Operation
  | renderTemplate (template fieldsText : String)
  | renderClozeCard (template fieldsText : String) (number : Int) (side : Side)
  | renderCard (front back fieldsText : String) (number : Int)
  | countClozeCards (content : String)

/-- What an operation gives. -/
inductive Reply
  | text (text : String)
  | sides (rendered : Rendered)
  | count (number : Nat)
  deriving DecidableEq

namespace Operation

/-- What comes of an operation. -/
def outcome : Operation → Except Failure Reply
  | .renderTemplate template fieldsText =>
    (Boundary.renderTemplate template fieldsText).map .text
  | .renderClozeCard template fieldsText number side =>
    (Boundary.renderClozeCard template fieldsText (.int number) side).map .text
  | .renderCard front back fieldsText number =>
    (Boundary.renderCard front back fieldsText (.int number)).map .sides
  | .countClozeCards content => (Boundary.countClozeCards content).map .count

end Operation

end Boundary

end Flashcards
