/-!
# The sides of a card

A card asks a question and then shows the answer. The question is made from the front template,
the answer from the back template.
-/

namespace Flashcards

/-- What of a card is shown. -/
inductive Side
  | question
  | answer
  deriving DecidableEq, Repr

/-- Which template of a card. -/
inductive Face
  | front
  | back
  deriving DecidableEq, Repr

/-- The word for a template in messages. -/
def Face.name : Face → String
  | .front => "front"
  | .back => "back"

end Flashcards
