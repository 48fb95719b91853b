import Flashcards.Cloze.Span
import Flashcards.Json.Display
import Flashcards.Json.Reader
import Flashcards.Renderer

/-!
# Rendering from data

The operations that take everything as data: fields as a JSON text, the number of a card as any
value that can be read as a whole number. Unknown filters are passed over. Each gives its complete
result or a failure.
-/

namespace Flashcards.Boundary

/-- The version of the program. -/
def version : String := "0.1.0"

/-- The fields that a JSON text describes. -/
def fieldsOf (fieldsText : String) : Except Failure Fields := do
  let v ← (Json.read fieldsText.toList).mapError
    (.ofRefusal fun fault => .input (.badFields fault))
  (Fields.ofValue v).mapError .input

/-- The number of a card, which must not be below zero. `name` is what messages call it. -/
def ordinalOf (name : String) (given : Json.Value) : Except Failure Int := do
  let ordinal ← given.toInt.mapError .numeral
  if ordinal < 0 then
    let shown ← given.shown.mapError .numeral
    .error (.input (.negativeOrdinal name shown))
  else .ok ordinal

/-- Runs a rendering that reads templates by the lenient policy. -/
def run {α : Type} (rendering : Rendering α) : Except Failure α :=
  (rendering.outcome (Renderer.uncached .lenient)).1

/-- Renders a template as the question of a card without deletions. -/
def renderTemplate (template fieldsText : String) : Except Failure String := do
  let fields ← fieldsOf fieldsText
  run (Rendering.renderSide template fields 0 .question)

/-- Renders a template as one side of the card of a number. -/
def renderClozeCard (template fieldsText : String) (number : Json.Value) (side : Side) :
    Except Failure String := do
  let fields ← fieldsOf fieldsText
  let ordinal ← ordinalOf "card_ord" number
  run (Rendering.renderSide template fields ordinal side)

/-- Renders both sides of the card of a number. -/
def renderCard (front back fieldsText : String) (number : Json.Value) :
    Except Failure Rendered := do
  let fields ← fieldsOf fieldsText
  let ordinal ← ordinalOf "card_ordinal" number
  run (Rendering.renderCard front back fields ordinal)

/-- A value after the filter of the given keyword. No keyword at all leaves it as it is. -/
def applyFilter (keyword : String) (ordinal : Int) (side : Side) (value : String) :
    Except Failure String :=
  if keyword = "" then .ok value
  else
    match Filter.ofKeyword? keyword with
    | none => .error (.unknownFilter keyword)
    | some filter => (filter.apply ordinal side value).mapError .numeral

/-- How many cards the deletions of a field make. -/
def countClozeCards (content : String) : Except Failure Nat :=
  (Cloze.count content).mapError .numeral

end Flashcards.Boundary
