import Flashcards.Cache
import Flashcards.Render

/-!
# Rendering cards

A renderer makes the two sides of a card. Both templates are read before anything is rendered, and
the back template sees the rendered front as the field `FrontSide`. A renderer may keep templates
it has read; that shows in its counts alone.
-/

namespace Flashcards

open Template

/-- How templates are read, and where those that were read are kept. -/
structure Renderer where
  policy : Policy
  cache : Option Cache

/-- A computation that uses a renderer. What happened to the cache stays, even when it fails. -/
abbrev Rendering := ExceptT Failure (StateM Renderer)

/-- The two sides of a card. -/
structure Rendered where
  question : String
  answer : String
  deriving DecidableEq, Repr

namespace Renderer

/-- A renderer that keeps nothing. -/
def uncached (policy : Policy) : Renderer := ⟨policy, none⟩

/-- Reads a template, through the cache if there is one. -/
def parseCached (renderer : Renderer) (template : String) :
    Except Template.Error Nodes × Renderer :=
  match renderer.cache with
  | none => (parse renderer.policy template, renderer)
  | some cache =>
    let (outcome, cache) := cache.get ⟨template, renderer.policy⟩
    (outcome, { renderer with cache := some cache })

/-- Drops the templates that are kept. -/
def clear (renderer : Renderer) : Renderer :=
  { renderer with cache := renderer.cache.map Cache.clear }

end Renderer

namespace Rendering

/-- Runs a computation: its outcome, and the renderer afterwards. -/
def outcome {α : Type} (rendering : Rendering α) (renderer : Renderer) :
    Except Failure α × Renderer :=
  StateT.run (ExceptT.run rendering) renderer

/-- The field under which the back template sees the rendered front. -/
def frontSideField : String := "FrontSide"

/-- Reads a template. A failure says which template of the card it is about. -/
def parseFace (face : Option Face) (template : String) : Rendering Nodes := do
  let renderer ← get
  let (outcome, renderer) := renderer.parseCached template
  set renderer
  match outcome with
  | .ok nodes => pure nodes
  | .error error => throw (.template face error)

/-- Renders a tree. -/
def evaluate (nodes : Nodes) (context : Context) : Rendering String :=
  match nodes.render context with
  | .ok text => pure text
  | .error fault => throw (.numeral fault)

/-- Renders one template by itself. -/
def renderSide (template : String) (fields : Fields) (ordinal : Int) (side : Side) :
    Rendering String := do
  let nodes ← parseFace none template
  evaluate nodes ⟨fields, ordinal, side⟩

/-- Renders both sides of a card. -/
def renderCard (front back : String) (fields : Fields) (ordinal : Int) : Rendering Rendered := do
  if ordinal < 0 then throw (.negativeOrdinal ordinal)
  let frontNodes ← parseFace (some .front) front
  let backNodes ← parseFace (some .back) back
  let question ← evaluate frontNodes ⟨fields, ordinal, .question⟩
  let answer ← evaluate backNodes ⟨Bindings.bind frontSideField question fields, ordinal, .answer⟩
  pure ⟨question, answer⟩

end Rendering

end Flashcards
