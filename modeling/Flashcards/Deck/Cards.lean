import Flashcards.Cloze.Span
import Flashcards.Deck.Basic
import Flashcards.Identity
import Flashcards.Json.Value
import Flashcards.Renderer

/-!
# The cards of a deck

A standard note makes one card for each template, except where the question shows nothing of the
note: where it would be the same with every field of the note missing. A cloze note makes one card
for each number among the deletions in the fields that the front of the first template passes
through the cloze filter. Templates see the note's own fields and a few special ones.
-/

namespace Flashcards

open Template

/-- A card of a note. -/
structure Card where
  id : String
  noteIndex : Nat
  template : String
  ordinal : Nat
  question : String
  answer : String
  tags : List String
  deriving DecidableEq, Repr

/-- What a card has, by name. -/
def Card.members (card : Card) : List (String × Json.Value) := [
  ("card_id", .str card.id),
  ("note_index", .int card.noteIndex),
  ("template", .str card.template),
  ("ordinal", .int card.ordinal),
  ("question", .str card.question),
  ("answer", .str card.answer),
  ("tags", .ofStrings card.tags)]

/-- A card as data. -/
def Card.toValue (card : Card) : Json.Value := .obj card.members

/-- The cards of a note, and how many it does not make and why. -/
structure NoteCards where
  cards : List Card
  skippedEmptyFront : Nat
  skippedNoCloze : Nat
  deriving DecidableEq, Repr

/-- The fields that templates can use next to those of the note. -/
def specialFields : List String := [Rendering.frontSideField, "Tags", "Deck", "Card", "Type"]

namespace Deck

/-- What a card of the note shows: the note's fields and the special ones, which come first where
the names are equal. -/
def cardFields (deck : Deck) (note : Note) (cardName : String) : Fields :=
  Bindings.bindAll note.fields [
    ("Tags", " ".intercalate note.tags),
    ("Deck", deck.name),
    ("Card", cardName),
    ("Type", deck.noteType.name)]

/-- The special fields alone. A name that the note uses is left out. -/
def blankFields (deck : Deck) (note : Note) (cardName : String) : Fields :=
  (deck.cardFields note cardName).filter fun (name, _) =>
    (Bindings.find? name note.fields).isNone

/-- The numbers of the deletions in some fields of a note, in increasing order. -/
def noteOrdinals (note : Note) : List String → Except Numeral.Fault (List Nat)
  | [] => .ok []
  | name :: rest => do
    let found ← Cloze.ordinals (note.fields.value name)
    let more ← noteOrdinals note rest
    .ok (Cloze.sortOrdinals (found ++ more))

/-- A card with both its sides rendered. -/
def makeCard (deck : Deck) (noteIndex : Nat) (note : Note) (template : CardTemplate)
    (ordinal : Nat) (rendered : Rendered) : Card :=
  { id := Identity.cardId deck.name noteIndex template.name ordinal
    noteIndex
    template := template.name
    ordinal
    question := rendered.question
    answer := rendered.answer
    tags := note.tags }

/-- The cards of a cloze note for the given numbers. -/
def clozeCards (deck : Deck) (noteIndex : Nat) (note : Note) : List Nat → Rendering (List Card)
  | [] => pure []
  | ordinal :: rest => do
    let template := deck.noteType.template
    let fields := deck.cardFields note s!"Cloze {ordinal}"
    let rendered ← Rendering.renderCard template.front template.back fields ordinal
    let more ← clozeCards deck noteIndex note rest
    pure (deck.makeCard noteIndex note template ordinal rendered :: more)

/-- What a cloze note makes. -/
def renderClozeNote (deck : Deck) (noteIndex : Nat) (note : Note) : Rendering NoteCards := do
  let front ← Rendering.parseFace none deck.noteType.template.front
  match noteOrdinals note front.clozeFields with
  | .error fault => throw (.numeral fault)
  | .ok [] => pure ⟨[], 0, 1⟩
  | .ok ordinals => do
    let cards ← deck.clozeCards noteIndex note ordinals
    pure ⟨cards, 0, 0⟩

/-- What a standard note makes by the given templates. -/
def standardCards (deck : Deck) (noteIndex : Nat) (note : Note) :
    List CardTemplate → Rendering NoteCards
  | [] => pure ⟨[], 0, 0⟩
  | template :: rest => do
    let fields := deck.cardFields note template.name
    let rendered ← Rendering.renderCard template.front template.back fields 0
    let blank ← Rendering.renderSide template.front (deck.blankFields note template.name) 0
      .question
    let more ← standardCards deck noteIndex note rest
    if rendered.question = blank then
      pure { more with skippedEmptyFront := more.skippedEmptyFront + 1 }
    else
      pure { more with cards := deck.makeCard noteIndex note template 0 rendered :: more.cards }

/-- What a note makes. -/
def renderNote (deck : Deck) (noteIndex : Nat) (note : Note) : Rendering NoteCards :=
  match deck.noteType.kind with
  | .cloze => deck.renderClozeNote noteIndex note
  | .standard => deck.standardCards noteIndex note deck.noteType.templates

/-- The cards of notes that are numbered from `index` on. -/
def cardsFrom (deck : Deck) (index : Nat) : List Note → Rendering (List Card)
  | [] => pure []
  | note :: rest => do
    let made ← deck.renderNote index note
    let more ← cardsFrom deck (index + 1) rest
    pure (made.cards ++ more)

/-- The cards of all notes. -/
def cards (deck : Deck) : Rendering (List Card) := deck.cardsFrom 0 deck.notes

end Deck

end Flashcards
