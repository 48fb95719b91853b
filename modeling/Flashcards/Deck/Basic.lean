import Flashcards.Fields

/-!
# Decks

A deck has a note type and notes. The note type declares the fields of the notes and the templates
of their cards. A standard note makes a card per template, a cloze note a card per deletion number,
by the first template.
-/

namespace Flashcards

/-- How the notes of a note type make cards. -/
inductive NoteKind
  | standard
  | cloze
  deriving DecidableEq, Repr

/-- The word for a kind in a deck file. -/
def NoteKind.name : NoteKind → String
  | .standard => "standard"
  | .cloze => "cloze"

/-- The kind that a word names. -/
def NoteKind.ofName? (name : String) : Option NoteKind :=
  [NoteKind.standard, NoteKind.cloze].find? fun kind => kind.name = name

/-- The templates of a kind of card. -/
structure CardTemplate where
  name : String
  front : String
  back : String
  deriving DecidableEq, Repr

/-- The template of one side. -/
def CardTemplate.text (template : CardTemplate) : Face → String
  | .front => template.front
  | .back => template.back

/-- What the notes of a deck have in common. There is at least one template. -/
structure NoteType where
  name : String
  kind : NoteKind
  fields : List String
  template : CardTemplate
  moreTemplates : List CardTemplate
  css : String
  deriving DecidableEq, Repr

/-- The templates in order. -/
def NoteType.templates (noteType : NoteType) : List CardTemplate :=
  noteType.template :: noteType.moreTemplates

/-- The texts of a note and its tags. -/
structure Note where
  fields : Fields
  tags : List String
  deriving DecidableEq, Repr

/-- A named collection of notes of one type. -/
structure Deck where
  name : String
  noteType : NoteType
  notes : List Note
  deriving DecidableEq, Repr

end Flashcards
