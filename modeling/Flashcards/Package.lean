import Flashcards.Deck.Cards
import Flashcards.Json.Display
import Flashcards.Json.Items

/-!
# Packages

A package carries a deck into another program: the note type with its templates as they are
written, and the notes with one value per declared field. Before anything is put together every
template has to be readable. Notes of a cloze type without deletions stay out, and a package
without notes is not made. Name and tags of the deck come from settings nobody checked, so the
name may be any value.
-/

namespace Flashcards

open Json Template

/-- What a note type is in a package. -/
structure PackageModel where
  id : Nat
  name : String
  kind : NoteKind
  fields : List String
  templates : List CardTemplate
  css : String
  deriving DecidableEq, Repr

/-- A note in a package: its values in the order of the model's fields, and its tags. -/
structure PackageNote where
  values : List String
  tags : List String
  deriving DecidableEq, Repr

/-- A deck as it is handed over. -/
structure Package where
  path : String
  deckId : Nat
  deckName : Value
  model : PackageModel
  notes : List PackageNote

/-- What became of the notes of a deck. -/
structure PackageStats where
  notesSeen : Nat
  notesExported : Nat
  notesSkippedNoCloze : Nat
  deckName : Value

namespace Package

/-- Tags as they are added to notes: without blanks around them, without spaces, and none that is
blank. -/
def tagsFrom : List Value → Except ShapeFault (List String)
  | [] => .ok []
  | .str s :: rest => do
    let tag := Text.trimmed s
    let more ← tagsFrom rest
    .ok (if tag = "" then more else Text.replaceChar ' ' '_' tag :: more)
  | other :: _ => .error (.noMember other.kind "strip")

/-- The tags that a value gives: those of a list, or those between the commas of a text. -/
def tagsOf (given : Value) : Except ShapeFault (List String) :=
  if !given.isGiven then .ok []
  else
    match given with
    | .str s => tagsFrom ((Text.splitAt ',' s).map .str)
    | _ => do
      let items ← given.items
      tagsFrom items

/-- Reads every template of a deck, only to see that it can be read. -/
def checkTemplates (policy : Policy) : List CardTemplate → Except Failure Unit
  | [] => .ok ()
  | template :: rest => do
    let _ ← (parse policy template.front).mapError (.template (some .front))
    let _ ← (parse policy template.back).mapError (.template (some .back))
    checkTemplates policy rest

/-- The note type of a deck. A cloze type has only its first template. -/
def modelOf (noteType : NoteType) : PackageModel :=
  { id := Identity.numericId s!"anki_renderer:model:{noteType.name}:{noteType.kind.name}"
    name := noteType.name
    kind := noteType.kind
    fields := noteType.fields
    templates :=
      match noteType.kind with
      | .cloze => [noteType.template]
      | .standard => noteType.templates
    css := noteType.css }

/-- A note with further tags behind its own. -/
def noteOf (noteType : NoteType) (extraTags : List String) (note : Note) : PackageNote :=
  { values := noteType.fields.map note.fields.value
    tags := (note.tags ++ extraTags).eraseDups }

/-- The fields in which a note needs a deletion to be exported, if it does. -/
def clozeFieldsOf (policy : Policy) (noteType : NoteType) : Except Failure (Option (List String)) :=
  match noteType.kind with
  | .standard => .ok none
  | .cloze =>
    ((parse policy noteType.template.front).mapError (.template none)).map
      fun nodes => some nodes.clozeFields

/-- Notes on their way into a package: how many were looked at, how many of these go into it and how
many stay out, and those that go into it. -/
structure Gathered where
  seen : Nat
  exported : Nat
  skipped : Nat
  notes : List Note
  deriving DecidableEq, Repr

/-- No note was looked at. -/
def Gathered.start : Gathered := ⟨0, 0, 0, []⟩

/-- A further note goes into the package. -/
def Gathered.add (gathered : Gathered) (note : Note) : Gathered :=
  { gathered with
    seen := gathered.seen + 1
    exported := gathered.exported + 1
    notes := gathered.notes ++ [note] }

/-- A further note stays out. -/
def Gathered.skip (gathered : Gathered) : Gathered :=
  { gathered with seen := gathered.seen + 1, skipped := gathered.skipped + 1 }

/-- Whether a note stays out: without a deletion in the given fields, if it needs one. -/
def staysOut (clozeFields? : Option (List String)) (note : Note) : Except Numeral.Fault Bool :=
  match clozeFields? with
  | none => .ok false
  | some clozeFields => (Deck.noteOrdinals note clozeFields).map List.isEmpty

/-- Looks at one note after the other. -/
def gather (clozeFields? : Option (List String)) :
    Gathered → List Note → Except Numeral.Fault Gathered
  | gathered, [] => .ok gathered
  | gathered, note :: rest => do
    if ← staysOut clozeFields? note then gather clozeFields? gathered.skip rest
    else gather clozeFields? (gathered.add note) rest

/-- The package of a deck, and what became of its notes. A name that is given comes before the
deck's own. -/
def ofDeck (policy : Policy) (deck : Deck) (path : String) (givenName givenTags : Value) :
    Except Failure (Package × PackageStats) := do
  let noteType := deck.noteType
  checkTemplates policy noteType.templates
  let deckName := if givenName.isGiven then givenName else .str deck.name
  let extraTags ← (tagsOf givenTags).mapError .shape
  let clozeFields? ← clozeFieldsOf policy noteType
  let gathered ← (gather clozeFields? .start deck.notes).mapError .numeral
  if gathered.exported = 0 then .error .nothingExported
  else
    let package := {
      path
      deckId := Identity.numericId s!"anki_renderer:deck:{deckName.text}"
      deckName
      model := modelOf noteType
      notes := gathered.notes.map (noteOf noteType extraTags) }
    let stats := {
      notesSeen := gathered.seen
      notesExported := gathered.exported
      notesSkippedNoCloze := gathered.skipped
      deckName }
    .ok (package, stats)

end Package

end Flashcards
