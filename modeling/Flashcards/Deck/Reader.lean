import Flashcards.Deck.Basic
import Flashcards.Json.Display
import Flashcards.Json.Items

/-!
# Reading decks

A deck is described by a JSON object. Members that are missing have defaults where there is a
sensible one; members nobody knows are passed over. The first thing wrong is reported: the deck's
own name and list of notes first, then the note type, then the notes in order. Tags are given as a
list or as words in one text, and never contain a space.
-/

namespace Flashcards

open Json

/-- The text under a key of an object, or the default. `place` is what messages call the object. -/
def textMember (members : Bindings String Value) (place key : String) (default : Option String) :
    Except InputFault String :=
  match Bindings.find? key members, default with
  | some (.str s), _ => .ok s
  | some _, _ => .error (.memberNotText place key)
  | none, some s => .ok s
  | none, none => .error (.memberNotText place key)

namespace CardTemplate

/-- What messages call the template at an index. -/
def place (index : Nat) : String := s!"note_type.templates[{index}]"

/-- The templates that a value describes. -/
def ofValue (index : Nat) : Value → Except InputFault CardTemplate
  | .obj members => do
    let name ← textMember members (place index) "name" (some s!"Card {index + 1}")
    let front ← textMember members (place index) "front" none
    let back ← textMember members (place index) "back" none
    .ok ⟨name, front, back⟩
  | _ => .error (.templateNotObject index)

/-- The templates that values describe, which are numbered from `index` on. -/
def ofValues (index : Nat) : List Value → Except InputFault (List CardTemplate)
  | [] => .ok []
  | v :: rest => do
    let template ← ofValue index v
    let more ← ofValues (index + 1) rest
    .ok (template :: more)

end CardTemplate

namespace NoteType

/-- The kind of a note type. -/
def kindOf (given : Value) : Except InputFault NoteKind :=
  match given with
  | .str name =>
    match NoteKind.ofName? name with
    | some kind => .ok kind
    | none => .error (.unknownKind given.literal)
  | _ => .error (.unknownKind given.literal)

/-- The names of the fields, which differ from each other. -/
def fieldNamesOf (given : Value) : Except InputFault (List String) :=
  match given with
  | .arr items =>
    match Value.strings? items with
    | none => .error .fieldNamesNotTexts
    | some names => if names.Nodup then .ok names else .error .fieldNamesRepeated
  | _ => .error .fieldNamesNotTexts

/-- The note type that an object describes. -/
def ofMembers (members : Bindings String Value) : Except InputFault NoteType := do
  let kind ← kindOf (Value.memberOr members "kind" (.str "standard"))
  let fields ← fieldNamesOf (Value.memberOr members "fields" (.arr []))
  match Value.memberOr members "templates" (.arr []) with
  | .arr (first :: rest) => do
    let name ← textMember members "note_type" "name" (some "Basic")
    let template ← CardTemplate.ofValue 0 first
    let moreTemplates ← CardTemplate.ofValues 1 rest
    let css ← textMember members "note_type" "css" (some "")
    .ok { name, kind, fields, template, moreTemplates, css }
  | _ => .error .noTemplates

/-- The note type that a value describes. -/
def ofValue : Value → Except InputFault NoteType
  | .obj members => ofMembers members
  | _ => .error .noteTypeNotObject

end NoteType

namespace Note

/-- A tag as notes carry it: without blanks around it, and without spaces. -/
def normalTag (tag : String) : String := Text.replaceChar ' ' '_' (Text.trimmed tag)

/-- Tags as notes carry them; what is blank is no tag. -/
def normalTags (tags : List String) : List String :=
  (tags.filter fun tag => Text.trimmed tag ≠ "").map normalTag

/-- The tags as they are given, as words of a text or as a list of texts. -/
def givenTags? : Value → Option (List String)
  | .str s => some (Text.words s)
  | .arr items => Value.strings? items
  | _ => none

/-- The note that a value describes. -/
def ofValue (index : Nat) : Value → Except InputFault Note
  | .obj members => do
    let fields ← (Fields.ofValue (Value.memberOr members "fields" (.obj []))).mapError
      (.noteFields index)
    match givenTags? (Value.memberOr members "tags" (.arr [])) with
    | none => .error (.tagsNotTexts index)
    | some tags => .ok ⟨fields, normalTags tags⟩
  | _ => .error (.noteNotObject index)

/-- The notes that values describe, which are numbered from `index` on. -/
def ofValues (index : Nat) : List Value → Except InputFault (List Note)
  | [] => .ok []
  | v :: rest => do
    let note ← ofValue index v
    let more ← ofValues (index + 1) rest
    .ok (note :: more)

end Note

namespace Deck

/-- The name of a deck, which is not blank. -/
def nameOf : Value → Except InputFault String
  | .str s =>
    let name := Text.trimmed s
    if name = "" then .error .deckUnnamed else .ok name
  | _ => .error .deckUnnamed

/-- The deck that an object describes. Without a name it has the default one. -/
def ofMembers (defaultName : String) (members : Bindings String Value) :
    Except InputFault Deck := do
  let name ← nameOf (Value.memberOr members "deck" (.str defaultName))
  match Value.memberOr members "notes" (.arr []) with
  | .arr items => do
    let noteType ← NoteType.ofValue (Value.memberOr members "note_type" .null)
    let notes ← Note.ofValues 0 items
    .ok { name, noteType, notes }
  | _ => .error .notesNotList

/-- The deck that a value describes. -/
def ofValue (defaultName : String) : Value → Except InputFault Deck
  | .obj members => ofMembers defaultName members
  | _ => .error .deckNotObject

end Deck

end Flashcards
