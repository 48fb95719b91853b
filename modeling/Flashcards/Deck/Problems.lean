import Flashcards.Deck.Cards

/-!
# Problems of a deck

A deck that can be read may still make bad cards. Its problems are listed in order: templates that
cannot be read, then names no template can use, then a cloze note type that deletes nothing, then
the notes with fields nobody declared or without deletions.
-/

namespace Flashcards

open Template

/-- Something that would make cards render badly. -/
inductive DeckProblem
  | badTemplate (template : String) (face : Face) (error : Template.Error)
  | unknownField (template : String) (face : Face) (field : String)
  | noClozeFilter (noteType : String)
  | undeclaredFields (noteIndex : Nat) (names : List String)
  | noDeletions (noteIndex : Nat) (clozeFields : List String)
  deriving DecidableEq, Repr

/-- The problem in words. -/
def DeckProblem.message : DeckProblem → String
  | .badTemplate template face error =>
    s!"template {Text.quoted template} {face.name}: {error.message}"
  | .unknownField template face field =>
    s!"template {Text.quoted template} {face.name}: unknown field {Text.quoted field}"
  | .noClozeFilter noteType =>
    s!"cloze note type {Text.quoted noteType}: front template has no cloze filter"
  | .undeclaredFields noteIndex names =>
    s!"notes[{noteIndex}]: undeclared fields {Text.quotedList names}"
  | .noDeletions noteIndex clozeFields =>
    s!"notes[{noteIndex}]: no cloze deletions in {Text.quotedList clozeFields}"

/-- Texts in the order of their code points. -/
def sortTexts (texts : List String) : List String := texts.mergeSort fun a b => !decide (b < a)

namespace Deck

/-- A template and the side it is for. -/
abbrev TemplateKey := String × Face

/-- The templates of a deck with their names and sides, in order. -/
def templateTexts (deck : Deck) : List (TemplateKey × String) :=
  deck.noteType.templates.flatMap fun template =>
    [((template.name, .front), template.front), ((template.name, .back), template.back)]

/-- The problems of templates that cannot be read. -/
def templateProblems (policy : Policy) (texts : List (TemplateKey × String)) :
    List DeckProblem :=
  texts.filterMap fun ((name, face), text) =>
    match parse policy text with
    | .ok _ => none
    | .error error => some (.badTemplate name face error)

/-- The trees of the templates that can be read. Of equal names the last one counts. -/
def readTemplates (policy : Policy) (texts : List (TemplateKey × String)) :
    Bindings TemplateKey Nodes :=
  Bindings.bindAll [] (texts.filterMap fun (key, text) => (parse policy text).toOption.map (key, ·))

/-- The names a tree uses, each once: those of its fields, then those of its sections. -/
def usedNames (nodes : Nodes) : List String :=
  (nodes.fieldRefs.map FieldRef.name ++ nodes.sectionNames).eraseDups

/-- The problems of names that nobody declared. -/
def nameProblems (deck : Deck) (trees : Bindings TemplateKey Nodes) : List DeckProblem :=
  let known := deck.noteType.fields ++ specialFields
  trees.flatMap fun ((name, face), nodes) =>
    ((usedNames nodes).filter fun field => field ≠ "" ∧ field ∉ known).map
      (.unknownField name face)

/-- The fields in which notes need deletions, if the deck's notes do and it is known which. -/
def neededClozeFields? (deck : Deck) (trees : Bindings TemplateKey Nodes) :
    Option (List String) :=
  match deck.noteType.kind with
  | .standard => none
  | .cloze =>
    (Bindings.find? (deck.noteType.template.name, .front) trees).map Nodes.clozeFields

/-- The problems of notes that are numbered from `index` on. -/
def noteProblems (deck : Deck) (clozeFields : List String) (index : Nat) :
    List Note → Except Numeral.Fault (List DeckProblem)
  | [] => .ok []
  | note :: rest => do
    let extra := sortTexts
      ((Bindings.keys note.fields).filter fun name => name ∉ deck.noteType.fields)
    let undeclared := if extra = [] then [] else [DeckProblem.undeclaredFields index extra]
    let ordinals ← if clozeFields = [] then .ok [] else noteOrdinals note clozeFields
    let missing :=
      if clozeFields ≠ [] ∧ ordinals = [] then [DeckProblem.noDeletions index clozeFields] else []
    let more ← noteProblems deck clozeFields (index + 1) rest
    .ok (undeclared ++ missing ++ more)

/-- The problems of a deck. -/
def problems (policy : Policy) (deck : Deck) : Except Numeral.Fault (List DeckProblem) := do
  let texts := deck.templateTexts
  let trees := readTemplates policy texts
  let needed? := deck.neededClozeFields? trees
  let noFilter :=
    if needed? = some [] then [DeckProblem.noClozeFilter deck.noteType.name] else []
  let ofNotes ← deck.noteProblems (needed?.getD []) 0 deck.notes
  .ok (templateProblems policy texts ++ deck.nameProblems trees ++ noFilter ++ ofNotes)

end Deck

end Flashcards
