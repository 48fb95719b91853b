import Flashcards.Deck.Problems
import Flashcards.Job.Basic
import Flashcards.Preview

/-!
# Running a job

All templates are read before any note is rendered; where one cannot be read, every note counts as
failed. A note that fails by a fault of its own is recorded and passed over. The files of the
result are written last, and only by a run that gets that far, so they say whether it did.
-/

namespace Flashcards.Job

open Files Json

/-- What a run is asked to do. -/
structure Options where
  deckPath : String
  preview : Bool
  deriving DecidableEq, Repr

/-- What a run gives back: when it began, and its counts. -/
structure Metrics where
  createdAt : String
  tally : Tally
  deriving DecidableEq, Repr

/-- The metrics by name. -/
def Metrics.members (metrics : Metrics) : List (String × Value) :=
  ("created_at", .str metrics.createdAt) :: metrics.tally.members

/-- A run under way: what it counted, and the cards it made. -/
structure Progress where
  tally : Tally
  cards : List Card
  deriving DecidableEq, Repr

/-- Reads the templates of a deck and records each that cannot be read. Gives whether all can be,
and the renderer afterwards. -/
def checkTemplates (paths : Paths) : Renderer → List (Deck.TemplateKey × String) →
    Action (Bool × Renderer)
  | renderer, [] => pure (true, renderer)
  | renderer, ((name, face), text) :: rest => do
    let (outcome, renderer) := renderer.parseCached text
    match outcome with
    | .ok _ => checkTemplates paths renderer rest
    | .error error => do
      let message := (Failure.template (some face) error).message
      recordError paths none "template" s!"{name}: {message}"
      let (_, renderer) ← checkTemplates paths renderer rest
      pure (false, renderer)

/-- Counts a note that was rendered, and adds its cards. -/
def Progress.addNote (progress : Progress) (made : NoteCards) : Progress :=
  { tally := { progress.tally with
      notesRendered := progress.tally.notesRendered + 1
      cardsSkippedEmptyFront := progress.tally.cardsSkippedEmptyFront + made.skippedEmptyFront
      notesWithoutCloze := progress.tally.notesWithoutCloze + made.skippedNoCloze }
    cards := progress.cards ++ made.cards }

/-- Counts a note that failed. -/
def Progress.addFailed (progress : Progress) : Progress :=
  { progress with tally := { progress.tally with notesFailed := progress.tally.notesFailed + 1 } }

/-- Renders notes that are numbered from `index` on. -/
def renderNotes (paths : Paths) (deck : Deck) :
    Renderer → Progress → Nat → List Note → Action Progress
  | _, progress, _, [] => pure progress
  | renderer, progress, index, note :: rest => do
    let (outcome, renderer) := (deck.renderNote index note).outcome renderer
    match outcome with
    | .ok made => do
      if made.skippedNoCloze ≠ 0 then
        recordError paths (some index) "cloze" "no_cloze_ordinals"
      renderNotes paths deck renderer (progress.addNote made) (index + 1) rest
    | .error failure =>
      if failure.family = .rendering then do
        recordError paths (some index) "render" failure.message
        renderNotes paths deck renderer progress.addFailed (index + 1) rest
      else throw failure

/-- How many cards each template made, by name in the order of code points. A card is given by its
members, and one that does not name its template counts for the empty name. -/
def cardsByTemplate (cards : List (List (String × Value))) : List (String × Value) :=
  let names := cards.map fun card => (Value.memberOr card "template" (.str "")).text
  (sortTexts names.eraseDups).map fun name => (name, .int (names.count name))

/-- Writes the files of a run that is done. -/
def writeResults (paths : Paths) (about : List (String × Value)) (metrics : Metrics)
    (cards : List (List (String × Value))) (done : String) : Action Unit := do
  let finished : List (String × Value) := [("finished", .bool true), ("completed_at", .str done)]
  Action.writeJson paths.result (.obj [
    ("job", .obj (about ++ finished)),
    ("cards", .arr (cards.map .obj))])
  Action.writeJson paths.metrics (.obj (
    metrics.members ++ ("cards_by_template", .obj (cardsByTemplate cards)) :: finished))

/-- Writes a preview page to a file. -/
def writePreview (path : Path) (page : Preview.Page) (cards : List Value) : Action Unit := do
  Action.makeParent path
  let text ← Action.ofExcept ((page.render cards).mapError .shape)
  Action.changeFiles fun files => files.writeText path text

/-- What the result says about the job itself. -/
def describe (jobId : String) (deck : Deck) (options : Options) (createdAt : String) :
    List (String × Value) := [
  ("job_id", .str jobId),
  ("deck", .str deck.name),
  ("note_type", .str deck.noteType.name),
  ("kind", .str deck.noteType.kind.name),
  ("input", .obj [("path", .str options.deckPath)]),
  ("created_at", .str createdAt)]

/-- Renders a deck for a job whose files are there. -/
def renderDeck (paths : Paths) (config : Config) (options : Options) (jobId : String)
    (clock : Clock) (renderer : Renderer) (deck : Deck) : Action Metrics := do
  let about := describe jobId deck options clock.begun
  let start := Tally.start deck.notes.length
  let (readable, renderer) ← checkTemplates paths renderer deck.templateTexts
  if !readable then
    let metrics := ⟨clock.begun, { start with notesFailed := deck.notes.length }⟩
    writeResults paths about metrics [] clock.done
    pure metrics
  else
    let progress ← renderNotes paths deck renderer ⟨start, []⟩ 0 deck.notes
    let cards := progress.cards.map Card.members
    let metrics := ⟨clock.begun, { progress.tally with cardsTotal := cards.length }⟩
    if options.preview then
      writePreview paths.preview ⟨deck.name, deck.noteType.css, config.appearance⟩
        (cards.map .obj)
    writeResults paths about metrics cards clock.done
    pure metrics

/-- Runs a job whose files are there. -/
def run (paths : Paths) (config : Config) (options : Options) (jobId : String) (clock : Clock) :
    Action Metrics := do
  let renderer ← Action.ofExcept config.renderer
  let deck ← Action.readDeck options.deckPath
  renderDeck paths config options jobId clock renderer deck

end Flashcards.Job
