import Flashcards.Arguments
import Flashcards.Boundary
import Flashcards.Job.Run

/-!
# Commands

What each request does to a session, and the exit code it ends with. A command that can fail in
ways a user may cause prints one line saying so and ends with code one; which failures those are
differs between commands, and others are passed on. A job is timed by the given clock and has the
given id.
-/

namespace Flashcards.Command

open Files Json

/-- What the clock says while a command runs, and the id of the job it may start. -/
structure Occasion where
  clock : Job.Clock
  jobId : String
  deriving DecidableEq, Repr

/-- Does something with a result, or prints the failure behind some words where its family is one
of those given. -/
def report {α : Type} (families : List Failure.Family) (words : String) (attempt : Action α)
    (proceed : α → Action Nat) : Action Nat := do
  let session ← get
  let (outcome, session) := attempt.outcome session
  set session
  match outcome with
  | .ok x => proceed x
  | .error failure =>
    if failure.family ∈ families then do
      Action.printLine s!"{words}: {failure.message}"
      pure 1
    else throw failure

/-- What an option holds, as data. -/
def operandValue : Operand → Value
  | .word text => .str text
  | .nothing => .arr []

/-- What messages call that which an option without a word holds: an empty list. -/
def emptyKind : String := (operandValue .nothing).kind

/-- The text of the path that an option holds. -/
def pathText : Operand → Action String
  | .word text => pure text
  | .nothing => throw (.shape (.notPath emptyKind))

/-- The configuration in a file, the built-in one where there is no such file. -/
def loadConfig (operand : Operand) : Action Config := do
  let text ← pathText operand
  let files ← Action.files
  if ← Action.ofExcept ((files.contains (Path.ofText text)).mapError .file) then
    match ← Action.readJson text with
    | .obj members => Action.ofExcept (Config.ofMembers members)
    | _ => throw (.configNotObject text)
  else Action.ofExcept (Config.ofMembers [])

/-- The text that an option stands for: that of a file whose path follows an at sign, or the word
itself. -/
def textOf : Operand → Action String
  | .nothing => throw (.shape (.noMember emptyKind "startswith"))
  | .word word =>
    match word.toList with
    | '@' :: path => do
      let chars ← Action.readText (Path.ofText (String.ofList path)).text
      pure (String.ofList chars)
    | _ => pure word

/-- The number of the card that is rendered. -/
def ordinalOf : Option Int → Action Int
  | some ordinal => pure ordinal
  | none => throw (.shape (.notOrdered emptyKind (Value.int 0).kind))

/-- Renders one card. -/
def render (config front back fields : Operand) (ordinal : Option Int) (styled : Bool) :
    Action Nat :=
  report [.rendering, .value, .system] "render_failed"
    (do
      let config ← loadConfig config
      let renderer ← Action.ofExcept config.renderer
      let fieldsText ← textOf fields
      let fields ← Action.ofExcept (Boundary.fieldsOf fieldsText)
      let front ← textOf front
      let back ← textOf back
      let ordinal ← ordinalOf ordinal
      let (outcome, _) := (Rendering.renderCard front back fields ordinal).outcome renderer
      let rendered ← Action.ofExcept outcome
      pure (config, rendered))
    fun (config, rendered) => do
      let appearance := config.appearance
      let shown := fun content =>
        if styled then Style.wrap content (Style.css appearance) appearance.nightMode else content
      Action.printLine (Value.obj [
        ("question", .str (shown rendered.question)),
        ("answer", .str (shown rendered.answer))]).indented
      pure 0

/-- Prints how many cards the deletions of a text make. -/
def countCloze (content : String) : Action Nat := do
  let text ← textOf (.word content)
  let count ← Action.ofExcept (Boundary.countClozeCards text)
  Action.printLine (toString count)
  pure 0

/-- Runs a job for a deck. A configuration that makes no renderer is told before a deck that has
no path. -/
def run (occasion : Occasion) (config deck workspace : Operand) (preview : Bool) : Action Nat :=
  report [.system, .value] "run_failed: invalid config" (loadConfig config) fun config => do
    let paths ← Job.create (← pathText workspace) occasion.jobId
    Job.initialise paths occasion.clock.made
    report [.rendering, .system] "run_failed"
      (do
        let _ ← Action.ofExcept config.renderer
        let deck ← pathText deck
        Job.run paths config ⟨deck, preview⟩ occasion.jobId occasion.clock)
      fun metrics => do
        let tally := metrics.tally
        Action.printLine (s!"notes={tally.notesTotal} rendered={tally.notesRendered} "
          ++ s!"failed={tally.notesFailed} cards={tally.cardsTotal} "
          ++ s!"skipped_empty_front={tally.cardsSkippedEmptyFront}")
        Action.printLine paths.directory.text
        pure (if tally.notesFailed = 0 then 0 else 1)

/-- Lists the problems of a deck. -/
def validate (config deck : Operand) : Action Nat :=
  report [.system, .value] "invalid config" (loadConfig config) fun config =>
    report [.rendering, .system] "invalid deck file"
      (do Action.readDeck (← pathText deck)) fun deck => do
      let problems ← Action.ofExcept ((deck.problems config.policy).mapError .numeral)
      Action.printLine s!"notes={deck.notes.length}"
      Action.printLine s!"templates={deck.noteType.templates.length}"
      Action.printLine s!"problems={problems.length}"
      if problems = [] then
        Action.printLine "OK"
        pure 0
      else
        for problem in problems do
          Action.printLine problem.message
        pure 1

/-- What a result file says about the deck, and its cards. -/
def resultParts : Value → Except ShapeFault (Value × List Value)
  | .obj members => do
    let cards ← (Value.memberOr members "cards" (.arr [])).items
    match Value.memberOr members "job" (.obj []) with
    | .obj job => .ok (Value.memberOr job "deck" .null, cards)
    | other => .error (.noMember other.kind "get")
  | _ => .ok (.null, [])

/-- Whether a value is an object. -/
def isObject : Value → Bool
  | .obj _ => true
  | _ => false

/-- Writes the preview page of a job that ran. -/
def preview (config jobDirectory : Operand) (out : Option Operand) (nightMode : Bool) :
    Action Nat := do
  let directory := Path.ofText (← pathText jobDirectory)
  report [.system, .value] "preview_failed"
    (do
      let config ← loadConfig config
      let result ← Action.readJson (directory.join "result.json").text
      pure (config, result))
    fun (config, result) => do
      let (deckName, cards) ← Action.ofExcept ((resultParts result).mapError .shape)
      let title := if deckName.isGiven then deckName.text else "Card Preview"
      let appearance := config.appearance
      let page : Preview.Page :=
        ⟨title, "", { appearance with nightMode := nightMode || appearance.nightMode }⟩
      let path :=
        match out.bind Operand.word? with
        | some text => Path.ofText text
        | none => directory.join "preview.html"
      Job.writePreview path page (cards.filter isObject)
      Action.printLine s!"cards={cards.length}"
      Action.printLine path.text
      pure 0

/-- Puts a deck into a package and hands it over. -/
def makePackage (policy : Template.Policy) (deck : Deck) (out : String)
    (deckName tags : Value) : Action PackageStats := do
  let path := Path.ofText out
  let (package, stats) ← Action.ofExcept (Package.ofDeck policy deck path.text deckName tags)
  Action.makeParent path
  Action.handOver package
  pure stats

/-- Exports a deck. Templates that cannot be read are told before a package that has no path. -/
def exportDeck (config deck out : Operand) (deckName tags : Option Operand) : Action Nat :=
  report [.rendering, .emptyExport, .system, .value] "export_failed"
    (do
      let config ← loadConfig config
      let deck ← Action.readDeck (← pathText deck)
      Action.ofExcept (Package.checkTemplates config.policy deck.noteType.templates)
      let out ← pathText out
      let name := (deckName.bind Operand.word?).map Value.str
      makePackage config.policy deck out
        (name.getD (Value.memberOr config.packages "deck_name" .null))
        ((tags.map operandValue).getD (Value.memberOr config.packages "tags" .null)))
    fun stats => do
      Action.printLine (s!"exported={stats.notesExported} "
        ++ s!"skipped_no_cloze={stats.notesSkippedNoCloze} deck={stats.deckName.text}")
      pure 0

/-- The words that name the commands. -/
def usage : String :=
  "usage: flashcards [--config CONFIG] COMMAND ...\n\ncommands: "
    ++ ", ".intercalate (Arguments.commands.map Prod.fst)

/-- Does what a command line asks for, and gives the exit code. -/
def perform (occasion : Occasion) (invocation : Invocation) : Action Nat :=
  let config := invocation.config
  match invocation.request with
  | .help => do
    Action.printLine usage
    pure 0
  | .version => do
    Action.printLine Boundary.version
    pure 0
  | .render front back fields ordinal styled => render config front back fields ordinal styled
  | .countCloze content => countCloze content
  | .run deck workspace preview => run occasion config deck workspace preview
  | .validate deck => validate config deck
  | .preview jobDirectory out nightMode => preview config jobDirectory out nightMode
  | .package deck out deckName tags => exportDeck config deck out deckName tags

/-- The path that an option holds, if it holds one. -/
def pathIn : Operand → List Path
  | .word text => [Path.ofText text]
  | .nothing => []

/-- The path of the file whose text an option stands for, if it names a file. -/
def fileIn : Operand → List Path
  | .nothing => []
  | .word word =>
    match word.toList with
    | '@' :: path => [Path.ofText (String.ofList path)]
    | _ => []

/-- The paths whose entries a request may look at or change. -/
def pathsOf (jobId : String) (invocation : Invocation) : List Path :=
  let config := pathIn invocation.config
  match invocation.request with
  | .help => []
  | .version => []
  | .render front back fields _ _ => config ++ [front, back, fields].flatMap fileIn
  | .countCloze content => fileIn (.word content)
  | .run deck workspace _ =>
    config ++ pathIn deck ++ (pathIn workspace).map fun path => (path.join "jobs").join jobId
  | .validate deck => config ++ pathIn deck
  | .preview jobDirectory out _ =>
    let inJob := (pathIn jobDirectory).flatMap fun directory =>
      [directory.join "result.json", directory.join "preview.html"]
    config ++ inJob ++ out.toList.flatMap pathIn
  | .package deck out _ _ => config ++ pathIn deck ++ pathIn out

/-- The exit code for a command line that asks for nothing that can be done. -/
def refused : Nat := 2

/-- Does what words ask for, and gives the exit code. -/
def execute (occasion : Occasion) (words : List String) : Action Nat :=
  match Arguments.read? words with
  | none => pure refused
  | some invocation => perform occasion invocation

end Flashcards.Command
