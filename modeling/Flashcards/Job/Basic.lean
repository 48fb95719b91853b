import Flashcards.Calendar
import Flashcards.Session

/-!
# Jobs

A job renders a deck into a directory of its own. Its files are there from the start, with empty
results and the mark that the job is not finished, so a job that fails can be told from one that
is done.
-/

namespace Flashcards.Job

open Files Json

/-- What the clock says when the files of a job are made, when its run begins, and when the results
are written. -/
structure Clock where
  made : String
  begun : String
  done : String
  deriving DecidableEq, Repr

/-- One time stands for a clock that shows it throughout. -/
instance : Coe String Clock := ⟨fun time => ⟨time, time, time⟩⟩

/-- The files of a job. -/
structure Paths where
  directory : Path
  result : Path
  metrics : Path
  errors : Path
  preview : Path
  deriving DecidableEq, Repr

/-- The files of the job in a directory. -/
def Paths.inDirectory (directory : Path) : Paths :=
  { directory
    result := directory.join "result.json"
    metrics := directory.join "metrics.json"
    errors := directory.join "errors.jsonl"
    preview := directory.join "preview.html" }

/-- The id of a job that starts at a moment: the date, a slash, the time of day and eight digits
of its own. -/
def timelineId (moment : Calendar.Moment) (digits : String) : String :=
  s!"{moment.date}/{moment.clock}__{digits}"

/-- A plain id from 32 hexadecimal digits, in groups. -/
def plainId (digits : List Char) : String :=
  "-".intercalate (([(0, 8), (8, 4), (12, 4), (16, 4), (20, 12)] : List (Nat × Nat)).map
    fun (start, size) => String.ofList ((digits.drop start).take size))

/-- Makes the directory of a job. -/
def create (workspace jobId : String) : Action Paths := do
  let paths := Paths.inDirectory (((Path.ofText workspace).join "jobs").join jobId)
  Action.changeFiles fun files => files.makeDirectories paths.directory
  pure paths

/-- What is counted while a job runs. -/
structure Tally where
  notesTotal : Nat
  notesRendered : Nat
  notesFailed : Nat
  cardsTotal : Nat
  cardsSkippedEmptyFront : Nat
  notesWithoutCloze : Nat
  deriving DecidableEq, Repr

/-- The tally before the first note. -/
def Tally.start (notesTotal : Nat) : Tally := ⟨notesTotal, 0, 0, 0, 0, 0⟩

/-- The counts by name. -/
def Tally.members (tally : Tally) : List (String × Value) := [
  ("notes_total", .int tally.notesTotal),
  ("notes_rendered", .int tally.notesRendered),
  ("notes_failed", .int tally.notesFailed),
  ("cards_total", .int tally.cardsTotal),
  ("cards_skipped_empty_front", .int tally.cardsSkippedEmptyFront),
  ("notes_without_cloze", .int tally.notesWithoutCloze)]

/-- Writes the files of a job that has not run yet. -/
def initialise (paths : Paths) (made : String) : Action Unit := do
  Action.writeJson paths.result (.obj [("job", .obj []), ("cards", .arr [])])
  Action.writeJson paths.metrics (.obj (
    [("created_at", .str made), ("finished", .bool false), ("completed_at", .null)]
      ++ (Tally.start 0).members ++ [("cards_by_template", .obj [])]))
  Action.makeParent paths.errors
  Action.changeFiles fun files => files.touch paths.errors

/-- Notes what went wrong, with the note it concerns if there is one. -/
def recordError (paths : Paths) (noteIndex : Option Nat) (stage message : String) : Action Unit :=
  Action.appendJsonLine paths.errors (.obj [
    ("note_index", noteIndex.elim .null fun index => .int index),
    ("stage", .str stage),
    ("message", .str message)])

end Flashcards.Job
