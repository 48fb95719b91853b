import Flashcards.Deck.Reader
import Flashcards.Files.Tree
import Flashcards.Json.Reader
import Flashcards.Json.Writer
import Flashcards.Package

/-!
# Sessions

A command works on a session: the files it can see, what it printed, and the packages it handed
over. Whatever it did to the session stays when it fails.
-/

namespace Flashcards

open Files Json

/-- What a command works on. -/
structure Session where
  files : Tree
  printed : String
  packages : List Package

/-- A computation on a session. -/
abbrev Action := ExceptT Failure (StateM Session)

namespace Action

/-- Runs a computation: its outcome, and the session afterwards. -/
def outcome {α : Type} (action : Action α) (session : Session) : Except Failure α × Session :=
  StateT.run (ExceptT.run action) session

/-- Gives a result or fails. -/
def ofExcept {α : Type} : Except Failure α → Action α
  | .ok x => pure x
  | .error failure => throw failure

/-- The files of the session. -/
def files : Action Tree := do
  let session ← get
  pure session.files

/-- Changes the files of the session. -/
def changeFiles (change : Tree → Except Files.Fault Tree) : Action Unit := do
  let session ← get
  match change session.files with
  | .ok files => set { session with files }
  | .error fault => throw (.file fault)

/-- Prints a line. -/
def printLine (line : String) : Action Unit :=
  modify fun session => { session with printed := session.printed ++ line ++ "\n" }

/-- Hands a package over. -/
def handOver (package : Package) : Action Unit :=
  modify fun session => { session with packages := session.packages ++ [package] }

/-- The text of a file. -/
def readText (text : String) : Action (List Char) := do
  let files ← files
  ofExcept (files.readText text)

/-- The JSON value in a file. -/
def readJson (text : String) : Action Value := do
  let chars ← readText text
  ofExcept ((Json.read chars).mapError (.ofRefusal fun fault => .data (.json fault)))

/-- Makes the directory that a file is in, and those above it. -/
def makeParent (path : Path) : Action Unit :=
  changeFiles fun files => files.makeDirectories path.parent

/-- Writes a value to a file, with a line for each item and member. -/
def writeJson (path : Path) (v : Value) : Action Unit := do
  makeParent path
  changeFiles fun files => files.writeText path v.indented

/-- Adds a value on a line of its own at the end of a file. -/
def appendJsonLine (path : Path) (v : Value) : Action Unit := do
  makeParent path
  changeFiles fun files => files.appendText path (v.oneLine ++ "\n")

/-- The values of lines, from the first on. Blank lines are passed over. -/
def valuesOfLines : List (List Char) → Except Json.Refusal (List Value)
  | [] => .ok []
  | line :: rest =>
    if Text.trim line = [] then valuesOfLines rest
    else do
      let v ← Json.read (Text.trim line)
      let more ← valuesOfLines rest
      .ok (v :: more)

/-- The values in a file that has one on each line. -/
def readJsonLines (text : String) : Action (List Value) := do
  let chars ← readText text
  ofExcept ((valuesOfLines (Text.lines chars)).mapError
    (.ofRefusal fun fault => .data (.json fault)))

/-- The deck in a file, which is named for the file if it has no other name. -/
def readDeck (text : String) : Action Deck := do
  let path := Path.ofText text
  let files ← files
  match files.readContent path.text with
  | .error fault =>
    if fault.isRefusal then throw (.file fault)
    else throw (.input (.badDeckFile path.text (.path fault)))
  | .ok content =>
    let refuse := fun cause => Failure.input (.badDeckFile path.text cause)
    let chars ← ofExcept ((Tree.Content.chars content).mapError fun fault =>
      refuse (.encoding fault))
    let v ← ofExcept ((Json.read chars).mapError (.ofRefusal fun fault => refuse (.json fault)))
    ofExcept ((Deck.ofValue path.stem v).mapError .input)

end Action

end Flashcards
