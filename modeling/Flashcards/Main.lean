import Flashcards.Command
import Std.Time.Format

/-!
# The program

The program takes a copy of the entries that a command names, lets the command work on the copy,
and then writes what it changed. Everything in between is decided by the command itself. Packages
are data here; putting them into an archive is left to whoever takes them over.
-/

namespace Flashcards.Program

open Files

/-- Whether there is a directory at a path. -/
def isDirectory (path : String) : IO Bool := do
  try
    let _ ← IO.FS.Handle.mk (path ++ "/.") .read
    pure true
  catch _ => pure false

/-- What stands at a path. -/
def entryAt (path : String) : IO (Option Entry) := do
  if ← isDirectory path then
    pure (some .directory)
  else
    try
      let bytes ← IO.FS.readBinFile path
      pure (some (.file (.bytes bytes.toList)))
    catch _ => pure none

/-- Copies what stands at a path into a tree. -/
def copyEntry (tree : Tree) (path : Path) : IO Tree := do
  match tree.locate path.text, ← entryAt path.text with
  | .ok location, some entry =>
    pure (if Tree.isAbove location then tree else tree.put location entry)
  | _, _ => pure tree

/-- Copies what stands at a path, and at every path on the way to it. -/
def copyPath (tree : Tree) (path : Path) : IO Tree :=
  (List.range path.names.length).foldlM
    (fun tree count => copyEntry tree { path with names := path.names.take (count + 1) }) tree

/-- The text of a location. -/
def locationText : Location → String
  | "/" :: names => "/" ++ "/".intercalate names
  | names => "/".intercalate names

/-- The bytes that a file holds. -/
def bytesOf : Content → ByteArray
  | .text s => s.toUTF8
  | .bytes bytes => ⟨bytes.toArray⟩

/-- Writes the entries that are new or differ. -/
def writeChanges (before after : Tree) : IO Unit :=
  for (location, entry) in after.entries do
    if before.find? location ≠ some entry then
      match entry with
      | .directory => IO.FS.createDirAll (locationText location)
      | .file content => IO.FS.writeBinFile (locationText location) (bytesOf content)

/-- The time now, and an id for a job that starts now. -/
def occasion : IO Command.Occasion := do
  let seconds := (← Std.Time.Timestamp.now).toSecondsSinceUnixEpoch.val.toNat
  let moment := Calendar.Moment.ofUnix seconds
  let digits := Identity.hexText (← IO.getRandomBytes 4).toList
  pure ⟨moment.stamp, Job.timelineId moment digits⟩

/-- Does what words ask for, and gives the exit code. -/
def run (words : List String) : IO UInt32 := do
  match Arguments.read? words with
  | none =>
    IO.eprintln Command.usage
    pure (UInt32.ofNat Command.refused)
  | some invocation =>
    let occasion ← occasion
    let before ← (Command.pathsOf occasion.jobId invocation).foldlM copyPath Tree.empty
    let (outcome, after) := (Command.perform occasion invocation).outcome ⟨before, "", []⟩
    writeChanges before after.files
    IO.print after.printed
    for package in after.packages do
      IO.eprintln s!"{package.path}: {package.notes.length} notes"
    match outcome with
    | .ok code => pure (UInt32.ofNat code)
    | .error failure =>
      IO.eprintln failure.message
      pure 1

end Flashcards.Program

/-- The program. -/
def main (words : List String) : IO UInt32 := Flashcards.Program.run words
