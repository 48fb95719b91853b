import Flashcards.Bindings
import Flashcards.Failure
import Flashcards.Files.Path
import Flashcards.Text.Line

/-!
# A tree of files

The part of a file system that a command reads and writes. Entries are kept under their locations:
the names on the way from the directory one stands in, or from the root. A request walks along the
names of a path, and every name but the last has to lead to a directory. The directories above the
one a command stands in, and the root, are always there, and so is the null device: a file that is
empty whatever is written to it. Names and paths have a greatest length, and none holds the zero
character.
-/

namespace Flashcards.Files

/-- What a file holds. Files that programs write hold text. -/
inductive Content
  | text (s : String)
  | bytes (bytes : List UInt8)
  deriving DecidableEq, Repr

/-- What stands at a location. -/
inductive Entry
  | directory
  | file (content : Content)
  deriving DecidableEq, Repr

/-- Names on the way to an entry. -/
abbrev Location := List String

/-- A tree of files: its entries by location. -/
structure Tree where
  entries : Bindings Location Entry
  deriving DecidableEq, Repr

namespace Tree

/-- A tree without entries. -/
def empty : Tree := ⟨[]⟩

/-- Whether a location is above everything that entries are kept for. -/
def isAbove (location : Location) : Bool :=
  location = ["/"] || location.all (· == "..")

/-- What is always there, whatever entries a tree has. -/
def fixed? (location : Location) : Option Entry :=
  if isAbove location ∨ location = ["/", "dev"] then some .directory
  else if location = ["/", "dev", "null"] then some (.file (.text ""))
  else none

/-- The entry at a location. -/
def find? (tree : Tree) (location : Location) : Option Entry :=
  match fixed? location with
  | some entry => some entry
  | none => Bindings.find? location tree.entries

/-- Puts an entry at a location. -/
def put (tree : Tree) (location : Location) (entry : Entry) : Tree :=
  ⟨Bindings.bind location entry tree.entries⟩

/-- The location of the directory above. -/
def up (location : Location) : Location :=
  if location = ["/"] then location
  else if isAbove location then location ++ [".."]
  else location.dropLast

/-- The most bytes a name may have. -/
def nameLimit : Nat := 255

/-- The most bytes a path may have. -/
def pathLimit : Nat := 4095

/-- Walks along names. -/
def walk (tree : Tree) (location : Location) : List String → Except Reason Location
  | [] => .ok location
  | name :: rest =>
    match tree.find? location with
    | none => .error .notFound
    | some (.file _) => .error .notDirectory
    | some .directory =>
      if name = "" ∨ name = "." then walk tree location rest
      else if name = ".." then walk tree (up location) rest
      else if nameLimit < name.utf8ByteSize then .error .nameTooLong
      else walk tree (location ++ [name]) rest

/-- The location that a text leads to. -/
def locate (tree : Tree) (text : String) : Except Reason Location :=
  if text.toList.contains '\x00' then .error .zeroInPath
  else if pathLimit < text.utf8ByteSize then .error .nameTooLong
  else
    match Text.splitAt '/' text with
    | [""] => .error .notFound
    | "" :: names => tree.walk ["/"] names
    | names => tree.walk [] names

/-- A reason, with the path it is about. -/
def blame {α : Type} (path : String) (outcome : Except Reason α) : Except Fault α :=
  outcome.mapError fun reason => ⟨reason, path⟩

/-- The entry that a text leads to, if there is one. -/
def entry? (tree : Tree) (text : String) : Option Entry :=
  match tree.locate text with
  | .ok location => tree.find? location
  | .error _ => none

/-- Whether a path leads to an entry. What is too long to be looked up is a fault. -/
def contains (tree : Tree) (path : Path) : Except Fault Bool :=
  match tree.locate path.text with
  | .ok location => .ok (tree.find? location).isSome
  | .error .nameTooLong => .error ⟨.nameTooLong, path.text⟩
  | .error _ => .ok false

/-- Whether a path leads to a directory. -/
def isDirectory (tree : Tree) (path : Path) : Bool := tree.entry? path.text = some .directory

/-- What the file holds that a text leads to. -/
def readContent (tree : Tree) (text : String) : Except Fault Content :=
  blame text do
    let location ← tree.locate text
    match tree.find? location with
    | none => .error .notFound
    | some .directory => .error .isDirectory
    | some (.file content) => .ok content

/-- The characters of a file that is read as text. -/
def Content.chars : Content → Except Utf8.Fault (List Char)
  | .text s => .ok (Text.unifyLineEnds s.toList)
  | .bytes bytes => (Utf8.decode bytes).map Text.unifyLineEnds

/-- The text of the file that a text leads to. -/
def readText (tree : Tree) (text : String) : Except Failure (List Char) := do
  let content ← (tree.readContent text).mapError .file
  (Content.chars content).mapError fun fault => .data (.encoding fault)

/-- Changes what a file holds, or makes the file. -/
def editFile (tree : Tree) (path : Path) (edit : Option Content → Content) : Except Fault Tree :=
  blame path.text do
    let location ← tree.locate path.text
    match tree.find? location with
    | some .directory => .error .isDirectory
    | some (.file content) => .ok (tree.put location (.file (edit (some content))))
    | none => .ok (tree.put location (.file (edit none)))

/-- Writes a text to a file, in place of what it held. -/
def writeText (tree : Tree) (path : Path) (s : String) : Except Fault Tree :=
  tree.editFile path fun _ => .text s

/-- What a file holds after a text is added at its end. -/
def Content.append (s : String) : Option Content → Content
  | none => .text s
  | some (.text old) => .text (old ++ s)
  | some (.bytes old) => .bytes (old ++ Utf8.encode s)

/-- Adds a text at the end of a file. -/
def appendText (tree : Tree) (path : Path) (s : String) : Except Fault Tree :=
  tree.editFile path (Content.append s)

/-- Makes an empty file, unless there is something already. -/
def touch (tree : Tree) (path : Path) : Except Fault Tree :=
  if (tree.entry? path.text).isSome then .ok tree else tree.writeText path ""

/-- Makes a directory in one that is there. -/
def makeDirectory (tree : Tree) (path : Path) : Except Fault Tree :=
  blame path.text do
    let location ← tree.locate path.text
    match tree.find? location with
    | some _ => .error .alreadyExists
    | none => .ok (tree.put location .directory)

/-- Makes a directory and those above it, as far as they are missing. -/
def makeDirectories (tree : Tree) (path : Path) : Except Fault Tree :=
  match tree.makeDirectory path with
  | .ok tree => .ok tree
  | .error ⟨.notFound, shown⟩ =>
    if _h : path.names = [] then .error ⟨.notFound, shown⟩
    else
      match tree.makeDirectories path.parent with
      | .error fault => .error fault
      | .ok tree =>
        match tree.makeDirectory path with
        | .ok tree => .ok tree
        | .error fault => if tree.isDirectory path then .ok tree else .error fault
  | .error fault => if tree.isDirectory path then .ok tree else .error fault
termination_by path.names.length
decreasing_by
  simp only [Path.parent, List.length_dropLast]
  have := List.length_pos_iff.2 _h
  omega

end Tree

end Flashcards.Files
