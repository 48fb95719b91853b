import Flashcards.Text.Cut

/-!
# Paths

A path is a root, if it has one, and names. Empty names and single dots say nothing and are left
out; double dots are kept, since what they lead to depends on the tree. The path without root and
names is the directory one stands in.
-/

namespace Flashcards.Files

/-- A path: one or two slashes or nothing, and names. -/
structure Path where
  root : String
  names : List String
  deriving DecidableEq, Repr

namespace Path

/-- The root that a text begins with. Three slashes and more count as one. -/
def rootOf : List Char → String
  | ['/', '/'] => "//"
  | '/' :: '/' :: c :: _ => if c = '/' then "/" else "//"
  | '/' :: _ => "/"
  | _ => ""

/-- The path that a text describes. -/
def ofText (text : String) : Path :=
  { root := rootOf text.toList
    names := (Text.splitAt '/' text).filter fun name => name ≠ "" ∧ name ≠ "." }

/-- A path as text. -/
def text (path : Path) : String :=
  if path.root = "" ∧ path.names = [] then "." else path.root ++ "/".intercalate path.names

/-- The path one name shorter. A path without names is its own parent. -/
def parent (path : Path) : Path := { path with names := path.names.dropLast }

/-- What a text leads to from a path. -/
def join (path : Path) (further : String) : Path :=
  let other := ofText further
  if other.root = "" then { path with names := path.names ++ other.names } else other

/-- The last name, or nothing. -/
def name (path : Path) : String := path.names.getLast?.getD ""

/-- A name without its ending: what stands before the last dot, unless the dot is the first or the
last character. -/
def stemOf (name : String) : String :=
  let cs := name.toList
  let ending := (cs.reverse.takeWhile (· != '.')).length
  let before := cs.length - ending - 1
  if 0 < ending ∧ ending < cs.length ∧ 0 < before then String.ofList (cs.take before) else name

/-- The last name without its ending. -/
def stem (path : Path) : String := stemOf path.name

end Path

end Flashcards.Files
