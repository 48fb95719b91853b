import Flashcards.Text.Quoted

/-!
# Templates that cannot be read

A template is refused as a whole; nothing of it is rendered. The first thing wrong in reading
order is reported, except that a tag or section left open shows only at the end.
-/

namespace Flashcards.Template

/-- Why a template cannot be read. -/
inductive Error
  /-- The tag that begins at `position` has no closing braces. -/
  | unterminatedTag (position : Nat)
  /-- The template ends inside this section. -/
  | unterminatedSection (name : String)
  /-- A closing tag does not fit the innermost open section, or there is none. -/
  | mismatchedClose (expected : Option String) (found : String)
  /-- A field is passed through a filter nobody knows. -/
  | unknownFilter (keyword : String)
  deriving DecidableEq, Repr

/-- A tag as it is written in a template. -/
def shownTag (body : String) : String := "\x7b\x7b" ++ body ++ "\x7d\x7d"

/-- The error in words. -/
def Error.message : Error → String
  | .unterminatedTag position => s!"unterminated tag starting at offset {position}"
  | .unterminatedSection name => "section " ++ shownTag ("#" ++ name) ++ " is never closed"
  | .mismatchedClose none found =>
    "close tag " ++ shownTag ("/" ++ found) ++ " without an open section"
  | .mismatchedClose (some expected) found =>
    "expected " ++ shownTag ("/" ++ expected) ++ ", found " ++ shownTag ("/" ++ found)
  | .unknownFilter keyword => "unknown filter: " ++ Text.quoted keyword

end Flashcards.Template
