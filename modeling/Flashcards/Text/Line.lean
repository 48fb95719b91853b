import Flashcards.Text.Cut

/-!
# Lines

A text file may end its lines with a line feed, a carriage return, or both. Read as text, all
three become the single line feed.
-/

namespace Flashcards.Text

/-- Every line end becomes one line feed. -/
def unifyLineEnds : List Char → List Char
  | [] => []
  | '\r' :: '\n' :: rest => '\n' :: unifyLineEnds rest
  | '\r' :: rest => '\n' :: unifyLineEnds rest
  | c :: rest => c :: unifyLineEnds rest

/-- The lines of a text whose line ends are unified. -/
def lines (cs : List Char) : List (List Char) := pieces (· == '\n') cs

end Flashcards.Text
