import Flashcards.Cloze.Deletion
import Flashcards.Side

/-!
# Showing deletions

On a card the deletions of one number are marked: on the question side each shows its hint, or
dots, in place of the answer. All other deletions of the value show their answers as plain text.
A number that no deletion has, zero among them, marks nothing.
-/

namespace Flashcards.Cloze

/-- What a marked deletion shows. -/
def Deletion.shown (side : Side) (deletion : Deletion) : List Char :=
  match side, deletion.hint with
  | .answer, _ => deletion.answer
  | .question, some hint => '[' :: hint ++ [']']
  | .question, none => "[...]".toList

/-- The marking around a deletion. -/
def marked (content : List Char) : List Char :=
  "<span class=\"cloze\">".toList ++ content ++ "</span>".toList

/-- What a part of a value shows on the card of the given number. -/
def Part.display (target : Int) (side : Side) : Part → Except Numeral.Fault (List Char)
  | .plain c => .ok [c]
  | .deletion gap => do
    let ordinal ← gap.ordinal
    .ok (if (ordinal : Int) = target then marked (gap.shown side) else gap.answer)

/-- What parts of a value show, one after the other. -/
def displayParts (target : Int) (side : Side) : List Part → Except Numeral.Fault (List Char)
  | [] => .ok []
  | part :: rest => do
    let first ← part.display target side
    let more ← displayParts target side rest
    .ok (first ++ more)

/-- What a value shows on the card of the given number. -/
def display (target : Int) (side : Side) (value : String) : Except Numeral.Fault String :=
  (displayParts target side (parts value.toList)).map String.ofList

end Flashcards.Cloze
