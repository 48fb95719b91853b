import Flashcards.Cloze.Display
import Flashcards.Filter.Kind
import Flashcards.Markup.Strip
import Flashcards.Ruby
import Flashcards.Widget

/-!
# Applying filters

What each filter does to a value. All but one always succeed and look at the value alone; the
cloze filter looks at the card's number and side, too, and refuses a deletion number that is too
long.
-/

namespace Flashcards.Filter

/-- A value after a filter, on the card of the given number. -/
def apply (filter : Filter) (ordinal : Int) (side : Side) (value : String) :
    Except Numeral.Fault String :=
  match filter with
  | .text => .ok (String.ofList (Markup.strip value.toList))
  | .hint => .ok (Widget.hint value)
  | .cloze => Cloze.display ordinal side value
  | .furigana => .ok (String.ofList (Ruby.furigana value.toList))
  | .typing => .ok (Widget.typing value)
  | .kanji => .ok (String.ofList (Ruby.kanji value.toList))
  | .kana => .ok (String.ofList (Ruby.kana value.toList))

end Flashcards.Filter
