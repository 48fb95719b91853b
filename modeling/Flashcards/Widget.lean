import Flashcards.Identity
import Flashcards.Markup.Escape

/-!
# Parts of a card that react

A hint is a link that shows its text when it is followed; link and text find each other by an id
cut from the text, so equal hints share it. A typed answer is an input that carries the expected
answer as an attribute.
-/

namespace Flashcards.Widget

/-- The id of a hint. -/
def hintId (content : String) : String :=
  "hint" ++ String.ofList ((Identity.hexText (Sha1.digestText content)).toList.take 12)

/-- What following a hint does. -/
def hintAction (id : String) : String :=
  "this.style.display='none';" ++ s!"var h=document.getElementById('{id}');"
    ++ "h.style.display='block';" ++ "h.className='hint hint-shown';" ++ "return false;"

/-- A hint. A field that is empty makes none. -/
def hint (value : String) : String :=
  if value = "" then ""
  else
    let id := hintId value
    s!"<a class=\"hint\" href=\"#\" onclick=\"{hintAction id}\">Show Hint</a>"
      ++ s!"<div id=\"{id}\" class=\"hint hint-hidden\" style=\"display:none\">{value}</div>"

/-- An input for the expected answer. -/
def typing (value : String) : String :=
  "<input type=\"text\" id=\"typeans\" class=\"type-answer\" data-expected=\""
    ++ Markup.escape value ++ "\"/>"

end Flashcards.Widget
