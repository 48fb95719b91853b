/-!
# Text inside markup

Five characters would end an attribute value or open a tag. Each has an entity that stands for
it, so any text can be carried inside an attribute.
-/

namespace Flashcards.Markup

/-- The entity a character is written as, where it needs one. -/
def entity? : Char → Option String
  | '&' => some "&amp;"
  | '<' => some "&lt;"
  | '>' => some "&gt;"
  | '"' => some "&quot;"
  | '\'' => some "&#x27;"
  | _ => none

/-- A character as it is written inside markup. -/
def escapeChar (c : Char) : List Char :=
  match entity? c with
  | some entity => entity.toList
  | none => [c]

/-- A text as it is written inside markup. -/
def escape (s : String) : String := String.ofList (s.toList.flatMap escapeChar)

end Flashcards.Markup
