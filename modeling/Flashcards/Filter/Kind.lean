/-!
# Filters

A field may be passed through filters on its way into a card. The set is closed; each filter has
a keyword by which templates name it.
-/

namespace Flashcards

/-- What a field's value can be passed through. -/
inductive Filter
  | text
  | hint
  | cloze
  | furigana
  | typing
  | kanji
  | kana
  deriving DecidableEq, Repr

namespace Filter

/-- The word that names a filter in a template. -/
def keyword : Filter → String
  | .text => "text"
  | .hint => "hint"
  | .cloze => "cloze"
  | .furigana => "furigana"
  | .typing => "type"
  | .kanji => "kanji"
  | .kana => "kana"

/-- All filters. -/
def all : List Filter := [.text, .hint, .cloze, .furigana, .typing, .kanji, .kana]

/-- The filter that a keyword names. -/
def ofKeyword? (word : String) : Option Filter := all.find? fun filter => filter.keyword = word

theorem ofKeyword?_keyword (filter : Filter) : ofKeyword? filter.keyword = some filter := by
  cases filter <;> decide

theorem keyword_of_ofKeyword? {word : String} {filter : Filter}
    (h : ofKeyword? word = some filter) : filter.keyword = word := by
  simpa using List.find?_some h

end Filter

end Flashcards
