import Flashcards.Config

/-!
# Styles

The style sheet of a card page: the default styles, those of the night mode and further ones, as
far as they are wanted, and the element around the content of a card.
-/

namespace Flashcards.Style

/-- A rule of a style sheet. -/
def rule (selectors : List String) (declarations : List String) : String :=
  ",\n".intercalate selectors ++ " \x7b\n"
    ++ String.join (declarations.map fun declaration => s!"  {declaration};\n") ++ "\x7d\n"

/-- Rules as a sheet, with a blank line between them. -/
def sheet (rules : List String) : String := "\n" ++ "\n".intercalate rules

/-- The default styles. -/
def defaultSheet : String := sheet [
  rule [".card"] ["font-family: arial", "font-size: 20px", "text-align: center", "color: black",
    "background-color: white"],
  rule [".cloze"] ["font-weight: bold", "color: blue"],
  rule [".hint"] ["background-color: #ffffcc", "padding: 2px 4px", "border-radius: 2px",
    "cursor: pointer"],
  rule ["img"] ["max-width: 100%", "height: auto"]]

/-- The styles of the night mode. -/
def nightSheet : String := sheet [
  rule [".card", ".card.nightMode"] ["color: white", "background-color: #2f2f31"],
  rule [".cloze"] ["color: #5cb3ff"],
  rule [".hint"] ["background-color: #444", "color: #ccc"],
  rule ["a"] ["color: #5cb3ff"]]

/-- The style sheet of a page. -/
def css (appearance : Appearance) : String :=
  "\n".intercalate (
    (if appearance.defaultStyles then [defaultSheet] else [])
      ++ (if appearance.nightMode then [nightSheet] else [])
      ++ (if appearance.css = "" then [] else [appearance.css]))

/-- The class of the element around a card. -/
def cardClass (nightMode : Bool) : String := if nightMode then "card nightMode" else "card"

/-- The content of a card in its element, behind the style sheet if there is one. -/
def wrap (content css : String) (nightMode : Bool) : String :=
  (if css = "" then "" else s!"<style>\n{css}\n</style>\n")
    ++ s!"<div class=\"{cardClass nightMode}\">\n{content}\n</div>"

end Flashcards.Style
