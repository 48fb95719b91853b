import Flashcards.Markup.Escape
import Flashcards.Style

/-!
# Preview pages

A preview page shows cards one below the other, each with its question and its answer side by
side. The cards come from a result file and are taken as they are: what a card lacks is left out,
and values that are not texts are written as literals.
-/

namespace Flashcards.Preview

open Json

/-- The styles of the page around the cards. -/
def pageSheet : String := "\n" ++ String.join ([
    ("body", "margin: 0; padding: 24px; background: #eceff1; font-family: sans-serif;"),
    ("h1", "font-size: 20px; margin: 0 0 16px;"),
    (".preview-card",
      "display: grid; grid-template-columns: 1fr 1fr; gap: 12px; margin-bottom: 24px;"),
    (".preview-meta", "grid-column: 1 / span 2; font-size: 12px; color: #607d8b;"),
    (".preview-side",
      "border-radius: 6px; box-shadow: 0 1px 3px rgba(0,0,0,.2); overflow: auto;"),
    (".preview-side > .label",
      "font-size: 11px; text-transform: uppercase; color: #90a4ae; padding: 4px 8px;"),
    (".preview-side > .card", "padding: 16px; min-height: 60px;")].map
  fun (selector, declarations) => selector ++ " \x7b " ++ declarations ++ " \x7d\n")

/-- A page before its cards are known. -/
structure Page where
  title : String
  noteCss : String
  appearance : Appearance
  deriving DecidableEq, Repr

/-- The tags of a card in one text. -/
def tagsText (card : Settings) : Except ShapeFault String :=
  let tags := Value.memberOr card "tags" .null
  if tags.isGiven then tags.joined " " else .ok ""

/-- What is said about a card above its sides. -/
def metaText (card : Settings) : Except ShapeFault String := do
  let index := Value.memberOr card "note_index" .null
  let template := Value.memberOr card "template" .null
  let ordinal := Value.memberOr card "ordinal" .null
  let tags ← tagsText card
  let parts := [
    "note " ++ index.text,
    if template.isGiven then template.text else "",
    if ordinal.isGiven then "c" ++ ordinal.text else "",
    tags]
  .ok (" · ".intercalate (parts.filter (· ≠ "")))

/-- One side of a card. -/
def sideBlock (label content : String) (nightMode : Bool) : String :=
  s!"<div class=\"preview-side\"><div class=\"label\">{label}</div>"
    ++ s!"<div class=\"{Style.cardClass nightMode}\">{content}</div></div>\n"

/-- A card. -/
def cardBlock (nightMode : Bool) (card : Settings) : Except ShapeFault String := do
  let about ← metaText card
  let content := fun key => (Value.memberOr card key (.str "")).text
  .ok ("<section class=\"preview-card\">\n"
    ++ s!"<div class=\"preview-meta\">{Markup.escape about}</div>\n"
    ++ sideBlock "Question" (content "question") nightMode
    ++ sideBlock "Answer" (content "answer") nightMode
    ++ "</section>")

/-- Cards, one below the other. -/
def cardBlocks (nightMode : Bool) : List Value → Except ShapeFault (List String)
  | [] => .ok []
  | .obj card :: rest => do
    let block ← cardBlock nightMode card
    let more ← cardBlocks nightMode rest
    .ok (block :: more)
  | other :: _ => .error (.noMember other.kind "get")

/-- The style sheet for the cards of a page. -/
def Page.css (page : Page) : String :=
  let sheets := [page.noteCss, page.appearance.css].filter (· ≠ "")
  Style.css { page.appearance with css := "\n".intercalate sheets }

/-- A page with its cards. -/
def Page.render (page : Page) (cards : List Value) : Except ShapeFault String := do
  let blocks ← cardBlocks page.appearance.nightMode cards
  let title := Markup.escape page.title
  .ok ("\n".intercalate [
    "<!DOCTYPE html>",
    "<html>",
    "<head>",
    "<meta charset=\"UTF-8\">",
    "<meta name=\"viewport\" content=\"width=device-width, initial-scale=1.0\">",
    s!"<title>{title}</title>",
    "<style>",
    pageSheet,
    page.css,
    "</style>",
    "</head>",
    "<body>",
    s!"<h1>{title}</h1>",
    "\n".intercalate blocks,
    "</body>",
    "</html>",
    ""])

end Flashcards.Preview
