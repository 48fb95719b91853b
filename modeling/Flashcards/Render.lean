import Flashcards.Fields
import Flashcards.Filter.Apply
import Flashcards.Template.Nodes

/-!
# Rendering a tree

A tree is rendered over the fields of a note, for one side of the card of one number. Texts stand
for themselves, a field gives its value passed through its filters, and a section is shown or
skipped as a whole. What is still to be visited is kept in a list, so sections may nest to any
depth.
-/

namespace Flashcards

/-- What a template is rendered over. The number zero is that of a card without deletions. -/
structure Context where
  fields : Fields
  ordinal : Int
  side : Side

namespace Template

/-- A value after filters, the last one applied first. -/
def applyFilters (context : Context) (value : String) : List Filter → Except Numeral.Fault String
  | [] => .ok value
  | filter :: inner => do
    let value ← applyFilters context value inner
    filter.apply context.ordinal context.side value

/-- What a field shows. -/
def FieldRef.render (context : Context) (ref : FieldRef) : Except Numeral.Fault String :=
  applyFilters context (context.fields.value ref.name) ref.filters

/-- Whether a section is shown. -/
def showsSection (context : Context) (name : String) (negate : Bool) : Bool :=
  context.fields.isSet name != negate

/-- How many steps are left when these sequences are still to be visited. -/
def agendaSize : List Nodes → Nat
  | [] => 0
  | nodes :: later => nodes.size + agendaSize later

/-- Renders the sequences that are still to be visited, behind what was written so far. -/
def renderAgenda (context : Context) (agenda : List Nodes) (written : String) :
    Except Numeral.Fault String :=
  match agenda with
  | [] => .ok written
  | .nil :: later => renderAgenda context later written
  | .text literal rest :: later => renderAgenda context (rest :: later) (written ++ literal)
  | .field ref rest :: later => do
    let shown ← ref.render context
    renderAgenda context (rest :: later) (written ++ shown)
  | .block name negate body rest :: later =>
    if showsSection context name negate then
      renderAgenda context (body :: rest :: later) written
    else renderAgenda context (rest :: later) written
termination_by agendaSize agenda
decreasing_by
  all_goals simp only [agendaSize, Nodes.size]; omega

/-- Renders a tree. -/
def Nodes.render (context : Context) (nodes : Nodes) : Except Numeral.Fault String :=
  renderAgenda context [nodes] ""

end Template

end Flashcards
