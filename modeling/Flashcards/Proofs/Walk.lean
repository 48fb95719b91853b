import Flashcards.Proofs.Drafts
import Flashcards.Render

/-!
# Rendering part by part

A tree is rendered by a walk that keeps what is still to be visited in a list and what was written
so far in an accumulator. Neither shows in the outcome: what was written before stays in front
(`renderAgenda_written`), and the sequences in the list are rendered one after the other
(`renderAgenda_append`). From these two come the laws by which a rendering follows the tree, one for
each kind of node, and the one for two sequences put together (`Nodes.render_append`).
-/

namespace Flashcards.Template

/-- What two parts show, one behind the other. The first that fails is the one that is heard of. -/
def joined (front rest : Except Numeral.Fault String) : Except Numeral.Fault String := do
  let shown ← front
  let more ← rest
  .ok (shown ++ more)

theorem joined_ok_empty (rest : Except Numeral.Fault String) : joined (.ok "") rest = rest := by
  cases rest with
  | error fault => rfl
  | ok more => exact congrArg Except.ok String.empty_append

theorem joined_empty_ok (front : Except Numeral.Fault String) : joined front (.ok "") = front := by
  cases front with
  | error fault => rfl
  | ok shown => exact congrArg Except.ok String.append_empty

theorem joined_assoc (front middle rest : Except Numeral.Fault String) :
    joined (joined front middle) rest = joined front (joined middle rest) := by
  cases front with
  | error fault => rfl
  | ok shown =>
      cases middle with
      | error fault => rfl
      | ok more =>
          cases rest with
          | error fault => rfl
          | ok last => exact congrArg Except.ok String.append_assoc

theorem joined_ok_ok (shown more : String) :
    joined (.ok shown) (.ok more) = .ok (shown ++ more) := rfl

/-! ## The walk -/

section

variable (context : Context)

/-- What was written before stays in front of all that comes. -/
theorem renderAgenda_written (agenda : List Nodes) (before written : String) :
    renderAgenda context agenda (before ++ written)
      = joined (.ok before) (renderAgenda context agenda written) := by
  fun_induction renderAgenda context agenda written with
  | case1 written => rw [renderAgenda]; rfl
  | case2 written later ih => rw [renderAgenda, ih]
  | case3 written literal rest later ih => rw [renderAgenda, String.append_assoc, ih]
  | case4 written ref rest later ih =>
      rw [renderAgenda]
      cases ref.render context with
      | error fault => rfl
      | ok shown =>
          show renderAgenda context (rest :: later) (before ++ written ++ shown) = _
          rw [String.append_assoc, ih shown]
          rfl
  | case5 written name negate body rest later hshown ih => rw [renderAgenda, if_pos hshown, ih]
  | case6 written name negate body rest later hskipped ih => rw [renderAgenda, if_neg hskipped, ih]

/-- The sequences still to be visited are rendered one after the other. -/
theorem renderAgenda_append (front rest : List Nodes) (written : String) :
    renderAgenda context (front ++ rest) written
      = renderAgenda context front written >>= renderAgenda context rest := by
  fun_induction renderAgenda context front written with
  | case1 written => rfl
  | case2 written later ih => rw [List.cons_append, renderAgenda, ih]
  | case3 written literal rest later ih => rw [List.cons_append, renderAgenda, ← ih]; rfl
  | case4 written ref rest later ih =>
      rw [List.cons_append, renderAgenda, bind_assoc]
      exact congrArg (ref.render context >>= ·) (funext fun shown => ih shown)
  | case5 written name negate body rest later hshown ih =>
      rw [List.cons_append, renderAgenda, if_pos hshown, ← ih]; rfl
  | case6 written name negate body rest later hskipped ih =>
      rw [List.cons_append, renderAgenda, if_neg hskipped, ← ih]; rfl

/-- What is left of a walk is rendered as a sequence of its own. -/
theorem renderAgenda_cons (nodes : Nodes) (later : List Nodes) (written : String) :
    renderAgenda context (nodes :: later) written
      = joined (joined (.ok written) (nodes.render context)) (renderAgenda context later "") := by
  have hfront : renderAgenda context [nodes] written
      = joined (.ok written) (nodes.render context) := by
    rw [Nodes.render, ← renderAgenda_written, String.append_empty]
  rw [← List.singleton_append, renderAgenda_append, hfront]
  cases joined (.ok written) (nodes.render context) with
  | error fault => rfl
  | ok shown =>
      show renderAgenda context later shown = _
      rw [← renderAgenda_written, String.append_empty]

/-! ## Each kind of node -/

namespace Nodes

theorem render_nil : Nodes.nil.render context = .ok "" := by
  rw [render, renderAgenda, renderAgenda]

theorem render_text (literal : String) (rest : Nodes) :
    (Nodes.text literal rest).render context = joined (.ok literal) (rest.render context) := by
  rw [render, renderAgenda, renderAgenda_cons, String.empty_append, renderAgenda, joined_empty_ok]

theorem render_field (ref : FieldRef) (rest : Nodes) :
    (Nodes.field ref rest).render context
      = joined (ref.render context) (rest.render context) := by
  rw [render, renderAgenda]
  cases ref.render context with
  | error fault => rfl
  | ok shown =>
      show renderAgenda context [rest] ("" ++ shown) = _
      rw [renderAgenda_cons, String.empty_append, renderAgenda, joined_empty_ok]

theorem render_block (name : String) (negate : Bool) (body rest : Nodes) :
    (Nodes.block name negate body rest).render context
      = joined (if showsSection context name negate then body.render context else .ok "")
          (rest.render context) := by
  rw [render, renderAgenda]
  split
  · rw [renderAgenda_cons, joined_ok_empty]
    rfl
  · rw [joined_ok_empty]
    rfl

/-- **Two sequences, one behind the other, show what the first shows and then what the second
shows.** -/
theorem render_append (front rest : Nodes) :
    (front.append rest).render context = joined (front.render context) (rest.render context) := by
  induction front with
  | nil => rw [append, render_nil, joined_ok_empty]
  | text literal front ih => rw [append, render_text, render_text, ih, joined_assoc]
  | field ref front ih => rw [append, render_field, render_field, ih, joined_assoc]
  | block name negate body front _ ih =>
      rw [append, render_block, render_block, ih, joined_assoc]

end Nodes

end

end Flashcards.Template
