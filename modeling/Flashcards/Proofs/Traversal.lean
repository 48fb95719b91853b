import Flashcards.Proofs.Overlong
import Flashcards.Proofs.Policies
import Flashcards.Proofs.Walk

/-!
# Document order

A tree is rendered by a walk that keeps the sequences still to be visited in a list, so that sections
may nest to any depth. The same walk can note what it meets (`walk`): which fields a tree shows, or
which sections it has. Neither needs the list to be told what it gives. A rendering is put together
along the tree (`Nodes.render_eq_concat`), and what is noted are the marks of the tree, without the
closing ones (`walk_eq`).

For a tree that was read, the marks are what the tokens of the template stand for, one each, in order
(`marks_of_parse`). So the order of the walk is the order of the tags (`walk_of_parse`), and as many
of these close a section as open one.
-/

namespace Flashcards.Template

open Text

/-! ## Renderings along the tree -/

/-- The value of a field, passed through its filters one by one, the last one first. -/
def FieldRef.passed (context : Context) (ref : FieldRef) : Except Numeral.Fault String :=
  ref.filters.reverse.foldlM
    (fun value filter => filter.apply context.ordinal context.side value)
    (context.fields.value ref.name)

/-- What the nodes of a sequence show, one behind the other. -/
def Nodes.concat (context : Context) : Nodes → Except Numeral.Fault String
  | .nil => .ok ""
  | .text literal rest => joined (.ok literal) (rest.concat context)
  | .field ref rest => joined (ref.passed context) (rest.concat context)
  | .block name negate body rest =>
    joined (if (context.fields.value name != "") != negate then body.concat context else .ok "")
      (rest.concat context)

theorem FieldRef.render_eq_passed (context : Context) (ref : FieldRef) :
    ref.render context = ref.passed context := by
  rw [render, passed, List.foldlM_reverse]
  induction ref.filters with
  | nil => rfl
  | cons filter inner ih => rw [applyFilters_cons, List.foldrM_cons, ih]

/-- **The walk writes what the tree shows.** -/
theorem Nodes.render_eq_concat (context : Context) (nodes : Nodes) :
    nodes.render context = nodes.concat context := by
  induction nodes with
  | nil => exact render_nil context
  | text literal rest ih => rw [render_text, concat, ih]
  | field ref rest ih => rw [render_field, concat, ih, ref.render_eq_passed]
  | block name negate body rest ihb ihr => rw [render_block, concat, ihb, ihr]; rfl

/-! ## Walks that take notes -/

/-- What is noted on a walk through the sequences that are still to be visited. The walk goes into
every section, and meets no closing mark. -/
def walk {α : Type} (note : Mark → Option α) (agenda : List Nodes) : List α :=
  match agenda with
  | [] => []
  | .nil :: later => walk note later
  | .text literal rest :: later => (note (.text literal)).toList ++ walk note (rest :: later)
  | .field ref rest :: later => (note (.field ref)).toList ++ walk note (rest :: later)
  | .block name negate body rest :: later =>
    (note (.opening name negate)).toList ++ walk note (body :: rest :: later)
termination_by agendaSize agenda
decreasing_by
  all_goals simp only [agendaSize, Nodes.size]; omega

/-- The field that a mark shows. -/
def Mark.field? : Mark → Option FieldRef
  | .field ref => some ref
  | _ => none

/-- The name of the section that a mark opens. -/
def Mark.openedName? : Mark → Option String
  | .opening name _ => some name
  | _ => none

/-- Whether a mark closes a section. -/
def Mark.isClosing : Mark → Bool
  | .closing _ => true
  | _ => false

section

variable {α : Type} {note : Mark → Option α}

/-- **What a walk notes is what there is to note of the marks, sequence by sequence.** -/
theorem walk_eq (hclosing : ∀ name, note (.closing name) = none) (agenda : List Nodes) :
    walk note agenda = agenda.flatMap fun nodes => nodes.marks.filterMap note := by
  simp only [List.filterMap_eq_flatMap_toList]
  fun_induction walk note agenda with
  | case1 => rfl
  | case2 later ih => rw [ih]; rfl
  | case3 literal rest later ih =>
      rw [ih, List.flatMap_cons, List.flatMap_cons, Nodes.marks_text, List.flatMap_cons,
        List.append_assoc]
  | case4 ref rest later ih =>
      rw [ih, List.flatMap_cons, List.flatMap_cons, Nodes.marks_field, List.flatMap_cons,
        List.append_assoc]
  | case5 name negate body rest later ih =>
      -- the body and what is behind it are two sequences now, and the mark between them is not noted
      rw [ih, List.flatMap_cons, List.flatMap_cons, List.flatMap_cons, Nodes.marks_block,
        List.flatMap_cons, List.flatMap_append, List.flatMap_cons, hclosing, Option.toList_none,
        List.nil_append, List.append_assoc, List.append_assoc]

theorem walk_singleton (hclosing : ∀ name, note (.closing name) = none) (nodes : Nodes) :
    walk note [nodes] = nodes.marks.filterMap note := by
  rw [walk_eq hclosing, List.flatMap_singleton]

end

theorem walk_field? (nodes : Nodes) : walk Mark.field? [nodes] = nodes.fieldRefs :=
  walk_singleton (fun _ => rfl) nodes

theorem walk_openedName? (nodes : Nodes) : walk Mark.openedName? [nodes] = nodes.sectionNames :=
  walk_singleton (fun _ => rfl) nodes

/-- Every section has one mark that closes it. -/
theorem Nodes.countP_isClosing (nodes : Nodes) :
    nodes.marks.countP Mark.isClosing = nodes.sectionNames.length := by
  induction nodes with
  | nil => rfl
  | text literal rest ih => exact ih
  | field ref rest ih => exact ih
  | block name negate body rest ihb ihr =>
      rw [marks_block, sectionNames_block, List.countP_cons, List.countP_append, List.countP_cons,
        ihb, ihr, List.length_cons, List.length_append]
      simp [Mark.isClosing]
      omega

/-! ## The tags of a template -/

/-- The name of the field that a tag shows: what stands behind its last colon, if no sigil stands at
its front. -/
def Token.fieldName? : Token → Option String
  | .text _ _ => none
  | .tag body _ =>
    if (trim body).head?.any isSigil then none
    else some (nameOf ((pieces (· == ':') (trim body)).getLastD []))

/-- The name of the section that a tag opens. -/
def Token.openedName? : Token → Option String
  | .text _ _ => none
  | .tag body _ =>
    match trim body with
    | '#' :: name => some (nameOf name)
    | '^' :: name => some (nameOf name)
    | _ => none

/-- Whether a tag closes a section. -/
def Token.isClosing : Token → Bool
  | .text _ _ => false
  | .tag body _ => (trim body).head? = some '/'

theorem openedName?_of_not_sigil {body : List Char} (h : (trim body).head?.any isSigil = false)
    (position : Nat) : (Token.tag body position).openedName? = none := by
  rw [Token.openedName?]
  split
  · rename_i htrim; rw [htrim] at h; cases h
  · rename_i htrim; rw [htrim] at h; cases h
  · rfl

theorem isClosing_of_not_sigil {body : List Char} (h : (trim body).head?.any isSigil = false)
    (position : Nat) : (Token.tag body position).isClosing = false := by
  rw [Token.isClosing, decide_eq_false_iff_not]
  intro hhead
  rw [hhead] at h
  cases h

/-- **What a token stands for shows in its text.** -/
theorem Token.views_meaning (token : Token) :
    token.meaning.field?.map FieldRef.name = token.fieldName? ∧
      token.meaning.openedName? = token.openedName? ∧
      token.meaning.isClosing = token.isClosing := by
  cases token with
  | text literal position => exact ⟨rfl, rfl, rfl⟩
  | tag body position =>
      rw [fieldName?]
      rcases readTag_cases (mark_lenient (.tag body position)) with
        ⟨name, htrim, hmark⟩ | ⟨name, htrim, hmark⟩ | ⟨name, htrim, hmark⟩ |
          ⟨hsigil, ref, href, hmark⟩
      · rw [hmark, openedName?, isClosing, htrim]
        exact ⟨rfl, rfl, rfl⟩
      · rw [hmark, openedName?, isClosing, htrim]
        exact ⟨rfl, rfl, rfl⟩
      · rw [hmark, openedName?, isClosing, htrim]
        exact ⟨rfl, rfl, rfl⟩
      · have hname : ref.name = nameOf ((pieces (· == ':') (trim body)).getLastD []) := by
          rw [(readField_ok href).2, List.getLastD_eq_getLast?,
            List.getLast?_eq_some_getLast (pieces_ne_nil _ _), Option.getD_some]
        rw [hmark, openedName?_of_not_sigil hsigil, isClosing_of_not_sigil hsigil, hsigil,
          if_neg Bool.false_ne_true, ← hname]
        exact ⟨rfl, rfl, rfl⟩

/-! ## The order of the tags -/

section

variable {policy : Policy} {template : String} {nodes : Nodes}

theorem mark_eq_meaning {token : Token} {mark : Mark} (h : token.mark policy = .ok mark) :
    token.meaning = mark := by
  cases policy with
  | lenient => exact Except.ok.inj ((mark_lenient token).symm.trans h)
  | strict =>
      rw [mark_strict] at h
      split at h
      · cases h
      · exact Except.ok.inj h

/-- **The marks of a tree that was read are what the tokens of its template stand for.** -/
theorem marks_of_parse (h : parse policy template = .ok nodes) :
    nodes.marks = marksOf template := by
  have hmeant : List.Forall₂ (fun token mark => token.meaning = mark) (scan template).tokens
      nodes.marks := (parse_eq_ok_iff.mp h).2.imp fun _ _ => mark_eq_meaning
  have hmap := List.forall₂_map_left_iff.mpr hmeant
  rw [List.forall₂_eq_eq_eq] at hmap
  exact hmap.symm

/-- **A walk over a tree that was read takes its notes in the order of the tokens.** -/
theorem walk_of_parse {α : Type} {note : Mark → Option α} (h : parse policy template = .ok nodes)
    (hclosing : ∀ name, note (.closing name) = none) :
    walk note [nodes] = (scan template).tokens.filterMap fun token => note token.meaning := by
  rw [walk_singleton hclosing, marks_of_parse h, marksOf, List.filterMap_map]
  rfl

theorem fieldNames_of_parse (h : parse policy template = .ok nodes) :
    (walk Mark.field? [nodes]).map FieldRef.name
      = (scan template).tokens.filterMap Token.fieldName? := by
  rw [walk_of_parse h fun _ => rfl, List.map_filterMap]
  exact List.filterMap_congr fun token _ => token.views_meaning.1

theorem sectionNames_of_parse (h : parse policy template = .ok nodes) :
    walk Mark.openedName? [nodes] = (scan template).tokens.filterMap Token.openedName? := by
  rw [walk_of_parse h fun _ => rfl]
  exact List.filterMap_congr fun token _ => token.views_meaning.2.1

theorem countP_isClosing_of_parse (h : parse policy template = .ok nodes) :
    (scan template).tokens.countP Token.isClosing = nodes.sectionNames.length := by
  rw [← nodes.countP_isClosing, marks_of_parse h, marksOf, List.countP_map]
  exact List.countP_congr fun token _ => by rw [Function.comp_apply, token.views_meaning.2.2]

end

/--
**A walk over a tree does what is said along the tree, in the order of the document.**

In every context a tree has the rendering that is put together along it: texts as they are, the
values of fields passed through their filters from the last to the first, and the bodies of those
sections whose field is set, or is not where they are negated. There is one unless a field that is
shown meets a number that is too long. The walks that take notes give the fields of the tree and the
names of its sections. If the tree was read from a template, these are the names in the field tags
and those in the opening tags, in the order of the tokens, and there are as many closing tags as
opening ones.
-/
theorem walks_follow_document (context : Context) (nodes : Nodes) :
    (nodes.render context = nodes.concat context ∧
      ((∃ text, nodes.render context = .ok text) ↔ ¬ nodes.Overlong context)) ∧
    (walk Mark.field? [nodes] = nodes.fieldRefs ∧
      walk Mark.openedName? [nodes] = nodes.sectionNames) ∧
    ∀ policy template, parse policy template = .ok nodes →
      (walk Mark.field? [nodes]).map FieldRef.name
        = (scan template).tokens.filterMap Token.fieldName? ∧
      walk Mark.openedName? [nodes] = (scan template).tokens.filterMap Token.openedName? ∧
      (scan template).tokens.countP Token.isClosing
        = ((scan template).tokens.filterMap Token.openedName?).length := by
  refine ⟨⟨nodes.render_eq_concat context, Nodes.render_ok_iff⟩,
    ⟨walk_field? nodes, walk_openedName? nodes⟩, fun policy template h => ?_⟩
  refine ⟨fieldNames_of_parse h, sectionNames_of_parse h, ?_⟩
  rw [countP_isClosing_of_parse h, ← sectionNames_of_parse h, walk_openedName?]

/-- Two sections, one inside the other, and a field in each of them and behind them. -/
def traversalSample : Nodes :=
  .block "A" false (.field ⟨"F", [.text, .hint]⟩ (.block "B" true (.field ⟨"G", []⟩ .nil) .nil))
    (.text ", " (.field ⟨"F", []⟩ .nil))

theorem walks_follow_document_sample :
    let template := shownTag "#A" ++ shownTag "text:hint:F" ++ shownTag "^B" ++ shownTag "G"
      ++ shownTag "/B" ++ shownTag "/A" ++ ", " ++ shownTag "F"
    parse .strict template = .ok traversalSample ∧
      (scan template).tokens.filterMap Token.fieldName? = ["F", "G", "F"] ∧
      (scan template).tokens.filterMap Token.openedName? = ["A", "B"] ∧
      (scan template).tokens.countP Token.isClosing = 2 := by
  intro template
  have hparse : parse .strict template = .ok traversalSample := by decide +kernel
  obtain ⟨-, ⟨hfields, hsections⟩, hread⟩ :=
    walks_follow_document ⟨[], 0, .question⟩ traversalSample
  obtain ⟨hnames, hopened, hclosed⟩ := hread .strict template hparse
  rw [hfields] at hnames
  rw [hsections] at hopened
  rw [← hopened] at hclosed
  exact ⟨hparse, hnames.symm.trans (by decide), hopened.symm.trans (by decide),
    hclosed.trans (by decide)⟩

end Flashcards.Template
