import Flashcards.Template.Parser
import Mathlib.Data.List.Forall2

/-!
# What a draft has read

A template is read mark by mark into a draft, and a draft keeps its nodes last one first, with the
open sections on a stack. Two facts tie it to the marks it was made from, one for each direction:

* `marks_of_addMarks`: the marks of a draft, written from its outermost section inwards, are the
  marks it has read, in order. Nothing is lost and nothing is moved.
* `addMarks_marksOnto`: reading the marks of a tree adds that tree to the innermost section, and
  leaves the open sections alone.

Together they give `parse_eq_ok_iff`: a template is read as a tree exactly when its tokens stand
for the marks of that tree, and no tag is left open. Everything proved about the trees that
parsing yields starts from it.
-/

namespace Flashcards.Template

/-! ## Sequences of nodes, one behind the other -/

namespace Nodes

/-- The nodes of the first sequence, then those of the second. -/
def append : Nodes → Nodes → Nodes
  | .nil, tail => tail
  | .text literal rest, tail => .text literal (rest.append tail)
  | .field ref rest, tail => .field ref (rest.append tail)
  | .block name negate body rest, tail => .block name negate body (rest.append tail)

theorem append_nil (nodes : Nodes) : nodes.append .nil = nodes := by
  induction nodes with
  | nil => rfl
  | text literal rest ih => rw [append, ih]
  | field ref rest ih => rw [append, ih]
  | block name negate body rest _ ih => rw [append, ih]

theorem append_assoc (a b c : Nodes) : (a.append b).append c = a.append (b.append c) := by
  induction a with
  | nil => rfl
  | text literal rest ih => rw [append, append, append, ih]
  | field ref rest ih => rw [append, append, append, ih]
  | block name negate body rest _ ih => rw [append, append, append, ih]

theorem reverseOnto_eq (nodes tail : Nodes) :
    nodes.reverseOnto tail = nodes.reverse.append tail := by
  unfold reverse
  -- the statement is used twice in each step: for the tail at hand and for a tail of one node
  induction nodes generalizing tail with
  | nil => rfl
  | text literal rest ih =>
      rw [reverseOnto, reverseOnto, ih, ih (.text literal .nil), append_assoc]; rfl
  | field ref rest ih => rw [reverseOnto, reverseOnto, ih, ih (.field ref .nil), append_assoc]; rfl
  | block name negate body rest _ ih =>
      rw [reverseOnto, reverseOnto, ih, ih (.block name negate body .nil), append_assoc]; rfl

theorem reverse_nil : Nodes.nil.reverse = .nil := rfl

theorem reverse_text (literal : String) (rest : Nodes) :
    (Nodes.text literal rest).reverse = rest.reverse.append (.text literal .nil) :=
  reverseOnto_eq rest _

theorem reverse_field (ref : FieldRef) (rest : Nodes) :
    (Nodes.field ref rest).reverse = rest.reverse.append (.field ref .nil) :=
  reverseOnto_eq rest _

theorem reverse_block (name : String) (negate : Bool) (body rest : Nodes) :
    (Nodes.block name negate body rest).reverse
      = rest.reverse.append (.block name negate body .nil) :=
  reverseOnto_eq rest _

theorem reverse_append (a b : Nodes) : (a.append b).reverse = b.reverse.append a.reverse := by
  induction a with
  | nil => exact (append_nil _).symm
  | text literal rest ih => rw [append, reverse_text, reverse_text, ih, append_assoc]
  | field ref rest ih => rw [append, reverse_field, reverse_field, ih, append_assoc]
  | block name negate body rest _ ih =>
      rw [append, reverse_block, reverse_block, ih, append_assoc]

theorem reverse_reverse (nodes : Nodes) : nodes.reverse.reverse = nodes := by
  induction nodes with
  | nil => rfl
  | text literal rest ih => rw [reverse_text, reverse_append, ih]; rfl
  | field ref rest ih => rw [reverse_field, reverse_append, ih]; rfl
  | block name negate body rest _ ih => rw [reverse_block, reverse_append, ih]; rfl

/-! ## Marks -/

theorem marks_nil : Nodes.nil.marks = [] := rfl

theorem marks_text (literal : String) (rest : Nodes) :
    (Nodes.text literal rest).marks = .text literal :: rest.marks := rfl

theorem marks_field (ref : FieldRef) (rest : Nodes) :
    (Nodes.field ref rest).marks = .field ref :: rest.marks := rfl

theorem marks_block (name : String) (negate : Bool) (body rest : Nodes) :
    (Nodes.block name negate body rest).marks
      = .opening name negate :: (body.marks ++ .closing name :: rest.marks) :=
  congrArg (Mark.opening name negate :: ·) (marksOnto_eq body _)

theorem marks_append (a b : Nodes) : (a.append b).marks = a.marks ++ b.marks := by
  induction a with
  | nil => rfl
  | text literal rest ih => rw [append, marks_text, marks_text, ih]; rfl
  | field ref rest ih => rw [append, marks_field, marks_field, ih]; rfl
  | block name negate body rest _ ih => rw [append, marks_block, marks_block, ih]; simp

end Nodes

/-! ## The marks a draft has read -/

/-- The marks up to and with the one that opened a section. -/
def OpenSection.marks (opened : OpenSection) : List Mark :=
  opened.before.reverse.marks ++ [.opening opened.name opened.negate]

namespace Draft

/-- The marks a draft has read: those up to each open section, from the outermost inwards, and
then those of the innermost one. -/
def marks (draft : Draft) : List Mark :=
  draft.opened.reverse.flatMap OpenSection.marks ++ draft.body.reverse.marks

/-- Adds marks, in order. -/
def addMarks (draft : Draft) (marks : List Mark) : Except Error Draft := marks.foldlM add draft

theorem addMarks_cons (draft : Draft) (mark : Mark) (rest : List Mark) :
    draft.addMarks (mark :: rest) = draft.add mark >>= fun next => next.addMarks rest :=
  List.foldlM_cons

theorem addMarks_append (draft : Draft) (front rest : List Mark) :
    draft.addMarks (front ++ rest) = draft.addMarks front >>= fun next => next.addMarks rest :=
  List.foldlM_append

theorem add_closing_ok {draft next : Draft} {name : String}
    (h : draft.add (.closing name) = .ok next) :
    ∃ inner outer, draft.opened = inner :: outer ∧ inner.name = name
      ∧ next = ⟨.block inner.name inner.negate draft.body.reverse inner.before, outer⟩ := by
  cases hopened : draft.opened with
  | nil => simp [add, hopened] at h
  | cons inner outer =>
      simp only [add, hopened] at h
      split at h
      · rename_i hname
        exact ⟨inner, outer, rfl, hname, (Except.ok.inj h).symm⟩
      · cases h

/-- **A draft that takes one more mark has read one more mark.** -/
theorem marks_of_add {draft next : Draft} {mark : Mark} (h : draft.add mark = .ok next) :
    next.marks = draft.marks ++ [mark] := by
  cases mark with
  | text literal =>
      cases h
      simp [marks, Nodes.reverse_text, Nodes.marks_append, Nodes.marks_text, Nodes.marks_nil]
  | field ref =>
      cases h
      simp [marks, Nodes.reverse_field, Nodes.marks_append, Nodes.marks_field, Nodes.marks_nil]
  | opening name negate =>
      cases h
      simp [marks, OpenSection.marks, Nodes.reverse_nil, Nodes.marks_nil]
  | closing name =>
      obtain ⟨inner, outer, hopened, hname, hnext⟩ := add_closing_ok h
      subst hnext hname
      simp [marks, hopened, OpenSection.marks, Nodes.reverse_block, Nodes.marks_append,
        Nodes.marks_block, Nodes.marks_nil]

theorem marks_of_addMarks {draft next : Draft} {marks : List Mark}
    (h : draft.addMarks marks = .ok next) : next.marks = draft.marks ++ marks := by
  -- every mark makes another draft, so the induction is on the marks, for any draft
  induction marks generalizing draft with
  | nil =>
      cases h
      exact (List.append_nil _).symm
  | cons mark rest ih =>
      rw [addMarks_cons] at h
      cases hadd : draft.add mark with
      | error error => rw [hadd] at h; cases h
      | ok middle =>
          rw [hadd] at h
          rw [ih h, marks_of_add hadd, List.append_assoc, List.singleton_append]

/-- **Reading the marks of a tree adds the tree.** -/
theorem addMarks_marksOnto (draft : Draft) (nodes : Nodes) (more : List Mark) :
    draft.addMarks (nodes.marksOnto more)
      = Draft.addMarks { draft with body := nodes.reverseOnto draft.body } more := by
  induction nodes generalizing draft more with
  | nil => rfl
  | text literal rest ih => exact ih ⟨.text literal draft.body, draft.opened⟩ more
  | field ref rest ih => exact ih ⟨.field ref draft.body, draft.opened⟩ more
  | block name negate body rest ihb ihr =>
      -- the draft in which the body is read, and the one behind the closed section
      let inside : Draft := ⟨.nil, ⟨name, negate, draft.body⟩ :: draft.opened⟩
      let after : Draft := ⟨.block name negate body draft.body, draft.opened⟩
      have hclose : Draft.add { inside with body := body.reverse } (.closing name) = .ok after := by
        simp [add, inside, after, Nodes.reverse_reverse]
      calc draft.addMarks ((Nodes.block name negate body rest).marksOnto more)
        _ = inside.addMarks (body.marksOnto (.closing name :: rest.marksOnto more)) := rfl
        _ = Draft.addMarks { inside with body := body.reverse }
              (.closing name :: rest.marksOnto more) := ihb inside _
        _ = after.addMarks (rest.marksOnto more) := by rw [addMarks_cons, hclose]; rfl
        _ = Draft.addMarks { after with body := rest.reverseOnto after.body } more := ihr after more

theorem addMarks_marks (draft : Draft) (nodes : Nodes) :
    draft.addMarks nodes.marks = .ok { draft with body := nodes.reverseOnto draft.body } :=
  addMarks_marksOnto draft nodes []

end Draft

/-! ## From tokens to trees -/

/-- The tokens stand for the marks, one each, in order. -/
def Reads (policy : Policy) (tokens : List Token) (marks : List Mark) : Prop :=
  List.Forall₂ (fun token mark => token.mark policy = .ok mark) tokens marks

/-- Once every token has its mark, what is left is to add the marks. -/
theorem addTokens_of_reads {policy : Policy} {tokens : List Token} {marks : List Mark}
    (h : Reads policy tokens marks) (draft : Draft) :
    draft.addTokens policy tokens = draft.addMarks marks := by
  induction h generalizing draft with
  | nil => rfl
  | cons hmark _ ih =>
      rw [Draft.addTokens, hmark, Draft.addMarks_cons]
      exact congrArg (draft.add _ >>= ·) (funext ih)

/-- Tokens that were added have their marks. -/
theorem reads_of_addTokens {policy : Policy} {tokens : List Token} {draft next : Draft}
    (h : draft.addTokens policy tokens = .ok next) : ∃ marks, Reads policy tokens marks := by
  induction tokens generalizing draft with
  | nil => exact ⟨[], List.Forall₂.nil⟩
  | cons token rest ih =>
      rw [Draft.addTokens] at h
      cases hmark : token.mark policy with
      | error error => rw [hmark] at h; cases h
      | ok mark =>
          rw [hmark] at h
          replace h : (draft.add mark >>= fun next => next.addTokens policy rest) = .ok next := h
          cases hadd : draft.add mark with
          | error error => rw [hadd] at h; cases h
          | ok middle =>
              rw [hadd] at h
              obtain ⟨marks, hmarks⟩ := ih h
              exact ⟨mark :: marks, List.Forall₂.cons hmark hmarks⟩

/-- The end of parsing, once all tokens are added. -/
def Draft.conclude (stopped : Option Nat) (draft : Draft) : Except Error Nodes :=
  match stopped with
  | some position => .error (.unterminatedTag position)
  | none => draft.finish

theorem parse_eq (policy : Policy) (template : String) :
    parse policy template = Draft.empty.addTokens policy (scan template).tokens
      >>= Draft.conclude (scan template).stopped := rfl

theorem conclude_ok {stopped : Option Nat} {draft : Draft} {nodes : Nodes}
    (h : draft.conclude stopped = .ok nodes) :
    stopped = none ∧ draft.opened = [] ∧ nodes = draft.body.reverse := by
  cases stopped with
  | some position => cases h
  | none =>
      rw [Draft.conclude, Draft.finish] at h
      split at h
      · exact ⟨rfl, by assumption, (Except.ok.inj h).symm⟩
      · cases h

/-- **A template is read as a tree exactly when its tokens stand for the marks of that tree, and
no tag is left open.** -/
theorem parse_eq_ok_iff {policy : Policy} {template : String} {nodes : Nodes} :
    parse policy template = .ok nodes
      ↔ (scan template).stopped = none ∧ Reads policy (scan template).tokens nodes.marks := by
  rw [parse_eq]
  constructor
  · intro h
    cases hadd : Draft.empty.addTokens policy (scan template).tokens with
    | error error => rw [hadd] at h; cases h
    | ok draft =>
        rw [hadd] at h
        obtain ⟨hstop, hopened, hnodes⟩ := conclude_ok h
        obtain ⟨marks, hmarks⟩ := reads_of_addTokens hadd
        rw [addTokens_of_reads hmarks] at hadd
        -- with no section open, the marks that were read are those of the finished tree
        have hread : draft.marks = marks := Draft.marks_of_addMarks hadd
        have hclosed : draft.marks = nodes.marks := by
          rw [Draft.marks, hopened, hnodes]
          rfl
        exact ⟨hstop, by rw [← hclosed, hread]; exact hmarks⟩
  · rintro ⟨hstop, hmarks⟩
    rw [addTokens_of_reads hmarks, Draft.addMarks_marks, hstop]
    exact congrArg Except.ok (Nodes.reverse_reverse nodes)

end Flashcards.Template
