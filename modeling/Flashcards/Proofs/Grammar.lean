import Flashcards.Proofs.Drafts
import Flashcards.Proofs.Tags

/-!
# The grammar of templates

A template is a sequence of texts, fields and sections, and a section has such a sequence between
two marks that carry its name. `Derives` is that grammar. It knows nothing of a stack: what is
open, and what may come next, is said by way of the sequences that a prefix can still become.

`parse_iff_verdict` compares the two. A draft that has read a prefix witnesses that the prefix is
viable, its innermost open section is the one the grammar sees, and a closing mark is refused
exactly where no continuation can make up for it. That is why the leftmost misfit decides, before
any tag or section that is still open at the end: no prefix behind a misfit is viable.
-/

namespace Flashcards.Template

/-- The marks of a sequence of nodes: one for each text and field, and two for each section, with
those of its body between them. -/
inductive Derives : Nodes → List Mark → Prop where
  | nil : Derives .nil []
  | text {literal : String} {rest : Nodes} {marks : List Mark} :
      Derives rest marks → Derives (.text literal rest) (.text literal :: marks)
  | field {ref : FieldRef} {rest : Nodes} {marks : List Mark} :
      Derives rest marks → Derives (.field ref rest) (.field ref :: marks)
  | block {name : String} {negate : Bool} {body rest : Nodes} {inner marks : List Mark} :
      Derives body inner → Derives rest marks →
      Derives (.block name negate body rest)
        (.opening name negate :: (inner ++ .closing name :: marks))

/-- Marks that others can complete. -/
def Viable (marks : List Mark) : Prop := ∃ (more : List Mark) (nodes : Nodes),
  Derives nodes (marks ++ more)

/-- The name of the innermost section that marks leave open, or that they leave none open. -/
inductive Innermost : List Mark → Option String → Prop where
  | outside {nodes : Nodes} {marks : List Mark} : Derives nodes marks → Innermost marks none
  | inside {outer inner : List Mark} {name : String} {negate : Bool} {nodes : Nodes} :
      Viable outer → Derives nodes inner →
      Innermost (outer ++ .opening name negate :: inner) (some name)

/-- Some closing mark does not fit the section that is open where it stands. There is no second
one: no prefix that holds it is viable. -/
def Misfit (marks : List Mark) (expected : Option String) (found : String) : Prop :=
  ∃ before after : List Mark, marks = before ++ .closing found :: after
    ∧ Viable before ∧ Innermost before expected ∧ expected ≠ some found

/-- The marks of a template, where unknown keywords are passed over. -/
def marksOf (template : String) : List Mark := (scan template).tokens.map Token.meaning

/-- What becomes of a template: the tree that its marks are derived from, or else the first
reason there is none. -/
inductive Verdict (template : String) : Except Error Nodes → Prop where
  | accepted {nodes : Nodes} : (scan template).stopped = none → Derives nodes (marksOf template) →
      Verdict template (.ok nodes)
  | misfit {expected : Option String} {found : String} : Misfit (marksOf template) expected found →
      Verdict template (.error (.mismatchedClose expected found))
  | openTag {position : Nat} : (∀ expected found, ¬ Misfit (marksOf template) expected found) →
      (scan template).stopped = some position →
      Verdict template (.error (.unterminatedTag position))
  | openSection {name : String} : (∀ expected found, ¬ Misfit (marksOf template) expected found) →
      (scan template).stopped = none → Innermost (marksOf template) (some name) →
      Verdict template (.error (.unterminatedSection name))

/-! ## The grammar and the marks of a tree -/

theorem marks_of_derives {nodes : Nodes} {marks : List Mark} (h : Derives nodes marks) :
    nodes.marks = marks := by
  induction h with
  | nil => rfl
  | text _ ih => rw [Nodes.marks_text, ih]
  | field _ ih => rw [Nodes.marks_field, ih]
  | block _ _ ihb ihr => rw [Nodes.marks_block, ihb, ihr]

theorem derives_marks (nodes : Nodes) : Derives nodes nodes.marks := by
  induction nodes with
  | nil => exact .nil
  | text literal rest ih => exact .text ih
  | field ref rest ih => exact .field ih
  | block name negate body rest ihb ihr =>
      rw [Nodes.marks_block]
      exact .block ihb ihr

theorem derives_iff {nodes : Nodes} {marks : List Mark} :
    Derives nodes marks ↔ nodes.marks = marks := by
  constructor
  · exact marks_of_derives
  · rintro rfl
    exact derives_marks nodes

/-! ## What a draft says about the marks it has read -/

namespace Draft

/-- The name of the innermost open section. -/
def innermost (draft : Draft) : Option String := draft.opened.head?.map OpenSection.name

/-- What is in front of the innermost open section is a draft of its own. -/
theorem marks_of_opened {draft : Draft} {inner : OpenSection} {outer : List OpenSection}
    (h : draft.opened = inner :: outer) :
    draft.marks = Draft.marks ⟨inner.before, outer⟩
      ++ .opening inner.name inner.negate :: draft.body.reverse.marks := by
  simp [marks, h, OpenSection.marks]

/-- Closing the open sections, from the innermost outwards, completes what a draft has read. -/
theorem viable_marks (draft : Draft) : Viable draft.marks := by
  obtain ⟨body, opened⟩ := draft
  induction opened generalizing body with
  | nil =>
      refine ⟨[], body.reverse, ?_⟩
      rw [List.append_nil]
      exact derives_marks _
  | cons inner outer ih =>
      -- the draft after the closing mark of the innermost section
      let closed := Nodes.block inner.name inner.negate body.reverse inner.before
      have hadd : Draft.add ⟨body, inner :: outer⟩ (.closing inner.name) = .ok ⟨closed, outer⟩ := by
        simp [add, closed]
      obtain ⟨more, nodes, hd⟩ := ih closed
      rw [marks_of_add hadd, List.append_assoc] at hd
      exact ⟨_, nodes, hd⟩

theorem innermost_marks (draft : Draft) : Innermost draft.marks draft.innermost := by
  cases hopened : draft.opened with
  | nil =>
      have hmarks : draft.marks = draft.body.reverse.marks := by simp [marks, hopened]
      rw [hmarks, innermost, hopened]
      exact .outside (derives_marks _)
  | cons inner outer =>
      rw [marks_of_opened hopened, innermost, hopened]
      exact .inside (viable_marks _) (derives_marks _)

theorem marks_of_addMarks_empty {draft : Draft} {marks : List Mark}
    (h : empty.addMarks marks = .ok draft) : draft.marks = marks :=
  marks_of_addMarks h

/-- **A draft reads every viable prefix.** -/
theorem addMarks_of_viable {marks : List Mark} (h : Viable marks) :
    ∃ draft, empty.addMarks marks = .ok draft := by
  obtain ⟨more, nodes, hd⟩ := h
  have hall := addMarks_marks empty nodes
  rw [marks_of_derives hd, addMarks_append] at hall
  cases hfront : empty.addMarks marks with
  | error error => rw [hfront] at hall; cases hall
  | ok draft => exact ⟨draft, rfl⟩

/-- **The innermost section of a draft is the one the grammar sees.** -/
theorem innermost_eq {marks : List Mark} {name : Option String} {draft : Draft}
    (hi : Innermost marks name) (h : empty.addMarks marks = .ok draft) :
    draft.innermost = name := by
  cases hi with
  | @outside nodes _ hd =>
      rw [← marks_of_derives hd, addMarks_marks] at h
      cases h
      rfl
  | @inside outer inner name negate nodes hv hd =>
      -- the marks in front are read, then the section is opened, then a whole tree is read in it
      obtain ⟨before, hbefore⟩ := addMarks_of_viable hv
      rw [addMarks_append, hbefore] at h
      replace h : before.addMarks (.opening name negate :: inner) = .ok draft := h
      rw [addMarks_cons] at h
      replace h : Draft.addMarks ⟨.nil, ⟨name, negate, before.body⟩ :: before.opened⟩ inner
          = .ok draft := h
      rw [← marks_of_derives hd, addMarks_marks] at h
      cases h
      rfl

/-! ## Refused marks -/

/-- Only a closing mark is refused, and only where it does not fit. -/
theorem add_error_iff {draft : Draft} {mark : Mark} {error : Error} :
    draft.add mark = .error error ↔ ∃ found, mark = .closing found
      ∧ draft.innermost ≠ some found ∧ error = .mismatchedClose draft.innermost found := by
  cases mark with
  | text literal => simp [add]
  | field ref => simp [add]
  | opening name negate => simp [add]
  | closing name =>
      cases hopened : draft.opened with
      | nil => simp [add, innermost, hopened, eq_comm]
      | cons inner outer =>
          by_cases hname : inner.name = name
          · simp [add, innermost, hopened, hname]
          · have hfound : ¬ name = inner.name := fun h => hname h.symm
            simp [add, innermost, hopened, hname, hfound, eq_comm]

/-- A refusal is one of a mark that does not fit. -/
theorem misfit_of_addMarks {marks : List Mark} {draft : Draft} {error : Error}
    (h : draft.addMarks marks = .error error) :
    ∃ expected found, Misfit (draft.marks ++ marks) expected found
      ∧ error = .mismatchedClose expected found := by
  induction marks generalizing draft with
  | nil => cases h
  | cons mark rest ih =>
      rw [addMarks_cons] at h
      cases hadd : draft.add mark with
      | error refused =>
          rw [hadd] at h
          cases h
          obtain ⟨found, rfl, hne, rfl⟩ := add_error_iff.mp hadd
          exact ⟨_, found,
            ⟨_, rest, rfl, viable_marks draft, innermost_marks draft, hne⟩, rfl⟩
      | ok next =>
          rw [hadd] at h
          have hmore := ih h
          rw [marks_of_add hadd, List.append_assoc] at hmore
          exact hmore

/-- **A mark that does not fit is refused**, whatever comes behind it. -/
theorem addMarks_of_misfit {marks : List Mark} {expected : Option String} {found : String}
    (h : Misfit marks expected found) :
    empty.addMarks marks = .error (.mismatchedClose expected found) := by
  obtain ⟨before, after, rfl, hv, hi, hne⟩ := h
  obtain ⟨draft, hdraft⟩ := addMarks_of_viable hv
  have hinner := innermost_eq hi hdraft
  have hadd : draft.add (.closing found) = .error (.mismatchedClose expected found) :=
    add_error_iff.mpr ⟨found, rfl, by rw [hinner]; exact hne, by rw [hinner]⟩
  rw [addMarks_append, hdraft]
  show draft.addMarks (.closing found :: after) = _
  rw [addMarks_cons, hadd]
  rfl

/-- Without a misfit, all marks are read. -/
theorem addMarks_of_no_misfit {marks : List Mark}
    (h : ∀ expected found, ¬ Misfit marks expected found) :
    ∃ draft, empty.addMarks marks = .ok draft := by
  cases hadd : empty.addMarks marks with
  | error error =>
      obtain ⟨expected, found, hmis, _⟩ := misfit_of_addMarks hadd
      exact absurd hmis (h expected found)
  | ok draft => exact ⟨draft, rfl⟩

end Draft

/-! ## Parsing -/

theorem reads_marksOf (template : String) :
    Reads .lenient (scan template).tokens (marksOf template) := by
  refine List.forall₂_map_right_iff.mpr (List.forall₂_same.mpr ?_)
  intro token _
  exact mark_lenient token

/-- What is left of parsing once the marks of a template are known. -/
theorem parse_lenient_eq (template : String) :
    parse .lenient template = Draft.empty.addMarks (marksOf template)
      >>= Draft.conclude (scan template).stopped := by
  rw [parse_eq, addTokens_of_reads (reads_marksOf template)]

/-- Whatever parsing gives, the grammar gives too. -/
theorem verdict_parse (template : String) : Verdict template (parse .lenient template) := by
  rw [parse_lenient_eq]
  cases hadd : Draft.empty.addMarks (marksOf template) with
  | error error =>
      obtain ⟨expected, found, hmis, rfl⟩ := Draft.misfit_of_addMarks hadd
      exact .misfit hmis
  | ok draft =>
      have hmarks := Draft.marks_of_addMarks_empty hadd
      -- a misfit would have been refused, but every mark was read
      have hfit : ∀ expected found, ¬ Misfit (marksOf template) expected found := by
        intro expected found hmis
        rw [Draft.addMarks_of_misfit hmis] at hadd
        cases hadd
      cases hstop : (scan template).stopped with
      | some position => exact .openTag hfit hstop
      | none =>
          have hinner := Draft.innermost_marks draft
          rw [hmarks] at hinner
          show Verdict template draft.finish
          unfold Draft.finish
          split
          · rename_i hopened
            refine .accepted hstop (derives_iff.mpr ?_)
            rw [← hmarks, Draft.marks, hopened]
            rfl
          · rename_i inner outer hopened
            rw [Draft.innermost, hopened] at hinner
            exact .openSection hfit hstop hinner

/--
**Parsing gives what the grammar says.**

A template is read as a tree if and only if no tag is left open and its marks are derived from
that tree. Otherwise the closing mark that does not fit is reported if there is one, else the tag
that is left open, else the innermost section that is.
-/
theorem parse_iff_verdict (template : String) (outcome : Except Error Nodes) :
    parse .lenient template = outcome ↔ Verdict template outcome := by
  constructor
  · rintro rfl
    exact verdict_parse template
  · intro h
    cases h with
    | accepted hstop hd =>
        refine parse_eq_ok_iff.mpr ⟨hstop, ?_⟩
        rw [marks_of_derives hd]
        exact reads_marksOf template
    | misfit hmis => rw [parse_lenient_eq, Draft.addMarks_of_misfit hmis]; rfl
    | openTag hfit hstop =>
        obtain ⟨draft, hadd⟩ := Draft.addMarks_of_no_misfit hfit
        rw [parse_lenient_eq, hadd, hstop]
        rfl
    | openSection hfit hstop hi =>
        obtain ⟨draft, hadd⟩ := Draft.addMarks_of_no_misfit hfit
        have hinner := Draft.innermost_eq hi hadd
        rw [parse_lenient_eq, hadd, hstop]
        show draft.finish = _
        unfold Draft.innermost at hinner
        unfold Draft.finish
        cases hopened : draft.opened with
        | nil => rw [hopened] at hinner; cases hinner
        | cons inner outer =>
            rw [hopened] at hinner
            cases hinner
            rfl

/-- All three faults at once: the closing mark is the one reported. -/
example : parse .lenient (shownTag "#a" ++ shownTag "/b" ++ "\x7b\x7b")
    = .error (.mismatchedClose (some "a") "b") := by cbv

end Flashcards.Template
