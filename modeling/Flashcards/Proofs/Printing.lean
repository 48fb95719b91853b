import Flashcards.Proofs.Normal

/-!
# Writing a tree as a template

The written form of a tree, and the law that ties it to parsing: a normal tree is read back from
its written form, and whatever is read is normal. So the written form is a canonical one, and
writing what was read changes the template but not its tree.

A tag is written with a blank inside each pair of braces. The blanks keep a name that ends in a
brace away from the pair that closes the tag. A field without filters whose name begins with a
sigil gets a colon in front: the colon hides the sigil, and the empty keyword it makes is passed
over where unknown filters are. Where they are refused there is no way to write such a field, and
none is ever read.
-/

namespace Flashcards.Template

open Text

/-! ## The written form -/

/-- A tag with the given content. -/
def tagAround (content : List Char) : List Char :=
  ['{', '{', ' '] ++ content ++ [' ', '}', '}']

/-- A field inside its tag: its filters, the last one first, and its name. -/
def FieldRef.content (ref : FieldRef) : List Char :=
  (if ref.isBareSigil then [':'] else [])
    ++ ref.filters.flatMap (fun filter => filter.keyword.toList ++ [':']) ++ ref.name.toList

/-- What opens a section of each kind. -/
def sectionSigil (negate : Bool) : Char := if negate then '^' else '#'

/-- The characters of a tree as a template. -/
def Nodes.written : Nodes → List Char
  | .nil => []
  | .text literal rest => literal.toList ++ rest.written
  | .field ref rest => tagAround ref.content ++ rest.written
  | .block name negate body rest =>
    tagAround (sectionSigil negate :: name.toList) ++ body.written
      ++ tagAround ('/' :: name.toList) ++ rest.written

/-- A tree as a template. -/
def Nodes.print (nodes : Nodes) : String := String.ofList nodes.written

/-- The characters of a mark in a template. -/
def Mark.written : Mark → List Char
  | .text literal => literal.toList
  | .field ref => tagAround ref.content
  | .opening name negate => tagAround (sectionSigil negate :: name.toList)
  | .closing name => tagAround ('/' :: name.toList)

theorem Nodes.written_eq (nodes : Nodes) : nodes.written = nodes.marks.flatMap Mark.written := by
  induction nodes with
  | nil => rfl
  | text literal rest ih =>
      rw [Nodes.written, ih, Nodes.marks_text, List.flatMap_cons, Mark.written]
  | field ref rest ih =>
      rw [Nodes.written, ih, Nodes.marks_field, List.flatMap_cons, Mark.written]
  | block name negate body rest ihb ihr =>
      rw [Nodes.written, ihb, ihr, Nodes.marks_block, List.flatMap_cons, List.flatMap_append,
        List.flatMap_cons, Mark.written, Mark.written]
      simp only [List.append_assoc]

/-! ## Reading a tag back -/

theorem FieldRef.Normal.tight_content {ref : FieldRef} (h : ref.Normal) : Tight ref.content := by
  have hfilters : Tight (ref.filters.flatMap (fun filter => filter.keyword.toList ++ [':'])
      ++ ref.name.toList) := by
    induction ref.filters with
    | nil => exact h.name.tight
    | cons filter rest ih =>
        rw [List.flatMap_cons, List.append_assoc]
        refine tight_append (tight_of_forall ?_) (by simp) ih
        intro c hc
        rcases List.mem_append.mp hc with hc | hc
        · exact (keyword_plain filter hc).1
        · rw [List.mem_singleton.mp hc]
          decide
  unfold FieldRef.content
  rw [List.append_assoc]
  split
  · have hfront : Tight [':'] := tight_of_forall (List.forall_mem_singleton.mpr (by decide))
    exact tight_append hfront (List.cons_ne_nil _ _) hfilters
  · exact hfilters

theorem FieldRef.Normal.noPair_content {ref : FieldRef} (h : ref.Normal) :
    NoPair '}' ref.content := by
  have hfilters : NoPair '}' (ref.filters.flatMap (fun filter => filter.keyword.toList ++ [':'])
      ++ ref.name.toList) := by
    induction ref.filters with
    | nil => exact h.name.noClose
    | cons filter rest ih =>
        rw [List.flatMap_cons, List.append_assoc, List.append_assoc, List.singleton_append]
        refine noPair_append_other (by decide) (noPair_of_not_mem ?_) _ ih
        intro hc
        exact (keyword_plain filter hc).2.2 rfl
  unfold FieldRef.content
  rw [List.append_assoc]
  split
  · exact noPair_append_other (by decide) (noPair_nil _) _ hfilters
  · exact hfilters

/-- The first character of a field's content is a keyword's, a colon, or one of a name that is
no sigil. -/
theorem head?_content (ref : FieldRef) : ref.content.head?.any isSigil = false := by
  unfold FieldRef.content
  split
  · rfl
  · rename_i hbare
    cases hf : ref.filters with
    | nil =>
        rw [FieldRef.isBareSigil, hf] at hbare
        simpa using hbare
    | cons filter rest =>
        have hword := keyword_head filter
        -- which character comes first depends on the keyword alone
        cases hk : filter.keyword.toList with
        | nil =>
            rw [List.flatMap_cons, hk]
            rfl
        | cons c word =>
            rw [hk] at hword
            rw [List.flatMap_cons, hk]
            exact hword

theorem readField_content {policy : Policy} {ref : FieldRef} (h : ref.Normal)
    (hbare : policy = .strict → ref.isBareSigil = false) :
    readField policy ref.content = .ok ref := by
  have hname : nameOf ref.name.toList = ref.name := h.name.stripped
  have hcolon : ∀ c ∈ ref.name.toList, (c == ':') = false := by
    intro c hc
    rw [beq_eq_false_iff_ne]
    rintro rfl
    exact h.noColon hc
  unfold FieldRef.content
  split
  · rename_i hsigil
    -- the colon makes an empty keyword, which the lenient policy passes over
    have hlenient : policy = .lenient := by
      cases policy with
      | lenient => rfl
      | strict => rw [hbare rfl] at hsigil; cases hsigil
    have hnone : ref.filters = [] := by
      unfold FieldRef.isBareSigil at hsigil
      exact List.isEmpty_iff.mp (Bool.and_eq_true_iff.mp hsigil).1
    have hpieces : pieces (· == ':') (':' :: ref.name.toList) = [[]] ++ [ref.name.toList] := by
      rw [pieces_cons_separator rfl, pieces_eq_singleton hcolon]
      rfl
    obtain ⟨name, filters⟩ := ref
    subst hlenient hnone
    show readField .lenient (':' :: name.toList) = _
    rw [readField_of_pieces hpieces, hname]
    rfl
  · rw [List.nil_append, readField_of_pieces (pieces_keywords ref.filters hcolon),
      filtersOf_keywords, hname]
    rfl

/-- What stands behind a sigil in the tag of a section. -/
theorem sigil_content {sigil : Char} {name : String} (h : TagName name)
    (hblank : isBlank sigil = false) (hclose : sigil ≠ '}') :
    Tight (sigil :: name.toList) ∧ NoPair '}' (sigil :: name.toList) := by
  refine ⟨?_, noPair_append_other hclose (noPair_nil _) _ h.noClose⟩
  have hfront : Tight [sigil] := tight_of_forall (List.forall_mem_singleton.mpr hblank)
  exact tight_append hfront (List.cons_ne_nil _ _) h.tight

theorem readTag_opening {name : String} (h : TagName name) (policy : Policy) (negate : Bool) :
    readTag policy (sectionSigil negate :: name.toList) = .ok (.opening name negate) := by
  have hname : nameOf name.toList = name := h.stripped
  have hsigil : isBlank (sectionSigil negate) = false ∧ sectionSigil negate ≠ '}' := by
    cases negate <;> decide
  unfold readTag
  rw [trim_eq_self_iff.mpr (sigil_content h hsigil.1 hsigil.2).1]
  cases negate with
  | false => exact congrArg (fun name => Except.ok (Mark.opening name false)) hname
  | true => exact congrArg (fun name => Except.ok (Mark.opening name true)) hname

theorem readTag_closing {name : String} (h : TagName name) (policy : Policy) :
    readTag policy ('/' :: name.toList) = .ok (.closing name) := by
  have hname : nameOf name.toList = name := h.stripped
  unfold readTag
  rw [trim_eq_self_iff.mpr (sigil_content h (by decide) (by decide)).1]
  exact congrArg (fun name => Except.ok (Mark.closing name)) hname

/-- **A tag is read back from its written form.** -/
theorem readTag_written {policy : Policy} {mark : Mark} {rest : List Mark}
    (htag : mark.isText = false) (hn : mark.NormalBefore rest)
    (hbare : policy = .strict → ∀ ref, mark = .field ref → ref.isBareSigil = false) :
    ∃ content, mark.written = tagAround content ∧ Tight content ∧ NoPair '}' content
      ∧ readTag policy content = .ok mark := by
  cases mark with
  | text literal => cases htag
  | field ref =>
      have htight := FieldRef.Normal.tight_content hn
      have htrim := trim_eq_self_iff.mpr htight
      refine ⟨ref.content, rfl, htight, FieldRef.Normal.noPair_content hn, ?_⟩
      rw [readTag_of_not_sigil (by rw [htrim]; exact head?_content ref), htrim,
        readField_content hn fun hp => hbare hp ref rfl]
      rfl
  | opening name negate =>
      have hsigil : isBlank (sectionSigil negate) = false ∧ sectionSigil negate ≠ '}' := by
        cases negate <;> decide
      obtain ⟨htight, hclose⟩ := sigil_content hn hsigil.1 hsigil.2
      exact ⟨_, rfl, htight, hclose, readTag_opening hn policy negate⟩
  | closing name =>
      have hsigil : isBlank '/' = false := by decide
      obtain ⟨htight, hclose⟩ := sigil_content hn hsigil (by decide)
      exact ⟨_, rfl, htight, hclose, readTag_closing hn policy⟩

/-! ## Reading a template back -/

/-- The blanks inside the braces keep the content from making a pair with them. -/
theorem scanFrom_tagAround {content : List Char} (h : NoPair '}' content) (position : Nat)
    (behind : List Char) :
    ∃ next, scanFrom position (tagAround content ++ behind)
      = ⟨.tag (' ' :: (content ++ [' '])) position :: (scanFrom next behind).tokens,
          (scanFrom next behind).stopped⟩ := by
  have hbody : NoPair '}' (' ' :: (content ++ [' ']) ++ ['}']) := by
    have hlast : (' ' :: (content ++ [' '])).getLast? = some ' ' := by
      rw [← List.cons_append, List.getLast?_concat]
    refine noPair_append_mark.mpr ⟨?_, by rw [hlast]; decide⟩
    -- no brace of the content touches another across a blank
    have hright := noPair_append_other (by decide : ' ' ≠ '}') h [] (noPair_nil '}')
    exact noPair_append_other (by decide) (noPair_nil '}') _ hright
  have hshape : tagAround content ++ behind
      = '{' :: '{' :: (' ' :: (content ++ [' ']) ++ '}' :: '}' :: behind) := by
    simp [tagAround]
  rw [hshape, scanFrom_tag hbody]
  exact ⟨_, rfl⟩

/-- **Marks are read back from their written form**, wherever in a template it stands. -/
theorem reads_written {policy : Policy} {marks : List Mark} (hn : NormalMarks marks)
    (hbare : policy = .strict → ∀ ref, Mark.field ref ∈ marks → ref.isBareSigil = false)
    (position : Nat) :
    (scanFrom position (marks.flatMap Mark.written)).stopped = none
      ∧ Reads policy (scanFrom position (marks.flatMap Mark.written)).tokens marks := by
  induction marks generalizing position with
  | nil =>
      rw [List.flatMap_nil, scanFrom_plain (noPair_nil _)]
      exact ⟨rfl, List.Forall₂.nil⟩
  | cons mark rest ih =>
      obtain ⟨hmark, hrest⟩ := hn
      have hread := ih hrest fun hp ref href => hbare hp ref (List.mem_cons_of_mem _ href)
      rw [List.flatMap_cons]
      -- a tag is scanned by itself, a text together with what is behind it
      cases htag : mark.isText with
      | false =>
          obtain ⟨content, hwritten, htight, hclose, hcontent⟩ := readTag_written htag hmark
            fun hp ref href => hbare hp ref (href ▸ List.mem_cons_self)
          obtain ⟨next, hscan⟩ :=
            scanFrom_tagAround hclose position (rest.flatMap Mark.written)
          rw [hwritten, hscan]
          refine ⟨(hread next).1, List.Forall₂.cons ?_ (hread next).2⟩
          exact (readTag_between_blanks htight).trans hcontent
      | true =>
          cases mark with
          | field ref => cases htag
          | opening name negate => cases htag
          | closing name => cases htag
          | text literal =>
              obtain ⟨hrun, hnext, hend⟩ := hmark
              have hne : literal.toList ≠ [] := fun h => hrun.nonempty (String.toList_inj.mp h)
              have htext : (Token.text literal.toList position).mark policy = .ok (.text literal) :=
                congrArg (fun s => Except.ok (Mark.text s)) String.ofList_toList
              rw [Mark.written]
              cases rest with
              | nil =>
                  rw [List.flatMap_nil, List.append_nil, scanFrom_plain hrun.noOpen,
                    leadingText_of_ne_nil hne]
                  exact ⟨rfl, List.Forall₂.cons htext List.Forall₂.nil⟩
              | cons mark rest =>
                  -- a tag follows, so the text must not run into its braces
                  have hfront : NoPair '{' (literal.toList ++ ['{']) :=
                    noPair_append_mark.mpr ⟨hrun.noOpen, fun h => List.cons_ne_nil _ _ (hend h)⟩
                  obtain ⟨behind, hbehind⟩ : ∃ behind,
                      (mark :: rest).flatMap Mark.written = '{' :: '{' :: behind := by
                    cases mark with
                    | text literal => cases hnext
                    | field ref => exact ⟨_, rfl⟩
                    | opening name negate => exact ⟨_, rfl⟩
                    | closing name => exact ⟨_, rfl⟩
                  have htail := hread (position + literal.toList.length)
                  rw [hbehind] at htail ⊢
                  rw [scanFrom_text hne hfront]
                  exact ⟨htail.1, List.Forall₂.cons htext htail.2⟩

/-- A normal tree is read back from its written form. -/
theorem parse_print_of_normal {policy : Policy} {nodes : Nodes} (hn : nodes.Normal)
    (hbare : policy = .strict → nodes.NoBareSigil) : parse policy nodes.print = .ok nodes := by
  rw [parse_eq_ok_iff, scan, Nodes.print, String.toList_ofList, Nodes.written_eq]
  exact reads_written ((Nodes.normal_iff nodes).mp hn)
    (fun hp => (Nodes.noBareSigil_iff nodes).mp (hbare hp)) 0

/--
**Writing and reading are inverse to each other.**

What is read is normal, and has no bare sigil where unknown filters are refused. A tree with these
properties is read back from its written form. So a template that can be read may be replaced by
the written form of its tree.
-/
theorem parse_print (policy : Policy) :
    (∀ (template : String) (nodes : Nodes), parse policy template = .ok nodes →
        nodes.Normal ∧ (policy = .strict → nodes.NoBareSigil))
      ∧ (∀ nodes : Nodes, nodes.Normal → (policy = .strict → nodes.NoBareSigil) →
          parse policy nodes.print = .ok nodes)
      ∧ ∀ (template : String) (nodes : Nodes), parse policy template = .ok nodes →
          parse policy nodes.print = .ok nodes := by
  have hread : ∀ (template : String) (nodes : Nodes), parse policy template = .ok nodes →
      nodes.Normal ∧ (policy = .strict → nodes.NoBareSigil) := by
    intro template nodes h
    refine ⟨normal_of_parse h, ?_⟩
    rintro rfl
    exact noBareSigil_of_parse h
  refine ⟨hread, fun nodes hn hbare => parse_print_of_normal hn hbare, ?_⟩
  intro template nodes h
  exact parse_print_of_normal (hread template nodes h).1 (hread template nodes h).2

/-- A section with a field whose name only its filters keep from opening a section, between texts
that end in a brace and begin with one. -/
theorem parse_print_section :
    ∃ nodes, parse .strict (shownTag "#a" ++ "\x7bx" ++ shownTag "text:hint: #b" ++ shownTag "/a"
        ++ "\x7b") = .ok nodes
      ∧ nodes.Normal ∧ nodes.NoBareSigil ∧ parse .strict nodes.print = .ok nodes := by
  let nodes : Nodes :=
    .block "a" false (.text "\x7bx" (.field ⟨"#b", [.text, .hint]⟩ .nil)) (.text "\x7b" .nil)
  have h : parse .strict (shownTag "#a" ++ "\x7bx" ++ shownTag "text:hint: #b" ++ shownTag "/a"
      ++ "\x7b") = .ok nodes := by cbv
  obtain ⟨hnormal, hbare⟩ := (parse_print .strict).1 _ nodes h
  exact ⟨nodes, h, hnormal, hbare rfl, (parse_print .strict).2.1 nodes hnormal hbare⟩

/-- A keyword that names no filter can hide a sigil, and so does the empty one of the written
form. -/
example : parse .lenient (shownTag "bogus:#F") = .ok (.field ⟨"#F", []⟩ .nil)
    ∧ (Nodes.field ⟨"#F", []⟩ .nil).print = shownTag " :#F " := by
  constructor
  · cbv
  · rfl

end Flashcards.Template
