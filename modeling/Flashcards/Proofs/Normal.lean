import Flashcards.Proofs.Drafts
import Flashcards.Proofs.Scan
import Flashcards.Proofs.Tags

/-!
# Normal trees

The trees that templates can be read as. Texts are as long as they can be: two of them never stand
side by side, none holds an opening pair, and only the end of the template may break off in the
middle of one. Names are what is left of a tag between blanks, so they are tight and hold no
closing pair.

What makes this provable is that being normal is a property of the marks: in the row of marks a
text is followed by another text exactly where it is in the tree, and it is the last thing of the
template exactly where it is the last mark. `normalIn_iff` says so, and it leaves one induction
over the scan.
-/

namespace Flashcards.Template

open Text

/-! ## Names and texts -/

/-- A name that a tag can hold. -/
structure TagName (name : String) : Prop where
  /-- Its ends are not blank. -/
  stripped : trimmed name = name
  /-- No tag can end in the middle of it. -/
  noClose : NoPair '}' name.toList

theorem TagName.tight {name : String} (h : TagName name) : Tight name.toList := by
  have := congrArg String.toList h.stripped
  rw [trimmed, String.toList_ofList] at this
  exact trim_eq_self_iff.mp this

/-- What is left of any part of a tag can be a name. -/
theorem tagName_nameOf {cs body : List Char} (h : NoPair '}' body) (hi : cs <:+: body) :
    TagName (nameOf cs) where
  stripped := by
    unfold trimmed nameOf
    rw [String.toList_ofList, trim_trim]
  noClose := by
    unfold nameOf
    rw [String.toList_ofList]
    exact h.mono ((trim_isInfix cs).trans hi)

/-- A field that a tag can name. -/
structure FieldRef.Normal (ref : FieldRef) : Prop where
  /-- The name is one. -/
  name : TagName ref.name
  /-- No filter can stand in the name. -/
  noColon : ':' ∉ ref.name.toList

/-- Whether a field without filters has a name that would make its tag one of a section. -/
def FieldRef.isBareSigil (ref : FieldRef) : Bool :=
  ref.filters.isEmpty && ref.name.toList.head?.any isSigil

/-- A text that can stand in front of a tag or the end of the template. -/
structure TextRun (literal : String) : Prop where
  /-- There is something of it. -/
  nonempty : literal ≠ ""
  /-- No tag begins in it. -/
  noOpen : NoPair '{' literal.toList

/-! ## Trees -/

namespace Nodes

/-- Whether the sequence begins with a text. -/
def beginsWithText : Nodes → Bool
  | .text _ _ => true
  | _ => false

/-- The sequence is normal where it stands; `last` says that nothing of the template is behind
it. -/
def NormalIn (last : Bool) : Nodes → Prop
  | .nil => True
  | .text literal rest =>
    TextRun literal ∧ rest.beginsWithText = false
      ∧ (literal.toList.getLast? = some '{' → last = true ∧ rest = .nil) ∧ rest.NormalIn last
  | .field ref rest => ref.Normal ∧ rest.NormalIn last
  | .block name _ body rest => TagName name ∧ body.NormalIn false ∧ rest.NormalIn last

/-- The tree of a whole template is normal. -/
def Normal (nodes : Nodes) : Prop := nodes.NormalIn true

/-- No field without filters has a name that begins with a sigil. -/
def NoBareSigil (nodes : Nodes) : Prop := ∀ ref ∈ nodes.fieldRefs, ref.isBareSigil = false

end Nodes

/-! ## Marks -/

/-- Whether a mark is a text. -/
def Mark.isText : Mark → Bool
  | .text _ => true
  | _ => false

/-- A mark is normal in front of the marks that follow it. -/
def Mark.NormalBefore (rest : List Mark) : Mark → Prop
  | .text literal =>
    TextRun literal ∧ rest.head?.any Mark.isText = false
      ∧ (literal.toList.getLast? = some '{' → rest = [])
  | .field ref => ref.Normal
  | .opening name _ => TagName name
  | .closing name => TagName name

/-- Every mark is normal in front of those that follow it. -/
def NormalMarks : List Mark → Prop
  | [] => True
  | mark :: rest => mark.NormalBefore rest ∧ NormalMarks rest

namespace Nodes

theorem marks_eq_nil_iff {nodes : Nodes} : nodes.marks = [] ↔ nodes = .nil := by
  cases nodes with
  | nil => simp [marks_nil]
  | text literal rest => simp [marks_text]
  | field ref rest => simp [marks_field]
  | block name negate body rest => simp [marks_block]

/-- What follows a sequence shows in its marks, as long as no text follows the last of it. -/
theorem head?_marks_append (nodes : Nodes) {more : List Mark}
    (hmore : more.head?.any Mark.isText = false) :
    (nodes.marks ++ more).head?.any Mark.isText = nodes.beginsWithText := by
  cases nodes with
  | nil => exact hmore
  | text literal rest => rfl
  | field ref rest => rfl
  | block name negate body rest => rfl

/-- **A sequence is normal where its marks are.** -/
theorem normalIn_iff (nodes : Nodes) {more : List Mark}
    (hmore : more.head?.any Mark.isText = false) :
    NormalMarks (nodes.marks ++ more) ↔ nodes.NormalIn more.isEmpty ∧ NormalMarks more := by
  induction nodes generalizing more with
  | nil => simp [marks_nil, NormalIn]
  | text literal rest ih =>
      have hend : rest.marks ++ more = [] ↔ more.isEmpty = true ∧ rest = .nil := by
        rw [List.append_eq_nil_iff, marks_eq_nil_iff, List.isEmpty_iff, and_comm]
      rw [marks_text, List.cons_append, NormalMarks, Mark.NormalBefore, NormalIn,
        head?_marks_append rest hmore, hend, ih hmore]
      simp only [and_assoc]
  | field ref rest ih =>
      rw [marks_field, List.cons_append, NormalMarks, Mark.NormalBefore, NormalIn, ih hmore,
        and_assoc]
  | block name negate body rest ihb ihr =>
      have hclose : (Mark.closing name :: (rest.marks ++ more)).head?.any Mark.isText = false := rfl
      rw [marks_block, List.cons_append, List.append_assoc, List.cons_append, NormalMarks,
        Mark.NormalBefore, ihb hclose, NormalMarks, Mark.NormalBefore, ihr hmore, NormalIn,
        List.isEmpty_cons]
      -- the name stands at both ends of the section
      exact ⟨fun ⟨hn, hb, _, hr, hm⟩ => ⟨⟨hn, hb, hr⟩, hm⟩,
        fun ⟨⟨hn, hb, hr⟩, hm⟩ => ⟨hn, hb, hn, hr, hm⟩⟩

theorem normal_iff (nodes : Nodes) : nodes.Normal ↔ NormalMarks nodes.marks := by
  have hnil : ([] : List Mark).head?.any Mark.isText = false := rfl
  have h := normalIn_iff nodes hnil
  rw [List.append_nil] at h
  exact ⟨fun hn => h.mpr ⟨hn, trivial⟩, fun hm => (h.mp hm).1⟩

theorem noBareSigil_iff (nodes : Nodes) :
    nodes.NoBareSigil ↔ ∀ ref, Mark.field ref ∈ nodes.marks → ref.isBareSigil = false := by
  have hmem : ∀ ref, ref ∈ nodes.fieldRefs ↔ Mark.field ref ∈ nodes.marks := by
    intro ref
    unfold fieldRefs
    rw [List.mem_filterMap]
    constructor
    · rintro ⟨mark, hmark, hsome⟩
      cases mark with
      | field found =>
          cases hsome
          exact hmark
      | text literal => cases hsome
      | opening name negate => cases hsome
      | closing name => cases hsome
    · intro h
      exact ⟨_, h, rfl⟩
  unfold NoBareSigil
  simp only [hmem]

end Nodes

/-! ## What a tag stands for -/

theorem normal_of_readField {policy : Policy} {body : List Char} {ref : FieldRef}
    (hb : NoPair '}' body) (h : readField policy body = .ok ref) : ref.Normal := by
  obtain ⟨_, hname⟩ := readField_ok h
  have hlast : (pieces (· == ':') body).getLast (pieces_ne_nil _ _) <:+ body :=
    (getLast_pieces body).1
  refine ⟨?_, ?_⟩
  · rw [hname]
    exact tagName_nameOf hb hlast.isInfix
  · rw [hname, nameOf, String.toList_ofList]
    intro hc
    have hcolon := not_isSeparator_of_mem_pieces (List.getLast_mem (pieces_ne_nil _ _)) ':'
      ((trim_isInfix _).subset hc)
    simp at hcolon

/-- **A tag without a closing pair in it stands for a normal mark that is not a text.** -/
theorem normal_of_readTag {policy : Policy} {body : List Char} {mark : Mark}
    (hb : NoPair '}' body) (h : readTag policy body = .ok mark) :
    mark.isText = false ∧ ∀ rest, mark.NormalBefore rest := by
  have hname : ∀ {sigil : Char} {name : List Char}, trim body = sigil :: name →
      TagName (nameOf name) := by
    intro sigil name htrim
    have hsuffix : name <:+ trim body := by rw [htrim]; exact List.suffix_cons sigil name
    exact tagName_nameOf hb (hsuffix.isInfix.trans (trim_isInfix body))
  rcases readTag_cases h with ⟨name, htrim, rfl⟩ | ⟨name, htrim, rfl⟩ | ⟨name, htrim, rfl⟩
    | ⟨_, ref, hf, rfl⟩
  · exact ⟨rfl, fun _ => hname htrim⟩
  · exact ⟨rfl, fun _ => hname htrim⟩
  · exact ⟨rfl, fun _ => hname htrim⟩
  · exact ⟨rfl, fun _ => normal_of_readField (hb.mono (trim_isInfix body)) hf⟩

/-- Where unknown filters are refused, a field without filters is the whole of its tag, and a tag
that begins with a sigil is not one of a field. -/
theorem isBareSigil_of_readTag {body : List Char} {ref : FieldRef}
    (h : readTag .strict body = .ok (.field ref)) : ref.isBareSigil = false := by
  rcases readTag_cases h with ⟨_, _, hmark⟩ | ⟨_, _, hmark⟩ | ⟨_, _, hmark⟩
    | ⟨hsigil, found, hf, hmark⟩
  · cases hmark
  · cases hmark
  · cases hmark
  · cases hmark
    obtain ⟨hfilters, hname⟩ := readField_ok hf
    unfold FieldRef.isBareSigil
    by_cases hnone : ref.filters = []
    · -- no filter was read, so there is one piece, and it is the trimmed tag
      have hlength := filtersOf_strict_length hfilters
      rw [hnone] at hlength
      have htail : (pieces (· == ':') (trim body)).tail = [] := by
        rw [← List.length_eq_zero_iff, List.length_tail, ← List.length_dropLast, ← hlength]
        rfl
      have hbody : ref.name.toList = trim body := by
        rw [hname, nameOf, String.toList_ofList, (getLast_pieces (trim body)).2 htail, trim_trim]
      rw [hbody, hsigil, Bool.and_false]
    · simp [hnone]

/-! ## What a template is read as -/

theorem textRun_ofList {literal : List Char} (hne : literal ≠ []) (h : NoPair '{' literal) :
    TextRun (String.ofList literal) where
  nonempty := by
    intro hempty
    exact hne (String.ofList_injective hempty)
  noOpen := by
    rw [String.toList_ofList]
    exact h

/-- The text in front of a tag is normal there, if there is any. -/
theorem normalMarks_leadingText {policy : Policy} {literal : List Char} {position : Nat}
    {tokens : List Token} {marks : List Mark} (h : NoPair '{' (literal ++ ['{']))
    (hreads : Reads policy (leadingText literal position ++ tokens) marks)
    (hrest : ∀ rest, Reads policy tokens rest →
      NormalMarks rest ∧ rest.head?.any Mark.isText = false) : NormalMarks marks := by
  -- without leading text there is no token for it
  by_cases hne : literal = []
  · subst hne
    exact (hrest marks hreads).1
  · rw [leadingText_of_ne_nil hne] at hreads
    cases hreads with
    | cons hmark hmore =>
        cases hmark
        obtain ⟨hnormal, htag⟩ := hrest _ hmore
        obtain ⟨hno, hend⟩ := noPair_append_mark.mp h
        refine ⟨⟨textRun_ofList hne hno, htag, fun hlast => ?_⟩, hnormal⟩
        rw [String.toList_ofList] at hlast
        exact absurd hlast hend

/-- **The marks of a template that ends where its last tag does, or behind it, are normal.** -/
theorem normalMarks_of_scanFrom {policy : Policy} {position : Nat} {cs : List Char}
    {marks : List Mark} (hstop : (scanFrom position cs).stopped = none)
    (h : Reads policy (scanFrom position cs).tokens marks) : NormalMarks marks := by
  fun_induction scanFrom position cs generalizing marks with
  | case1 position cs hopen =>
      have hno := cutAtPair_eq_none_iff.mp hopen
      by_cases hne : cs = []
      · subst hne
        cases h
        trivial
      · rw [leadingText_of_ne_nil hne] at h
        cases h with
        | cons hmark hmore =>
            cases hmark
            cases hmore
            -- the end of the template: nothing follows, so the text may end in a brace
            exact ⟨⟨textRun_ofList hne hno, rfl, fun _ => rfl⟩, trivial⟩
  | case2 => cases hstop
  | case3 position cs before rest hopen start body behind hclose more =>
      rename_i ih
      obtain ⟨_, hbefore⟩ := cutAtPair_eq_some_iff.mp hopen
      obtain ⟨_, hbody⟩ := cutAtPair_eq_some_iff.mp hclose
      refine normalMarks_leadingText hbefore h ?_
      -- the tag is no text, so the text in front of it stands alone
      intro rest' hreads
      cases hreads with
      | cons hmark hmore =>
          obtain ⟨htag, hnormal⟩ := normal_of_readTag (noPair_append_mark.mp hbody).1 hmark
          exact ⟨⟨hnormal _, ih hstop hmore⟩, htag⟩

theorem normal_of_parse {policy : Policy} {template : String} {nodes : Nodes}
    (h : parse policy template = .ok nodes) : nodes.Normal := by
  obtain ⟨hstop, hreads⟩ := parse_eq_ok_iff.mp h
  exact (Nodes.normal_iff nodes).mpr (normalMarks_of_scanFrom hstop hreads)

/-- Each mark is read from some token. -/
theorem exists_token_of_reads {policy : Policy} {tokens : List Token} {marks : List Mark}
    (h : Reads policy tokens marks) {mark : Mark} (hm : mark ∈ marks) :
    ∃ token ∈ tokens, token.mark policy = .ok mark := by
  induction h with
  | nil => cases hm
  | @cons token first _ _ hmark _ ih =>
      rcases List.mem_cons.mp hm with rfl | hm
      · exact ⟨token, List.mem_cons_self, hmark⟩
      · obtain ⟨found, hfound, hread⟩ := ih hm
        exact ⟨found, List.mem_cons_of_mem _ hfound, hread⟩

theorem noBareSigil_of_parse {template : String} {nodes : Nodes}
    (h : parse .strict template = .ok nodes) : nodes.NoBareSigil := by
  obtain ⟨_, hreads⟩ := parse_eq_ok_iff.mp h
  refine (Nodes.noBareSigil_iff nodes).mpr ?_
  intro ref hmem
  obtain ⟨token, _, hmark⟩ := exists_token_of_reads hreads hmem
  cases token with
  | text literal position => cases hmark
  | tag body position => exact isBareSigil_of_readTag hmark

end Flashcards.Template
