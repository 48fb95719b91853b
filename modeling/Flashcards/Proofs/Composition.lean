import Flashcards.Proofs.Printing
import Flashcards.Proofs.Tokens
import Flashcards.Proofs.Walk

/-!
# Templates put together

A template may be written in front of another, or between the two tags of a section, and what it
shows does not change. Both are said of rows of tokens first. Two rows make a row if the tokens that
meet can stand side by side (`row_append_iff`). If they cannot, both are texts, and unless a pair of
braces comes about between them the two become one text (`row_merge`). A row may begin anywhere, and
its tokens stand for the same marks there (`Row.shift`).

So the marks of the whole are those of its parts, apart from the two texts that have become one, and
rendering does not tell one text from the two that it is made of.
-/

namespace Flashcards.Template

open Text

/-! ## Rows put together -/

/-- The token, further on by an offset. -/
def Token.shift (offset : Nat) : Token → Token
  | .text literal position => .text literal (offset + position)
  | .tag body position => .tag body (offset + position)

section

variable {start offset : Nat} {token next : Token} {front rest tokens : List Token}

theorem Token.source_shift (offset : Nat) (token : Token) :
    (token.shift offset).source = token.source := by
  cases token <;> rfl

theorem Token.shaped_shift : (token.shift offset).Shaped ↔ token.Shaped := by
  cases token <;> exact Iff.rfl

/-- Where the tokens stand makes no difference to what can stand behind a token. -/
theorem meets_head_shift (offset : Nat) :
    (∀ next ∈ (rest.map (Token.shift offset)).head?, token.Meets next) ↔
      ∀ next ∈ rest.head?, token.Meets next := by
  cases rest with
  | nil => simp
  | cons next rest => cases token <;> cases next <;> simp [Token.Meets, Token.shift, Token.isText]

/-- Behind a text can stand what can stand behind its end. -/
theorem meets_text_append {literal other : List Char} (hne : other ≠ []) (position place : Nat) :
    (Token.text (literal ++ other) position).Meets next ↔ (Token.text other place).Meets next := by
  rw [Token.Meets, Token.Meets, List.getLast?_append_of_ne_nil _ hne]

/-- In front of one text can stand what can stand in front of another: a tag. -/
theorem Token.Meets.other_text {last : Token} {literal : List Char} {position : Nat}
    (h : last.Meets (.text literal position)) (other : List Char) (place : Nat) :
    last.Meets (.text other place) := by
  cases last with
  | text before start => cases h.1
  | tag body start => trivial

theorem sources_shift (offset : Nat) (tokens : List Token) :
    sources (tokens.map (Token.shift offset)) = sources tokens := by
  induction tokens with
  | nil => rfl
  | cons token rest ih => rw [List.map_cons, sources_cons, sources_cons, Token.source_shift, ih]

/-- A row may begin further on. -/
theorem Row.shift (h : Row start tokens) (offset : Nat) :
    Row (offset + start) (tokens.map (Token.shift offset)) := by
  induction tokens generalizing start with
  | nil => exact row_nil _
  | cons token rest ih =>
      obtain ⟨hshaped, rfl, hmeets, hrest⟩ := row_cons_iff.mp h
      rw [List.map_cons]
      refine row_cons_iff.mpr ⟨Token.shaped_shift.mpr hshaped, by cases token <;> rfl,
        (meets_head_shift offset).mpr fun next hnext => ?_, ?_⟩
      · have hnext := hmeets next hnext
        cases token <;> exact hnext
      · rw [Token.source_shift, Nat.add_assoc]
        exact ih hrest

/-- Two rows make one if the second begins where the first ends, and the tokens that meet there
can stand side by side. -/
theorem row_append_iff :
    Row start (front ++ rest) ↔
      Row start front ∧ Row (start + (sources front).length) rest ∧
        ∀ last ∈ front.getLast?, ∀ next ∈ rest.head?, last.Meets next := by
  induction front generalizing start with
  | nil => simp [row_nil, sources]
  | cons token front ih =>
      rw [List.cons_append, row_cons_iff, row_cons_iff, ih, sources_cons, List.length_append,
        ← Nat.add_assoc]
      cases front with
      | nil => simp [row_nil]; tauto
      | cons next front => simp [List.getLast?_cons]; tauto

/-! ## Templates and rows -/

variable {policy : Policy} {template : String} {nodes : Nodes} {marks more : List Mark}

theorem Reads.shift (h : Reads policy tokens marks) (offset : Nat) :
    Reads policy (tokens.map (Token.shift offset)) marks := by
  refine List.forall₂_map_left_iff.mpr (h.imp ?_)
  intro token mark hmark
  cases token with
  | text literal position => exact hmark
  | tag body position => exact hmark

theorem Reads.append (h : Reads policy front marks) (hmore : Reads policy rest more) :
    Reads policy (front ++ rest) (marks ++ more) := List.rel_append h hmore

theorem Reads.of_append (h : Reads policy (front ++ rest) marks) :
    ∃ inFront behind, marks = inFront ++ behind ∧ Reads policy front inFront ∧
      Reads policy rest behind := by
  induction front generalizing marks with
  | nil => exact ⟨[], marks, rfl, .nil, h⟩
  | cons token front ih =>
      obtain ⟨mark, others, hmark, hothers, rfl⟩ := List.forall₂_cons_left_iff.mp h
      obtain ⟨inFront, behind, rfl, hfront, hbehind⟩ := ih hothers
      exact ⟨mark :: inFront, behind, rfl, .cons hmark hfront, hbehind⟩

/-- A template is read as a tree if it is written by a row that stands for the marks of the tree. -/
theorem parse_eq_ok_iff_row :
    parse policy template = .ok nodes ↔
      ∃ tokens, Row 0 tokens ∧ sources tokens = template.toList ∧
        Reads policy tokens nodes.marks := by
  rw [parse_eq_ok_iff]
  constructor
  · rintro ⟨hstop, hreads⟩
    obtain ⟨hrow, hsources⟩ : Row 0 (scan template).tokens ∧ _ :=
      scan_eq_row_iff.mp (by rw [← hstop])
    exact ⟨_, hrow, hsources, hreads⟩
  · rintro ⟨tokens, hrow, hsources, hreads⟩
    rw [scan_eq_row_iff.mpr ⟨hrow, hsources⟩]
    exact ⟨rfl, hreads⟩

/-! ## The seam -/

/-- Two texts make a pair of marks only where they meet. -/
theorem noPair_append_iff {mark : Char} {cs ds : List Char} :
    NoPair mark (cs ++ ds) ↔
      NoPair mark cs ∧ NoPair mark ds ∧ ¬ (cs.getLast? = some mark ∧ ds.head? = some mark) := by
  induction cs with
  | nil => simp [noPair_nil]
  | cons a rest ih =>
      cases rest with
      | nil =>
          cases ds with
          | nil => simp [noPair_nil]
          | cons d ds => simp [noPair_cons_cons, noPair_singleton, and_comm]
      | cons b rest =>
          rw [List.cons_append, List.cons_append, noPair_cons_cons, noPair_cons_cons,
            ← List.cons_append, ih, List.getLast?_cons_cons, and_assoc]

/-- A sequence whose last mark is a text ends in that text. -/
theorem Nodes.eq_append_text {literal : String} (h : nodes.marks = marks ++ [.text literal]) :
    ∃ front : Nodes, nodes = front.append (.text literal .nil) ∧ front.marks = marks := by
  have hnodes := reverse_reverse nodes
  cases hlast : nodes.reverse with
  | nil =>
      rw [hlast] at hnodes
      subst hnodes
      simp [reverse_nil, marks_nil] at h
  | text other front =>
      rw [hlast, reverse_text] at hnodes
      subst hnodes
      rw [marks_append] at h
      obtain ⟨hfront, hother⟩ := List.append_inj' h rfl
      cases hother
      exact ⟨front.reverse, rfl, hfront⟩
  | field ref front =>
      rw [hlast, reverse_field] at hnodes
      subst hnodes
      rw [marks_append] at h
      obtain ⟨-, hother⟩ := List.append_inj' h rfl
      cases hother
  | block name negate body front =>
      rw [hlast, reverse_block] at hnodes
      subst hnodes
      rw [marks_append, marks_block, ← List.cons_append, ← List.append_assoc] at h
      obtain ⟨-, hother⟩ := List.append_inj' h rfl
      cases hother

/-- A sequence whose first mark is a text begins with that text. -/
theorem Nodes.eq_text {literal : String} (h : nodes.marks = .text literal :: marks) :
    ∃ rest : Nodes, nodes = .text literal rest ∧ rest.marks = marks := by
  cases nodes with
  | nil => cases h
  | text other rest =>
      cases h
      exact ⟨rest, rfl, rfl⟩
  | field ref rest => cases h
  | block name negate body rest => cases h

/-- Where one row ends in a text and another begins with one, the two texts become one. -/
theorem row_merge {literal other : List Char} {position place : Nat}
    (h : Row 0 (front ++ [.text literal position])) (hmore : Row 0 (.text other place :: rest))
    (hseam : ¬ (literal.getLast? = some '{' ∧ other.head? = some '{')) :
    Row 0 (front ++ .text (literal ++ other) position ::
      rest.map (Token.shift ((sources front).length + literal.length))) := by
  obtain ⟨hfront, hlast, hmeets⟩ := row_append_iff.mp h
  obtain ⟨⟨hne, hpair⟩, hposition, -, -⟩ := row_cons_iff.mp hlast
  obtain ⟨⟨hother, hpairs⟩, -, hnext, hrest⟩ := row_cons_iff.mp hmore
  refine row_append_iff.mpr ⟨hfront, row_cons_iff.mpr ⟨⟨?_, ?_⟩, hposition, ?_, ?_⟩, ?_⟩
  · exact List.append_ne_nil_of_left_ne_nil hne other
  · exact noPair_append_iff.mpr ⟨hpair, hpairs, hseam⟩
  · exact (meets_head_shift _).mpr fun next hmem =>
      (meets_text_append hother _ _).mpr (hnext next hmem)
  · have hbehind := hrest.shift ((sources front).length + literal.length)
    have hstart : 0 + (sources front).length
          + (Token.text (literal ++ other) position).source.length
        = (sources front).length + literal.length
          + (0 + (Token.text other place).source.length) := by
      simp [Token.source]; omega
    rw [hstart]
    exact hbehind
  · rintro last hmem next ⟨⟩
    exact (hmeets last hmem _ rfl).other_text _ _

theorem Token.Shaped.source_ne_nil (h : token.Shaped) : token.source ≠ [] := by
  cases token with
  | text literal position => exact h.1
  | tag body position => exact List.cons_ne_nil _ _

theorem head?_sources (h : token.Shaped) (rest : List Token) :
    (sources (token :: rest)).head? = token.source.head? := by
  rw [sources_cons]
  exact List.head?_append_of_ne_nil _ h.source_ne_nil

theorem getLast?_sources (h : token.Shaped) (front : List Token) :
    (sources (front ++ [token])).getLast? = token.source.getLast? := by
  have hsource : sources [token] = token.source := List.append_nil _
  rw [sources_append, hsource]
  exact List.getLast?_append_of_ne_nil _ h.source_ne_nil

/-- Two tokens that cannot stand side by side are two texts, unless a pair of braces comes about
where they meet. -/
theorem texts_of_not_meets {last : Token} (hmeets : ¬ last.Meets next)
    (hseam : ¬ (last.source.getLast? = some '{' ∧ next.source.head? = some '{')) :
    ∃ literal position other place, last = .text literal position ∧ next = .text other place := by
  cases last with
  | tag body position => exact absurd trivial hmeets
  | text literal position =>
      cases next with
      | text other place => exact ⟨literal, position, other, place, rfl, rfl⟩
      | tag body place =>
          have hclear : literal.getLast? ≠ some '{' := fun hend => hseam ⟨hend, rfl⟩
          exact absurd ⟨rfl, hclear⟩ hmeets

/-- Where the tokens that meet can stand side by side, the tokens of the whole are those of the one
and those of the other. -/
theorem parse_of_meets {first second : Nodes} (hfront : Row 0 front) (hrest : Row 0 rest)
    (hmarks : Reads policy front first.marks) (hmores : Reads policy rest second.marks)
    (hmeets : ∀ last ∈ front.getLast?, ∀ next ∈ rest.head?, last.Meets next)
    (hwhole : sources front ++ sources rest = template.toList) :
    parse policy template = .ok (first.append second) := by
  refine parse_eq_ok_iff_row.mpr
    ⟨front ++ rest.map (Token.shift (sources front).length), ?_, ?_, ?_⟩
  · refine row_append_iff.mpr ⟨hfront, ?_, fun last hlast => ?_⟩
    · rw [Nat.zero_add]
      exact hrest.shift (sources front).length
    · exact (meets_head_shift _).mpr (hmeets last hlast)
  · rw [sources_append, sources_shift, hwhole]
  · rw [Nodes.marks_append]
    exact hmarks.append (hmores.shift _)

/-- Where two texts meet, they become one token, and one node that shows what the two showed. -/
theorem parse_of_texts {first second : Nodes} {literal other : List Char} {position place : Nat}
    (hfront : Row 0 (front ++ [.text literal position])) (hrest : Row 0 (.text other place :: rest))
    (hmarks : Reads policy (front ++ [.text literal position]) first.marks)
    (hmores : Reads policy (.text other place :: rest) second.marks)
    (hseam : ¬ (literal.getLast? = some '{' ∧ other.head? = some '{'))
    (hwhole : sources (front ++ [.text literal position]) ++ sources (.text other place :: rest)
      = template.toList) :
    ∃ whole, parse policy template = .ok whole ∧
      ∀ context, whole.render context = joined (first.render context) (second.render context) := by
  obtain ⟨before, behind, hbefore, hfrontMarks, hlastMark⟩ := hmarks.of_append
  obtain ⟨_, _, ⟨⟩, hnone, rfl⟩ := List.forall₂_cons_left_iff.mp hlastMark
  obtain ⟨_, after, ⟨⟩, hafter, hsecond⟩ := List.forall₂_cons_left_iff.mp hmores
  cases hnone
  obtain ⟨firstly, rfl, rfl⟩ := Nodes.eq_append_text hbefore
  obtain ⟨lastly, rfl, rfl⟩ := Nodes.eq_text hsecond
  refine ⟨firstly.append (.text (String.ofList (literal ++ other)) lastly),
    parse_eq_ok_iff_row.mpr ⟨_, row_merge hfront hrest hseam, ?_, ?_⟩, ?_⟩
  · rw [← hwhole]
    simp [sources_append, sources_cons, sources_shift, Token.source, sources_nil]
  · rw [Nodes.marks_append, Nodes.marks_text]
    exact hfrontMarks.append (.cons rfl (Reads.shift hafter _))
  · intro context
    rw [Nodes.render_append, Nodes.render_append, Nodes.render_text, Nodes.render_text,
      Nodes.render_text, Nodes.render_nil, joined_empty_ok, String.ofList_append,
      ← joined_ok_ok, joined_assoc, joined_assoc]

/-- **Two templates, one behind the other**, are read as what the one and the other are read as,
unless a pair of braces comes about where they meet. -/
theorem parse_append {a b : String} {first second : Nodes} (ha : parse policy a = .ok first)
    (hb : parse policy b = .ok second)
    (hseam : ¬ (a.toList.getLast? = some '{' ∧ b.toList.head? = some '{')) :
    ∃ whole, parse policy (a ++ b) = .ok whole ∧
      ∀ context, whole.render context = joined (first.render context) (second.render context) := by
  obtain ⟨front, hfront, hfronts, hmarks⟩ := parse_eq_ok_iff_row.mp ha
  obtain ⟨rest, hrest, hrests, hmores⟩ := parse_eq_ok_iff_row.mp hb
  have hwhole : sources front ++ sources rest = (a ++ b).toList := by
    rw [hfronts, hrests, String.toList_append]
  by_cases hmeets : ∀ last ∈ front.getLast?, ∀ next ∈ rest.head?, last.Meets next
  · exact ⟨first.append second, parse_of_meets hfront hrest hmarks hmores hmeets hwhole,
      fun context => Nodes.render_append context first second⟩
  · -- the one ends in a text, and the other begins with one
    push Not at hmeets
    obtain ⟨last, hlast, next, hnext, hmeets⟩ := hmeets
    obtain ⟨front, rfl⟩ := List.getLast?_eq_some_iff.mp hlast
    obtain ⟨rest, rfl⟩ := List.head?_eq_some_iff.mp hnext
    rw [← hfronts, ← hrests, getLast?_sources (hfront.shaped last (by simp)),
      head?_sources (hrest.shaped next (by simp))] at hseam
    obtain ⟨literal, position, other, place, rfl, rfl⟩ := texts_of_not_meets hmeets hseam
    exact parse_of_texts hfront hrest hmarks hmores hseam hwhole

/-! ## A template inside a section -/

/-- A template that does not end in a brace keeps clear of any tag behind it. -/
theorem meets_tag (h : Row start tokens) (hend : (sources tokens).getLast? ≠ some '{')
    (body : List Char) (position : Nat) :
    ∀ last ∈ tokens.getLast?, last.Meets (.tag body position) := by
  intro last hlast
  obtain ⟨front, rfl⟩ := List.getLast?_eq_some_iff.mp hlast
  rw [getLast?_sources (h.shaped last (by simp))] at hend
  cases last with
  | text literal place => exact ⟨rfl, hend⟩
  | tag other place => trivial

theorem shaped_sectionTag {name : String} {sigil : Char} (hname : TagName name)
    (hclose : name.toList.getLast? ≠ some '}') (hblank : isBlank sigil = false)
    (hsigil : sigil ≠ '}') (position : Nat) :
    (Token.tag (sigil :: name.toList) position).Shaped := by
  refine ⟨(sigil_content hname hblank hsigil).2, ?_⟩
  rw [List.getLast?_cons]
  cases hlast : name.toList.getLast? with
  | none => simpa using hsigil
  | some c =>
      rw [hlast] at hclose
      exact hclose

/-- **A template between the two tags of a section** is the body of that section. -/
theorem parse_section {name : String} (h : parse policy template = .ok nodes)
    (hend : template.toList.getLast? ≠ some '{') (hname : TagName name)
    (hclose : name.toList.getLast? ≠ some '}') (negate : Bool) :
    parse policy (shownTag (String.singleton (sectionSigil negate) ++ name) ++ template
        ++ shownTag ("/" ++ name))
      = .ok (.block name negate nodes .nil) := by
  obtain ⟨tokens, hrow, hsources, hreads⟩ := parse_eq_ok_iff_row.mp h
  have hsigil : isBlank (sectionSigil negate) = false ∧ sectionSigil negate ≠ '}' := by
    cases negate <;> decide
  let opening : Token := .tag (sectionSigil negate :: name.toList) 0
  let inside := tokens.map (Token.shift opening.source.length)
  let closing : Token := .tag ('/' :: name.toList) (opening.source.length + (sources inside).length)
  have hinside : Row opening.source.length inside := hrow.shift opening.source.length
  have hclear : (sources inside).getLast? ≠ some '{' := by rwa [sources_shift, hsources]
  have hclosing : Row (opening.source.length + (sources inside).length) [closing] :=
    row_cons_iff.mpr ⟨shaped_sectionTag hname hclose (by decide) (by decide) _, rfl, by simp,
      row_nil _⟩
  refine parse_eq_ok_iff_row.mpr ⟨opening :: (inside ++ [closing]), row_cons_iff.mpr
    ⟨shaped_sectionTag hname hclose hsigil.1 hsigil.2 _, rfl, fun _ _ => trivial, ?_⟩, ?_, ?_⟩
  · rw [Nat.zero_add]
    refine row_append_iff.mpr ⟨hinside, hclosing, fun last hlast => ?_⟩
    rintro next ⟨⟩
    exact meets_tag hinside hclear _ _ last hlast
  · rw [sources_cons, sources_append, sources_shift, hsources]
    simp [opening, closing, sources, Token.source, shownTag]
  · rw [Nodes.marks_block, Nodes.marks_nil]
    exact .cons (readTag_opening hname policy negate)
      ((hreads.shift _).append (.cons (readTag_closing hname policy) .nil))

/-- A section that holds nothing else shows its body or nothing. -/
theorem render_section (context : Context) (name : String) (negate : Bool) (body : Nodes) :
    (Nodes.block name negate body .nil).render context
      = if showsSection context name negate then body.render context else .ok "" := by
  rw [Nodes.render_block, Nodes.render_nil, joined_empty_ok]

theorem parse_plain (h : NoPair '{' template.toList) (policy : Policy) :
    ∃ nodes, parse policy template = .ok nodes ∧
      ∀ context, Nodes.render context nodes = .ok template := by
  by_cases hempty : template = ""
  · subst hempty
    exact ⟨.nil, parse_eq_ok_iff_row.mpr ⟨[], row_nil 0, rfl, .nil⟩, Nodes.render_nil⟩
  · have hne : template.toList ≠ [] := by simpa using hempty
    have hrow : Row 0 [.text template.toList 0] :=
      row_cons_iff.mpr ⟨⟨hne, h⟩, rfl, by simp, row_nil _⟩
    refine ⟨.text template .nil, parse_eq_ok_iff_row.mpr
      ⟨_, hrow, List.append_nil _, .cons (congrArg (Except.ok ∘ Mark.text) String.ofList_toList)
        .nil⟩, fun context => ?_⟩
    rw [Nodes.render_text, Nodes.render_nil, joined_empty_ok]

/--
**Rendering follows the text of a template.**

Two templates that are read are read one behind the other too, unless a brace ends the first and
begins the second, and show what the one shows and then what the other shows. A template that does
not end in a brace is shown by one of the two sections around it, and by the other it is not. A
template without an opening pair shows itself.
-/
theorem render_template_parts (policy : Policy) :
    (∀ a b first second, parse policy a = .ok first → parse policy b = .ok second →
      ¬ (a.toList.getLast? = some '{' ∧ b.toList.head? = some '{') →
      ∃ whole, parse policy (a ++ b) = .ok whole ∧
        ∀ context, whole.render context
          = joined (first.render context) (second.render context)) ∧
    (∀ template nodes name, parse policy template = .ok nodes →
      template.toList.getLast? ≠ some '{' → TagName name → name.toList.getLast? ≠ some '}' →
      ∃ shown hidden,
        parse policy (shownTag ("#" ++ name) ++ template ++ shownTag ("/" ++ name)) = .ok shown ∧
        parse policy (shownTag ("^" ++ name) ++ template ++ shownTag ("/" ++ name)) = .ok hidden ∧
        ∀ context, if context.fields.value name = ""
          then shown.render context = .ok "" ∧ hidden.render context = nodes.render context
          else shown.render context = nodes.render context ∧ hidden.render context = .ok "") ∧
    ∀ template, NoPair '{' template.toList →
      ∃ nodes, parse policy template = .ok nodes ∧
        ∀ context, nodes.render context = .ok template := by
  refine ⟨fun a b first second => parse_append, ?_, fun template h => parse_plain h policy⟩
  intro template nodes name h hend hname hclose
  refine ⟨_, _, parse_section h hend hname hclose false, parse_section h hend hname hclose true,
    fun context => ?_⟩
  rw [render_section, render_section]
  by_cases hvalue : context.fields.value name = ""
  · simp [showsSection, Fields.isSet, hvalue]
  · simp [showsSection, Fields.isSet, hvalue]

/-- The first template ends in a brace and the second begins with a text, so the two texts become
one. -/
theorem render_template_parts_sample :
    (∃ whole, parse .strict ("a\x7b" ++ ("b" ++ shownTag "F")) = .ok whole ∧
      ∀ context, whole.render context
        = joined ((Nodes.text "a\x7b" .nil).render context)
            ((Nodes.text "b" (.field ⟨"F", []⟩ .nil)).render context)) ∧
    (∃ shown hidden,
      parse .strict (shownTag ("#" ++ "F") ++ "x" ++ shownTag ("/" ++ "F")) = .ok shown ∧
      parse .strict (shownTag ("^" ++ "F") ++ "x" ++ shownTag ("/" ++ "F")) = .ok hidden ∧
      ∀ context, if context.fields.value "F" = ""
        then shown.render context = .ok "" ∧
          hidden.render context = (Nodes.text "x" .nil).render context
        else shown.render context = (Nodes.text "x" .nil).render context ∧
          hidden.render context = .ok "") ∧
    ∃ nodes, parse .strict "\x7bx\x7d\x7d" = .ok nodes ∧
      ∀ context, nodes.render context = .ok "\x7bx\x7d\x7d" := by
  obtain ⟨happend, hsection, hplain⟩ := render_template_parts .strict
  have hname : TagName "F" := ⟨by decide, noPair_of_not_mem (by decide)⟩
  exact ⟨happend _ _ _ _ (by cbv) (by cbv) (by decide),
    hsection "x" (.text "x" .nil) "F" (by cbv) (by decide) hname (by decide),
    hplain _ (cutAtPair_eq_none_iff.mp (by decide))⟩

end

end Flashcards.Template
