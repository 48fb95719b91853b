import Flashcards.Filter.Apply
import Flashcards.Proofs.Text

/-!
# What is left of markup

The text filter walks over a value twice, first for line break tags and then for all others. What
the second walk leaves out can bring characters together that were apart, and still no tag is left
(`not_holdsTag_strip`): an opening bracket is kept only if the closing one stands right behind it,
which then is kept as well, or if there is no closing one at all. So stripping a second time changes
nothing (`strip_eq_self_iff`).

Where the tags of a value can be told at sight, as nothing else in it opens a bracket, they are what
is taken out, and all other characters are kept (`strip_source`).
-/

namespace Flashcards.Markup

/-! ## Tags -/

/-- What stands between the brackets of a tag: something, but no closing bracket. -/
structure IsTag (cs : List Char) : Prop where
  nonempty : cs ≠ []
  unclosed : '>' ∉ cs

/-- There is a tag in the text. -/
def HoldsTag (cs : List Char) : Prop :=
  ∃ front inside behind, IsTag inside ∧ cs = front ++ '<' :: inside ++ '>' :: behind

/-- What stands inside a line break tag: the two letters, blanks or none and a slash or none, or a
slash and the two letters. -/
def IsBreak (inside : List Char) : Prop :=
  ∃ b r : Char, b.toLower = 'b' ∧ r.toLower = 'r' ∧
    (inside = ['/', b, r] ∨ ∃ blanks slash, (∀ c ∈ blanks, Text.isBlank c = true) ∧
      (slash = [] ∨ slash = ['/']) ∧ inside = b :: r :: (blanks ++ slash))

variable {cs inside behind rest : List Char}

theorem afterTag?_eq_some_iff :
    afterTag? cs = some behind ↔ ∃ inside, IsTag inside ∧ cs = '<' :: inside ++ '>' :: behind := by
  constructor
  · intro h
    unfold afterTag? at h
    split at h
    · rename_i rest
      split at h
      · cases h
      · rename_i hhead
        split at h
        · rename_i hdrop
          cases h
          have hrest := List.takeWhile_append_dropWhile (p := (· != '>')) (l := rest)
          rw [hdrop] at hrest
          refine ⟨rest.takeWhile (· != '>'), ⟨fun hnil => hhead ?_, fun hmem => ?_⟩, ?_⟩
          · rw [hnil] at hrest
            rw [← hrest]
            rfl
          · exact absurd (List.mem_takeWhile_imp hmem) (by decide)
          · rw [List.cons_append, hrest]
        · cases h
    · cases h
  · rintro ⟨inside, htag, rfl⟩
    have hhead : ¬ (inside ++ '>' :: behind).head? = some '>' := by
      rw [List.head?_append_of_ne_nil _ htag.nonempty]
      exact fun hhead => htag.unclosed (List.mem_of_mem_head? hhead)
    simp only [List.cons_append, afterTag?, if_neg hhead, Text.dropWhile_mark htag.unclosed]

theorem IsBreak.isTag (h : IsBreak inside) : IsTag inside := by
  obtain ⟨b, r, hb, hr, rfl | ⟨blanks, slash, hblanks, hslash, rfl⟩⟩ := h
  all_goals
    have hb : b ≠ '>' := by rintro rfl; exact absurd hb (by decide)
    have hr : r ≠ '>' := by rintro rfl; exact absurd hr (by decide)
  · exact ⟨List.cons_ne_nil _ _, by simp [hb.symm, hr.symm]⟩
  · have hnot : '>' ∉ blanks := fun hmem => absurd (hblanks _ hmem) (by decide)
    refine ⟨List.cons_ne_nil _ _, ?_⟩
    rcases hslash with rfl | rfl
    · simp [hb.symm, hr.symm, hnot]
    · simp [hb.symm, hr.symm, hnot]

theorem afterBreak?_eq_some_iff : afterBreak? cs = some behind
    ↔ ∃ inside, IsBreak inside ∧ cs = '<' :: inside ++ '>' :: behind := by
  constructor
  · intro h
    unfold afterBreak? at h
    split at h
    · rename_i b r rest
      split at h
      · rename_i hletters
        cases h
        exact ⟨['/', b, r], ⟨b, r, hletters.1, hletters.2, .inl rfl⟩, rfl⟩
      · cases h
    · rename_i b r rest _
      split at h
      · rename_i hletters
        have hrest := List.takeWhile_append_dropWhile (p := Text.isBlank) (l := rest)
        have hblanks : ∀ c ∈ rest.takeWhile Text.isBlank, Text.isBlank c = true :=
          fun c hc => List.mem_takeWhile_imp hc
        split at h
        · rename_i hdrop
          cases h
          refine ⟨b :: r :: (rest.takeWhile Text.isBlank ++ ['/']),
            ⟨b, r, hletters.1, hletters.2, .inr ⟨_, _, hblanks, .inr rfl, rfl⟩⟩, ?_⟩
          rw [hdrop] at hrest
          simpa using hrest.symm
        · rename_i hdrop
          cases h
          refine ⟨b :: r :: (rest.takeWhile Text.isBlank ++ []),
            ⟨b, r, hletters.1, hletters.2, .inr ⟨_, _, hblanks, .inl rfl, rfl⟩⟩, ?_⟩
          rw [hdrop] at hrest
          simpa using hrest.symm
        · cases h
      · cases h
    · cases h
  · rintro ⟨inside, ⟨b, r, hb, hr, rfl | ⟨blanks, slash, hblanks, hslash, rfl⟩⟩, rfl⟩
    · simp [afterBreak?, hb, hr]
    · have hne : b ≠ '/' := by rintro rfl; exact absurd hb (by decide)
      rcases hslash with rfl | rfl
      · simp [afterBreak?, hne, hb, hr, Text.dropWhile_run hblanks (c := '>') (by decide)]
      · simp [afterBreak?, hne, hb, hr, Text.dropWhile_run hblanks (c := '/') (by decide)]

/-- Line break tags are tags. -/
theorem afterTag?_of_afterBreak? (h : afterBreak? cs = some behind) :
    afterTag? cs = some behind := by
  obtain ⟨inside, hbreak, hcs⟩ := afterBreak?_eq_some_iff.mp h
  exact afterTag?_eq_some_iff.mpr ⟨inside, hbreak.isTag, hcs⟩

theorem holdsTag_cons {c : Char} :
    HoldsTag (c :: rest) ↔ (∃ behind, afterTag? (c :: rest) = some behind) ∨ HoldsTag rest := by
  constructor
  · rintro ⟨front, inside, behind, htag, hcs⟩
    cases front with
    | nil => exact .inl ⟨behind, afterTag?_eq_some_iff.mpr ⟨inside, htag, hcs⟩⟩
    | cons d front =>
        obtain ⟨rfl, hrest⟩ := List.cons.inj hcs
        exact .inr ⟨front, inside, behind, htag, hrest⟩
  · rintro (⟨behind, hafter⟩ | ⟨front, inside, behind, htag, rfl⟩)
    · obtain ⟨inside, htag, hcs⟩ := afterTag?_eq_some_iff.mp hafter
      exact ⟨[], inside, behind, htag, hcs⟩
    · exact ⟨c :: front, inside, behind, htag, rfl⟩

/-! ## The two walks -/

theorem breaksToLines_of_some (h : afterBreak? cs = some behind) :
    breaksToLines cs = '\n' :: breaksToLines behind := by
  rw [breaksToLines.eq_def]
  split
  · rename_i hfound
    rw [h] at hfound
    cases hfound
    rfl
  · rename_i hnone
    rw [h] at hnone
    cases hnone

theorem breaksToLines_of_none {c : Char} (h : afterBreak? (c :: rest) = none) :
    breaksToLines (c :: rest) = c :: breaksToLines rest := by
  rw [breaksToLines.eq_def]
  split
  · rename_i hfound
    rw [h] at hfound
    cases hfound
  · rfl

theorem dropTags_of_some (h : afterTag? cs = some behind) : dropTags cs = dropTags behind := by
  rw [dropTags.eq_def]
  split
  · rename_i hfound
    rw [h] at hfound
    cases hfound
    rfl
  · rename_i hnone
    rw [h] at hnone
    cases hnone

theorem dropTags_of_none {c : Char} (h : afterTag? (c :: rest) = none) :
    dropTags (c :: rest) = c :: dropTags rest := by
  rw [dropTags.eq_def]
  split
  · rename_i hfound
    rw [h] at hfound
    cases hfound
  · rfl

/-! ## No tags are left -/

/-- Tags are left out, and nothing is put in. -/
theorem dropTags_sublist (cs : List Char) : (dropTags cs).Sublist cs := by
  fun_induction dropTags cs with
  | case1 cs behind hafter ih =>
      obtain ⟨inside, -, rfl⟩ := afterTag?_eq_some_iff.mp hafter
      exact ih.trans ((List.sublist_cons_self _ _).trans (List.sublist_append_right _ _))
  | case2 => exact List.Sublist.slnil
  | case3 c rest _ ih => exact ih.cons_cons c

/-- An opening bracket begins no tag if a closing one follows at once, or none at all. -/
theorem afterTag?_eq_none_iff :
    afterTag? ('<' :: rest) = none ↔ rest.head? = some '>' ∨ '>' ∉ rest := by
  have hsome : (∃ behind, afterTag? ('<' :: rest) = some behind)
      ↔ ¬ (rest.head? = some '>' ∨ '>' ∉ rest) := by
    simp only [afterTag?_eq_some_iff]
    constructor
    · rintro ⟨behind, inside, htag, hcs⟩
      obtain rfl : rest = inside ++ '>' :: behind := (List.cons.inj hcs).2
      rw [List.head?_append_of_ne_nil _ htag.nonempty]
      rintro (hhead | hnot)
      · exact htag.unclosed (List.mem_of_mem_head? hhead)
      · exact hnot (List.mem_append_right _ List.mem_cons_self)
    · intro h
      obtain ⟨hhead, hmem⟩ := not_or.mp h
      obtain ⟨inside, behind, rfl, hfirst⟩ :=
        List.eq_append_cons_of_mem (Decidable.not_not.mp hmem)
      refine ⟨behind, inside, ⟨?_, hfirst⟩, rfl⟩
      rintro rfl
      exact hhead rfl
  rw [← Decidable.not_not (p := rest.head? = some '>' ∨ '>' ∉ rest), ← hsome]
  cases afterTag? ('<' :: rest) <;> simp

theorem not_holdsTag_dropTags (cs : List Char) : ¬ HoldsTag (dropTags cs) := by
  fun_induction dropTags cs with
  | case1 cs behind hafter ih => exact ih
  | case2 =>
      rintro ⟨front, inside, behind, -, hcs⟩
      simp at hcs
  | case3 c rest hnone ih =>
      rw [holdsTag_cons, not_or]
      refine ⟨?_, ih⟩
      rintro ⟨behind, hafter⟩
      obtain ⟨inside, -, hcs⟩ := afterTag?_eq_some_iff.mp hafter
      obtain ⟨rfl, -⟩ := List.cons.inj hcs
      -- a bracket that was kept is followed by the same as before
      have hkept : afterTag? ('<' :: dropTags rest) = none := by
        rcases afterTag?_eq_none_iff.mp hnone with hhead | hnot
        · obtain ⟨more, rfl⟩ := List.head?_eq_some_iff.mp hhead
          rw [afterTag?_eq_none_iff, dropTags_of_none rfl]
          exact .inl rfl
        · exact afterTag?_eq_none_iff.mpr (.inr fun hmem => hnot ((dropTags_sublist rest).subset hmem))
      rw [hkept] at hafter
      cases hafter

/-- **No tag is left.** -/
theorem not_holdsTag_strip (cs : List Char) : ¬ HoldsTag (strip cs) := not_holdsTag_dropTags _

/-- A bracket in front of a tag goes with it, and a line feed that stands between brackets as well. -/
example : strip "<<b>x><<br>><>".toList = "x><>".toList := by cbv

theorem breaksToLines_eq_self (h : ¬ HoldsTag cs) : breaksToLines cs = cs := by
  induction cs with
  | nil => rw [breaksToLines.eq_def]; rfl
  | cons c rest ih =>
      obtain ⟨hfirst, hrest⟩ := not_or.mp (mt holdsTag_cons.mpr h)
      have hnone : afterBreak? (c :: rest) = none :=
        Option.eq_none_iff_forall_ne_some.mpr fun behind hafter =>
          hfirst ⟨behind, afterTag?_of_afterBreak? hafter⟩
      rw [breaksToLines_of_none hnone, ih hrest]

theorem dropTags_eq_self (h : ¬ HoldsTag cs) : dropTags cs = cs := by
  induction cs with
  | nil => rw [dropTags.eq_def]; rfl
  | cons c rest ih =>
      obtain ⟨hfirst, hrest⟩ := not_or.mp (mt holdsTag_cons.mpr h)
      have hnone : afterTag? (c :: rest) = none :=
        Option.eq_none_iff_forall_ne_some.mpr fun behind hafter => hfirst ⟨behind, hafter⟩
      rw [dropTags_of_none hnone, ih hrest]

/-- **Stripping leaves a text alone exactly if there is no tag in it.** -/
theorem strip_eq_self_iff : strip cs = cs ↔ ¬ HoldsTag cs := by
  constructor
  · intro h
    rw [← h]
    exact not_holdsTag_strip cs
  · intro h
    rw [strip, breaksToLines_eq_self h, dropTags_eq_self h]

/-! ## Tags that can be told at sight -/

theorem afterBreak?_eq_some_iff_of_isTag (h : IsTag inside) {other : List Char} :
    afterBreak? ('<' :: inside ++ '>' :: behind) = some other ↔ IsBreak inside ∧ other = behind := by
  rw [afterBreak?_eq_some_iff]
  constructor
  · rintro ⟨letters, hbreak, hcs⟩
    obtain ⟨rfl, rfl⟩ :=
      Text.before_mark_inj h.unclosed hbreak.isTag.unclosed (List.cons.inj hcs).2
    exact ⟨hbreak, rfl⟩
  · rintro ⟨hbreak, rfl⟩
    exact ⟨inside, hbreak, rfl⟩

theorem isBreak_iff : IsBreak inside ↔ afterBreak? ('<' :: inside ++ ['>']) = some [] := by
  constructor
  · exact fun h => afterBreak?_eq_some_iff.mpr ⟨inside, h, rfl⟩
  · intro h
    obtain ⟨letters, hbreak, hcs⟩ := afterBreak?_eq_some_iff.mp h
    obtain rfl := (List.cons.inj (List.append_cancel_right hcs)).2
    exact hbreak

instance (inside : List Char) : Decidable (IsBreak inside) := decidable_of_iff' _ isBreak_iff

/-- What a reader sees of a tag. -/
def seenOf (inside : List Char) : List Char := if IsBreak inside then ['\n'] else []

/-- A tag without an opening bracket inside, and the text behind it, which has none either. -/
structure Tagged where
  inside : List Char
  text : List Char
  isTag : IsTag inside
  unopened : '<' ∉ inside
  plain : '<' ∉ text

namespace Tagged

/-- A tag and the text behind it as they are written. -/
def source (tagged : Tagged) : List Char := '<' :: tagged.inside ++ '>' :: tagged.text

/-- A tag and the text behind it as they are seen. -/
def seen (tagged : Tagged) : List Char := seenOf tagged.inside ++ tagged.text

/-- They are written with a line feed for the tag if it is a line break. -/
def marked (tagged : Tagged) : List Char :=
  if IsBreak tagged.inside then '\n' :: tagged.text else tagged.source

end Tagged

/-- Where no bracket opens, nothing is a tag. -/
theorem afterTag?_of_ne {c : Char} (h : c ≠ '<') (rest : List Char) :
    afterTag? (c :: rest) = none := by
  refine Option.eq_none_iff_forall_ne_some.mpr fun behind hafter => ?_
  obtain ⟨inside, -, hcs⟩ := afterTag?_eq_some_iff.mp hafter
  exact h (List.cons.inj hcs).1

theorem afterBreak?_of_ne {c : Char} (h : c ≠ '<') (rest : List Char) :
    afterBreak? (c :: rest) = none := by
  refine Option.eq_none_iff_forall_ne_some.mpr fun behind hafter => ?_
  cases (afterTag?_of_ne h rest).symm.trans (afterTag?_of_afterBreak? hafter)

theorem dropTags_append {front : List Char} (h : '<' ∉ front) (rest : List Char) :
    dropTags (front ++ rest) = front ++ dropTags rest := by
  induction front with
  | nil => rfl
  | cons c front ih =>
      obtain ⟨hc, hfront⟩ := not_or.mp fun hor => h (List.mem_cons.mpr hor)
      rw [List.cons_append, dropTags_of_none (afterTag?_of_ne (Ne.symm hc) _), ih hfront]
      rfl

theorem breaksToLines_append {front : List Char} (h : '<' ∉ front) (rest : List Char) :
    breaksToLines (front ++ rest) = front ++ breaksToLines rest := by
  induction front with
  | nil => rfl
  | cons c front ih =>
      obtain ⟨hc, hfront⟩ := not_or.mp fun hor => h (List.mem_cons.mpr hor)
      rw [List.cons_append, breaksToLines_of_none (afterBreak?_of_ne (Ne.symm hc) _), ih hfront]
      rfl

namespace Tagged

theorem source_append (tagged : Tagged) (rest : List Char) :
    tagged.source ++ rest = '<' :: tagged.inside ++ '>' :: (tagged.text ++ rest) := by
  simp [source]

theorem breaksToLines_source (tagged : Tagged) (rest : List Char) :
    breaksToLines (tagged.source ++ rest) = tagged.marked ++ breaksToLines rest := by
  have htext := breaksToLines_append tagged.plain rest
  rw [source_append, marked]
  by_cases hbreak : IsBreak tagged.inside
  · rw [breaksToLines_of_some (afterBreak?_eq_some_iff.mpr ⟨_, hbreak, rfl⟩), htext, if_pos hbreak]
    rfl
  · have hnone : afterBreak? ('<' :: (tagged.inside ++ '>' :: (tagged.text ++ rest))) = none := by
      refine Option.eq_none_iff_forall_ne_some.mpr fun behind hafter => hbreak ?_
      exact ((afterBreak?_eq_some_iff_of_isTag tagged.isTag).mp hafter).1
    have hclosing : '<' ∉ tagged.inside ++ ['>'] := by simp [tagged.unopened]
    rw [List.cons_append, breaksToLines_of_none hnone, if_neg hbreak, source,
      List.append_cons, breaksToLines_append hclosing, htext]
    simp

theorem dropTags_marked (tagged : Tagged) (rest : List Char) :
    dropTags (tagged.marked ++ rest) = tagged.seen ++ dropTags rest := by
  have htext := dropTags_append tagged.plain rest
  rw [marked, seen, seenOf]
  by_cases hbreak : IsBreak tagged.inside
  · have hline : '<' ∉ '\n' :: tagged.text := by simp [tagged.plain]
    rw [if_pos hbreak, if_pos hbreak, dropTags_append hline]
    rfl
  · rw [if_neg hbreak, if_neg hbreak, source_append,
      dropTags_of_some (afterTag?_eq_some_iff.mpr ⟨_, tagged.isTag, rfl⟩), htext]
    rfl

end Tagged

theorem breaksToLines_flatMap (pieces : List Tagged) :
    breaksToLines (pieces.flatMap Tagged.source) = pieces.flatMap Tagged.marked := by
  induction pieces with
  | nil => rw [List.flatMap_nil, breaksToLines.eq_def]; rfl
  | cons tagged rest ih =>
      rw [List.flatMap_cons, List.flatMap_cons, tagged.breaksToLines_source, ih]

theorem dropTags_flatMap (pieces : List Tagged) :
    dropTags (pieces.flatMap Tagged.marked) = pieces.flatMap Tagged.seen := by
  induction pieces with
  | nil => rw [List.flatMap_nil, dropTags.eq_def]; rfl
  | cons tagged rest ih =>
      rw [List.flatMap_cons, List.flatMap_cons, tagged.dropTags_marked, ih]

/-- **Only the tags are taken out**, and line feeds are put in for line breaks. -/
theorem strip_source {front : List Char} (h : '<' ∉ front) (pieces : List Tagged) :
    strip (front ++ pieces.flatMap Tagged.source) = front ++ pieces.flatMap Tagged.seen := by
  rw [strip, breaksToLines_append h, breaksToLines_flatMap, dropTags_append h, dropTags_flatMap]

end Flashcards.Markup

namespace Flashcards.Filter

open Markup

/--
**The text filter leaves no tag and loses no visible text.**

It gives a result for every value, and there is no tag in it, so that a second pass gives the same.
Where every bracket that opens in a value begins a tag, each tag is replaced by a line feed if it is
a line break and left out if it is not, and all that stands around the tags is kept.
-/
theorem text_keeps_seen (ordinal : Int) (side : Side) :
    (∀ value, ∃ shown, Filter.text.apply ordinal side value = .ok shown ∧
      ¬ HoldsTag shown.toList ∧ Filter.text.apply ordinal side shown = .ok shown) ∧
    ∀ (front : List Char) (pieces : List Tagged), '<' ∉ front →
      Filter.text.apply ordinal side (String.ofList (front ++ pieces.flatMap Tagged.source))
        = .ok (String.ofList (front ++ pieces.flatMap Tagged.seen)) := by
  refine ⟨fun value => ⟨_, rfl, ?_, ?_⟩, fun front pieces hfront => ?_⟩
  · rw [String.toList_ofList]
    exact not_holdsTag_strip _
  · rw [apply, String.toList_ofList, strip_eq_self_iff.mpr (not_holdsTag_strip _)]
  · rw [apply, String.toList_ofList, strip_source hfront]

/-- Tags of a word, of a line break in capitals, of one with a blank behind its slash, which makes
it none, and of one that closes. -/
def taggedSample : List Tagged := [
  ⟨['b'], ['c'], ⟨by decide, by decide⟩, by decide, by decide⟩,
  ⟨"BR /".toList, ['d'], ⟨by decide, by decide⟩, by decide, by decide⟩,
  ⟨"br / ".toList, ['e', '>'], ⟨by decide, by decide⟩, by decide, by decide⟩,
  ⟨"/br".toList, [], ⟨by decide, by decide⟩, by decide, by decide⟩]

theorem text_keeps_seen_sample :
    Filter.text.apply 0 .question "a > b<b>c<BR />d<br / >e></br>" = .ok "a > bc\nde>\n" := by
  have hsource : "a > b<b>c<BR />d<br / >e></br>"
      = String.ofList ("a > b".toList ++ taggedSample.flatMap Tagged.source) := by decide +kernel
  have hseen : "a > bc\nde>\n"
      = String.ofList ("a > b".toList ++ taggedSample.flatMap Tagged.seen) := by decide +kernel
  rw [hsource, hseen]
  exact (text_keeps_seen 0 .question).2 "a > b".toList taggedSample (by decide)

end Flashcards.Filter
