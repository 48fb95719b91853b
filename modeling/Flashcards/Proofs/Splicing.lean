import Flashcards.Proofs.Occurrences

/-!
# Showing a value by its spans

What a value shows is told by its parts, one character or deletion after the other, and its spans
are told by their offsets. Both come from the same walk: a value shows what stands between its spans
as it is, and for each span what the span shows by itself (`displayParts_eq_spliced`).

A span of another number than that of the card shows its answer, so a card of a number that no span
has is the plain value, the one for the number zero. A span of the number itself has marks around
its answer, and their length is always the same. So the length of what is revealed counts the spans
of a number (`length_revealed`).
-/

namespace Flashcards.Cloze

/-! ## Text with its spans replaced -/

/-- What a span of the number of the card shows: on the question side its hint in brackets, or dots
if it has none. -/
def Span.shown (side : Side) (span : Span) : String :=
  match side with
  | .answer => span.answer
  | .question => "[" ++ span.hint.getD "..." ++ "]"

/-- What a span shows on the card of a number. -/
def Span.display (target : Nat) (side : Side) (span : Span) : String :=
  if span.ordinal = target then "<span class=\"cloze\">" ++ span.shown side ++ "</span>"
  else span.answer

/-- A text from an offset on, with something put in for each span. -/
def spliced (put : Span → String) (text : List Char) (start : Nat) : List Span → List Char
  | [] => text.drop start
  | span :: later =>
    (text.take span.start).drop start ++ (put span).toList ++ spliced put text span.stop later

variable {put other : Span → String} {text cs : List Char} {start : Nat} {found : List Span}
  {target : Nat} {side : Side}

/-- A character in front of all spans stays where it is. -/
theorem spliced_pass {c : Char} {rest : List Char} (hdrop : text.drop start = c :: rest)
    (h : Leftmost text (start + 1) found) :
    spliced put text start found = c :: spliced put text (start + 1) found := by
  cases h with
  | none => rw [spliced, spliced, drop_plain hdrop, hdrop]
  | @next _ span later hstart _ _ _ =>
      -- the span begins behind the character
      obtain ⟨n, hn⟩ := Nat.exists_eq_add_of_le hstart
      have hfront : (text.take span.start).drop start
          = c :: (text.take span.start).drop (start + 1) := by
        rw [List.drop_take, List.drop_take, drop_plain hdrop, hdrop, hn,
          show start + 1 + n - start = n + 1 by omega, Nat.add_sub_cancel_left, List.take_succ_cons]
      rw [spliced, spliced, hfront]
      rfl

theorem spliced_congr (h : ∀ span ∈ found, put span = other span) :
    spliced put text start found = spliced other text start found := by
  induction found generalizing start with
  | nil => rfl
  | cons span later ih =>
      obtain ⟨hspan, hlater⟩ := List.forall_mem_cons.mp h
      rw [spliced, spliced, hspan, ih hlater]

/-! ## What the parts show -/

/-- The span of a deletion. -/
def Deletion.span (gap : Deletion) (ordinal start stop : Nat) : Span :=
  ⟨ordinal, String.ofList gap.answer, gap.hint.map String.ofList, start, stop⟩

theorem toList_shown (gap : Deletion) (ordinal start stop : Nat) (side : Side) :
    ((gap.span ordinal start stop).shown side).toList = gap.shown side := by
  obtain ⟨digits, answer, hint⟩ := gap
  cases side with
  | answer => exact String.toList_ofList
  | question =>
      cases hint with
      | none => rfl
      | some hint =>
          show ("[" ++ String.ofList hint ++ "]").toList = '[' :: hint ++ [']']
          rw [String.toList_append, String.toList_append, String.toList_ofList (l := hint)]
          rfl

/-- A deletion shows what its span shows. -/
theorem display_deletion {gap : Deletion} {ordinal : Nat} (h : gap.ordinal = .ok ordinal)
    (target start stop : Nat) (side : Side) :
    (Part.deletion gap).display target side
      = .ok ((gap.span ordinal start stop).display target side).toList := by
  have hordinal : (gap.span ordinal start stop).ordinal = ordinal := rfl
  rw [Part.display, h, Span.display, hordinal]
  by_cases heq : ordinal = target
  · have hcast : (ordinal : Int) = target := congrArg Nat.cast heq
    rw [if_pos heq, String.toList_append, String.toList_append, toList_shown]
    show Except.ok (if (ordinal : Int) = target then _ else _) = _
    rw [if_pos hcast]
    rfl
  · have hcast : ¬ (ordinal : Int) = target := fun hint => heq (Int.ofNat_inj.mp hint)
    rw [if_neg heq]
    show Except.ok (if (ordinal : Int) = target then _ else _) = _
    rw [if_neg hcast]
    exact congrArg Except.ok String.toList_ofList.symm

/-- **A value shows the text between its spans, and what the spans show.** -/
theorem displayParts_eq_spliced (hdrop : text.drop start = cs)
    (h : spansFrom start (parts cs) = .ok found) :
    displayParts target side (parts cs)
      = .ok (spliced (Span.display target side) text start found) := by
  fun_induction parts cs generalizing start found with
  | case1 cs gap behind hgap ih =>
      rw [spansFrom] at h
      obtain ⟨ordinal, hordinal, h⟩ := bind_eq_ok h
      obtain ⟨later, hlater, h⟩ := bind_eq_ok h
      cases h
      rw [← hdrop] at hgap
      have hbehind := ih (drop_deletionAt? hgap) hlater
      have hfront : (text.take start).drop start = [] := by
        rw [List.drop_take, Nat.sub_self, List.take_zero]
      rw [displayParts, display_deletion hordinal target start (start + gap.source.length), hbehind,
        spliced]
      simp only [hfront, List.nil_append]
      rfl
  | case2 =>
      cases h
      rw [spliced, hdrop]
      rfl
  | case3 c rest hplain ih =>
      rw [spansFrom] at h
      have hrest := ih (drop_plain hdrop) h
      rw [displayParts, hrest,
        spliced_pass hdrop (leftmost_spansFrom (drop_plain hdrop) h).1]
      rfl

/-! ## What is revealed -/

theorem display_of_ne {span : Span} (h : span.ordinal ≠ target) (side : Side) :
    span.display target side = span.answer := if_neg h

/-- The marks around an answer have 27 characters. -/
theorem length_display_answer (target : Nat) (span : Span) :
    (span.display target .answer).length
      = span.answer.length + if span.ordinal = target then 27 else 0 := by
  unfold Span.display
  split
  · have hopening : "<span class=\"cloze\">".length = 20 := rfl
    have hclosing : "</span>".length = 7 := rfl
    rw [String.length_append, String.length_append, hopening, hclosing]
    show 20 + span.answer.length + 7 = span.answer.length + 27
    omega
  · rfl

/-- **What is revealed is longer by the marks around the answers of the number.** -/
theorem length_revealed (text : List Char) (start : Nat) (found : List Span) (target : Nat) :
    (spliced (Span.display target .answer) text start found).length
      = (spliced Span.answer text start found).length
        + 27 * (found.map Span.ordinal).count target := by
  induction found generalizing start with
  | nil => rfl
  | cons span later ih =>
      have hspan := length_display_answer target span
      have hlater := ih span.stop
      rw [spliced, spliced, List.map_cons, List.count_cons]
      simp only [List.length_append, String.length_toList, beq_iff_eq]
      split_ifs at hspan ⊢ <;> omega

/-! ## Values -/

variable {value : String}

theorem display_eq_spliced (h : spans value = .ok found) (target : Nat) (side : Side) :
    display target side value
      = .ok (String.ofList (spliced (Span.display target side) value.toList 0 found)) := by
  rw [display, displayParts_eq_spliced List.drop_zero h]
  rfl

/-- A number that no span has shows only the answers. -/
theorem display_of_not_mem (h : spans value = .ok found) (hnot : target ∉ found.map Span.ordinal)
    (side : Side) :
    display target side value
      = .ok (String.ofList (spliced Span.answer value.toList 0 found)) := by
  have hanswers : ∀ span ∈ found, span.display target side = span.answer := by
    intro span hspan
    refine display_of_ne (fun heq => hnot ?_) side
    exact heq ▸ List.mem_map_of_mem hspan
  rw [display_eq_spliced h, spliced_congr hanswers]

/-- Numbers begin with one. -/
theorem zero_not_mem_of_spans (h : spans value = .ok found) : 0 ∉ found.map Span.ordinal := by
  intro hmem
  obtain ⟨span, hspan, hordinal⟩ := List.mem_map.mp hmem
  have hpositive := ((leftmost_spansFrom List.drop_zero h).2 span hspan).positive
  omega

/--
**What a value shows is its text with the spans replaced.**

A value of which all numbers can be read shows on each card the text between its spans and, in
their places, what the spans show. The card of the number zero shows the answers alone on both
sides, and so does the card of any number that the value does not have. The numbers that it has are
those whose answer side is different, and it is longer then by 27 characters for each span of the
number.
-/
theorem display_splices (hfits : ¬ Overlong value) :
    ∃ found numbers plain, spans value = .ok found ∧ ordinals value = .ok numbers ∧
      (∀ side, display 0 side value = .ok plain) ∧
      ∀ target : Nat,
        (∀ side, display target side value
          = .ok (String.ofList (spliced (Span.display target side) value.toList 0 found))) ∧
        (∃ revealed, display target .answer value = .ok revealed ∧
          (target ∈ numbers ↔ revealed ≠ plain) ∧
          revealed.length = plain.length + 27 * (found.map Span.ordinal).count target) ∧
        (target ∉ numbers → ∀ side, display target side value = .ok plain) := by
  obtain ⟨found, hfound⟩ := spans_ok_iff.mpr hfits
  have hnumbers : ordinals value = .ok (sortOrdinals (found.map Span.ordinal)) := by
    rw [ordinals, hfound]
    rfl
  refine ⟨found, _, _, hfound, hnumbers, display_of_not_mem hfound (zero_not_mem_of_spans hfound),
    fun target => ⟨display_eq_spliced hfound target,
      ⟨_, display_eq_spliced hfound target .answer, ?_, ?_⟩, fun hnot => ?_⟩⟩
  · rw [mem_sortOrdinals]
    constructor
    · -- the marks of at least one span make the text longer
      intro hmem heq
      have hcount := List.count_pos_iff.mpr hmem
      have hlength := length_revealed value.toList 0 found target
      rw [String.ofList_injective heq] at hlength
      omega
    · intro hne
      by_contra hnot
      have hplain := display_of_not_mem hfound hnot .answer
      rw [display_eq_spliced hfound] at hplain
      exact hne (Except.ok.inj hplain)
  · rw [String.length_ofList, String.length_ofList]
    exact length_revealed value.toList 0 found target
  · exact display_of_not_mem hfound (mt mem_sortOrdinals.mpr hnot)

/-- A value with two spans of one number, the first with an empty hint, around one with an empty
answer. -/
def splicingSample : String :=
  "x" ++ writing 1 "a" (some "") ++ writing 2 "" none ++ writing 1 "b" none

theorem display_splices_sample :
    ¬ Overlong splicingSample ∧ ∃ plain revealed,
      (∀ side, display 0 side splicingSample = .ok plain) ∧
      (∀ side, display (3 : Nat) side splicingSample = .ok plain) ∧
      display (1 : Nat) .answer splicingSample = .ok revealed ∧ revealed ≠ plain ∧
      revealed.length = plain.length + 54 := by
  have hfits : ¬ Overlong splicingSample := by
    refine not_overlong_of_occursAt fun start digits run hoccurs => ?_
    exact Nat.le_trans hoccurs.length_le (by decide +kernel)
  have hspans : spans splicingSample
      = .ok [⟨1, "a", some "", 1, 12⟩, ⟨2, "", none, 12, 20⟩, ⟨1, "b", none, 20, 29⟩] := by
    decide +kernel
  have hordinals : ordinals splicingSample = .ok [1, 2] := by decide +kernel
  obtain ⟨found, numbers, plain, hfound, hnumbers, hplain, htargets⟩ := display_splices hfits
  obtain rfl := Except.ok.inj (hfound.symm.trans hspans)
  obtain rfl := Except.ok.inj (hnumbers.symm.trans hordinals)
  obtain ⟨-, ⟨revealed, hrevealed, hdiffers, hlength⟩, -⟩ := htargets 1
  exact ⟨hfits, plain, revealed, hplain, (htargets 3).2.2 (by decide), hrevealed,
    hdiffers.mp (by decide), hlength⟩

end Flashcards.Cloze
