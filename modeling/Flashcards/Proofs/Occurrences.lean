import Flashcards.Proofs.Deletions
import Flashcards.Proofs.Overlong

/-!
# Where deletions are found

A text may have deletions written at many offsets, and some of these overlap: the answer of one may
hold the beginning of another. Those that count are chosen from left to right, each at the first
offset behind the one in front of it (`Leftmost`), and no other description of them is needed. The
walk over the parts of a value makes this choice, and for each choice it gives the number, the
answer and the hint from which the piece of text between its offsets is written
(`leftmost_spansFrom`).

In the other direction a text may be put together from deletions and plain stretches without an
opening brace. Then the choice can only be the deletions it was put together from
(`spans_joined_iff`).
-/

namespace Flashcards.Cloze

open Text

/-! ## Offsets at which a deletion is written -/

/-- At an offset of a text stand two opening braces and a `c`, a number without a zero in front, two
colons, and a run of characters up to two closing braces. -/
structure OccursAt (cs : List Char) (start : Nat) (digits run : List Char) : Prop where
  written : Numeral.Written digits
  closed : '}' ∉ run
  here : '{' :: '{' :: 'c' :: (digits ++ ':' :: ':' :: (run ++ ['}', '}'])) <+: cs.drop start

/-- A deletion is written at an offset. -/
def Occurs (cs : List Char) (start : Nat) : Prop := ∃ digits run, OccursAt cs start digits run

variable {cs text digits run : List Char} {start : Nat} {found : List Span}

/-- A deletion is written where one is found at the front of what is left. -/
theorem occursAt_iff :
    OccursAt cs start digits run ↔ ∃ gap behind, deletionAt? (cs.drop start) = some (gap, behind) ∧
      gap.digits = digits ∧ gap.content = run := by
  constructor
  · rintro ⟨hwritten, hclosed, behind, hbehind⟩
    cases hparts : partHint run with
    | mk answer hint =>
        obtain ⟨hcontent, hparted⟩ := partHint_eq_iff.mp hparts
        have hproper : Deletion.Proper ⟨digits, answer, hint⟩ :=
          ⟨hwritten, by rwa [hcontent] at hclosed, hparted⟩
        refine ⟨⟨digits, answer, hint⟩, behind, ?_, rfl, hcontent.symm⟩
        rw [deletionAt?_eq_some_iff, Deletion.source_eq, Deletion.content, ← hcontent]
        exact ⟨hproper, hbehind.symm⟩
  · rintro ⟨gap, behind, hfound, rfl, rfl⟩
    obtain ⟨hproper, hdrop⟩ := deletionAt?_eq_some_iff.mp hfound
    refine ⟨hproper.written, hproper.closed, behind, ?_⟩
    rw [hdrop, Deletion.source_eq]

theorem OccursAt.length_le (h : OccursAt cs start digits run) : digits.length ≤ cs.length := by
  have hlength := h.here.length_le
  simp only [List.length_cons, List.length_append, List.length_drop] at hlength
  omega

theorem occurs_of_deletionAt? {gap : Deletion} {behind : List Char}
    (h : deletionAt? (cs.drop start) = some (gap, behind)) : Occurs cs start :=
  ⟨gap.digits, gap.content, occursAt_iff.mpr ⟨gap, behind, h, rfl, rfl⟩⟩

theorem not_occurs_of_deletionAt? (h : deletionAt? (cs.drop start) = none) : ¬ Occurs cs start := by
  rintro ⟨digits, run, hoccurs⟩
  obtain ⟨gap, behind, hfound, -, -⟩ := occursAt_iff.mp hoccurs
  rw [h] at hfound
  cases hfound

/-! ## Choosing from left to right -/

/-- Spans are chosen from an offset on: each begins at the first offset at which a deletion is
written and that is not in front of the end of the last one, until there is none. -/
inductive Leftmost (cs : List Char) : Nat → List Span → Prop
  | none {start : Nat} : (∀ i, start ≤ i → ¬ Occurs cs i) → Leftmost cs start []
  | next {start : Nat} {span : Span} {later : List Span} : start ≤ span.start →
      Occurs cs span.start → (∀ i, start ≤ i → i < span.start → ¬ Occurs cs i) →
      Leftmost cs span.stop later → Leftmost cs start (span :: later)

/-- An offset without a deletion may be passed over. -/
theorem Leftmost.pass (hnone : ¬ Occurs cs start) (h : Leftmost cs (start + 1) found) :
    Leftmost cs start found := by
  have hbehind : ∀ i, start ≤ i → i ≠ start → start + 1 ≤ i := by omega
  cases h with
  | none hrest =>
      refine .none fun i hi => ?_
      by_cases heq : i = start
      · exact heq ▸ hnone
      · exact hrest i (hbehind i hi heq)
  | next hstart hoccurs hleast hlater =>
      refine .next (by omega) hoccurs (fun i hi hlt => ?_) hlater
      by_cases heq : i = start
      · exact heq ▸ hnone
      · exact hleast i (hbehind i hi heq) hlt

/-! ## Writing a deletion from its number -/

/-- A deletion in writing. -/
def writing (ordinal : Nat) (answer : String) (hint : Option String) : String :=
  "\x7b\x7bc" ++ toString ordinal ++ "::" ++ answer
    ++ (match hint with
      | none => ""
      | some hint => "::" ++ hint)
    ++ "\x7d\x7d"

/-- The deletion that is written so. -/
def Deletion.ofNumber (ordinal : Nat) (answer : String) (hint : Option String) : Deletion :=
  ⟨Nat.toDigits 10 ordinal, answer.toList, hint.map String.toList⟩

theorem toList_writing (ordinal : Nat) (answer : String) (hint : Option String) :
    (writing ordinal answer hint).toList = (Deletion.ofNumber ordinal answer hint).source := by
  cases hint with
  | none => simp [writing, Deletion.ofNumber, Deletion.source]
  | some hint => simp [writing, Deletion.ofNumber, Deletion.source]

/-- A span says what is written between its offsets. -/
structure Span.Spells (text : List Char) (span : Span) : Prop where
  /-- The piece of the text is the deletion in writing. -/
  slice : (text.take span.stop).drop span.start
    = (writing span.ordinal span.answer span.hint).toList
  /-- The span ends in the text. -/
  inside : span.stop ≤ text.length
  /-- Numbers begin with one. -/
  positive : 1 ≤ span.ordinal
  /-- The run ends at the end of the span. -/
  closed : '}' ∉ span.answer.toList ∧ ∀ hint ∈ span.hint, '}' ∉ hint.toList
  /-- The answer ends in front of the first pair of colons. -/
  parted : NoPair ':' span.answer.toList

/-- A deletion that was found can be written from its number. -/
theorem Deletion.Proper.ofNumber_eq {gap : Deletion} (h : gap.Proper) {ordinal : Nat}
    (hordinal : gap.ordinal = .ok ordinal) :
    Deletion.ofNumber ordinal (String.ofList gap.answer) (gap.hint.map String.ofList) = gap := by
  obtain ⟨digits, answer, hint⟩ := gap
  have hdigits : Nat.toDigits 10 ordinal = digits := by
    rw [Deletion.ordinal_ok hordinal]
    exact h.written.toDigits_value
  simp [ofNumber, hdigits, Function.comp_def]

/-- The span of a deletion that is found at an offset. -/
theorem spells_of_deletionAt? {gap : Deletion} {behind : List Char} {ordinal : Nat}
    (h : deletionAt? (text.drop start) = some (gap, behind))
    (hordinal : gap.ordinal = .ok ordinal) :
    Span.Spells text ⟨ordinal, String.ofList gap.answer, gap.hint.map String.ofList, start,
      start + gap.source.length⟩ := by
  obtain ⟨hproper, hdrop⟩ := deletionAt?_eq_some_iff.mp h
  refine ⟨?_, ?_, ?_, ?_, ?_⟩
  · rw [toList_writing, hproper.ofNumber_eq hordinal, List.drop_take, Nat.add_sub_cancel_left,
      hdrop, List.take_left]
  · -- a deletion is not empty, so it does not begin behind the text
    have hlength := congrArg List.length hdrop
    have hsource : 0 < gap.source.length := by simp [gap.source_eq]
    simp only [List.length_drop, List.length_append] at hlength
    show start + gap.source.length ≤ text.length
    omega
  · rw [Deletion.ordinal_ok hordinal]
    exact hproper.written.value_pos
  · have hclosed := hproper.closed
    obtain ⟨digits, answer, hint⟩ := gap
    cases hint with
    | none => exact ⟨by simpa [Deletion.content, joinHint] using hclosed, by simp⟩
    | some hint => simpa [Deletion.content, joinHint, not_or] using hclosed
  · rw [String.toList_ofList]
    exact hproper.parted.noPair

/-! ## The walk over the parts -/

/-- What is left behind a deletion. -/
theorem drop_deletionAt? {gap : Deletion} {behind : List Char}
    (h : deletionAt? (text.drop start) = some (gap, behind)) :
    text.drop (start + gap.source.length) = behind := by
  rw [← List.drop_drop, (deletionAt?_eq_some_iff.mp h).2, List.drop_left]

/-- What is left behind a character. -/
theorem drop_plain {c : Char} {rest : List Char} (h : text.drop start = c :: rest) :
    text.drop (start + 1) = rest := by
  rw [← List.drop_drop, h]
  rfl

/-- **The walk chooses from left to right, and tells what is written there.** -/
theorem leftmost_spansFrom (hdrop : text.drop start = cs)
    (h : spansFrom start (parts cs) = .ok found) :
    Leftmost text start found ∧ ∀ span ∈ found, span.Spells text := by
  fun_induction parts cs generalizing start found with
  | case1 cs gap behind hgap ih =>
      rw [spansFrom] at h
      obtain ⟨ordinal, hordinal, h⟩ := bind_eq_ok h
      obtain ⟨later, hlater, h⟩ := bind_eq_ok h
      cases h
      rw [← hdrop] at hgap
      obtain ⟨hleft, hspells⟩ := ih (drop_deletionAt? hgap) hlater
      have hleast : ∀ i, start ≤ i → i < start → ¬ Occurs text i :=
        fun i hi hlt => absurd hi (Nat.not_le_of_lt hlt)
      exact ⟨.next (Nat.le_refl _) (occurs_of_deletionAt? hgap) hleast hleft,
        List.forall_mem_cons.mpr ⟨spells_of_deletionAt? hgap hordinal, hspells⟩⟩
  | case2 hnone =>
      cases h
      refine ⟨.none fun i hi => not_occurs_of_deletionAt? ?_, by simp⟩
      rw [List.drop_eq_nil_of_le (Nat.le_trans (List.drop_eq_nil_iff.mp hdrop) hi)]
      exact hnone
  | case3 c rest hplain ih =>
      rw [spansFrom] at h
      obtain ⟨hleft, hspells⟩ := ih (drop_plain hdrop) h
      rw [← hdrop] at hplain
      exact ⟨hleft.pass (not_occurs_of_deletionAt? hplain), hspells⟩

theorem spans_ok_iff {value : String} :
    (∃ found, spans value = .ok found) ↔ ¬ Overlong value := by
  rw [not_overlong_iff, ← ordinals_ok_iff, ordinals]
  cases spans value <;> simp [Except.map]

/-- What the walk looks at is written somewhere. -/
theorem occursAt_of_mem_parts (hdrop : text.drop start = cs) {gap : Deletion}
    (h : Part.deletion gap ∈ parts cs) : ∃ i run, OccursAt text i gap.digits run := by
  fun_induction parts cs generalizing start with
  | case1 cs first behind hfirst ih =>
      rw [← hdrop] at hfirst
      rcases List.mem_cons.mp h with hhead | hrest
      · cases hhead
        exact ⟨start, gap.content, occursAt_iff.mpr ⟨gap, behind, hfirst, rfl, rfl⟩⟩
      · exact ih (drop_deletionAt? hfirst) hrest
  | case2 => cases h
  | case3 c rest hplain ih =>
      rcases List.mem_cons.mp h with hhead | hrest
      · cases hhead
      · exact ih (drop_plain hdrop) hrest

/-- A text in which no number is too long has no deletion of such a number. -/
theorem not_overlong_of_occursAt {value : String}
    (h : ∀ start digits run, OccursAt value.toList start digits run →
      digits.length ≤ Numeral.digitLimit) : ¬ Overlong value := by
  rw [not_overlong_iff]
  intro gap hmem
  obtain ⟨i, run, hoccurs⟩ := occursAt_of_mem_parts List.drop_zero hmem
  exact h i gap.digits run hoccurs

/-! ## Texts put together from deletions -/

/-- A deletion by its number, and the plain text behind it. -/
structure Stretch where
  ordinal : Nat
  answer : String
  hint : Option String
  gap : String
  deriving DecidableEq, Repr

namespace Stretch

/-- What the deletion is written as. -/
def source (stretch : Stretch) : String := writing stretch.ordinal stretch.answer stretch.hint

/-- The deletion can be told from what is around it. -/
structure Fits (stretch : Stretch) : Prop where
  positive : 1 ≤ stretch.ordinal
  answer : '}' ∉ stretch.answer.toList ∧ NoPair ':' stretch.answer.toList
  /-- The colons in front of a hint are the first pair. -/
  edge : stretch.hint ≠ none → stretch.answer.toList.getLast? ≠ some ':'
  hint : ∀ hint ∈ stretch.hint, '}' ∉ hint.toList
  /-- No deletion begins in the plain text. -/
  gap : '{' ∉ stretch.gap.toList

/-- The deletion itself. -/
def deletion (stretch : Stretch) : Deletion :=
  .ofNumber stretch.ordinal stretch.answer stretch.hint

theorem Fits.proper {stretch : Stretch} (h : stretch.Fits) : stretch.deletion.Proper := by
  obtain ⟨ordinal, answer, hint, gap⟩ := stretch
  obtain ⟨hclosed, hpair⟩ := h.answer
  refine ⟨Numeral.written_toDigits h.positive, ?_, ?_⟩
  · cases hint with
    | none => exact hclosed
    | some hint =>
        have hhint : '}' ∉ hint.toList := h.hint hint rfl
        simp only [deletion, Deletion.ofNumber, Deletion.content, Option.map_some, joinHint,
          List.mem_append, List.mem_cons, not_or]
        exact ⟨hclosed, by decide, by decide, hhint⟩
  · cases hint with
    | none => exact hpair
    | some hint => exact noPair_append_mark.mpr ⟨hpair, h.edge (by simp)⟩

/-- The number of the deletion is read again, if it is not too long. -/
theorem ordinal_deletion (stretch : Stretch) :
    stretch.deletion.ordinal
      = if Numeral.digitLimit < (toString stretch.ordinal).length
        then .error (.tooLong (toString stretch.ordinal).length) else .ok stretch.ordinal := by
  have hdigits : (toString stretch.ordinal).length = (Nat.toDigits 10 stretch.ordinal).length := by
    rw [Nat.toString_eq_ofList_toDigits, String.length_ofList]
  rw [deletion, Deletion.ofNumber, Deletion.ordinal, Numeral.ofDigits, Numeral.value_toDigits,
    hdigits]

end Stretch

/-- The text that begins with a plain piece and goes on with deletions, each with the plain text
behind it. -/
def joinedText (gap : String) : List Stretch → String
  | [] => gap
  | stretch :: rest => gap ++ stretch.source ++ joinedText stretch.gap rest

/-- The spans of deletions that are written from an offset on. -/
def spansAt (start : Nat) : List Stretch → List Span
  | [] => []
  | stretch :: rest =>
    ⟨stretch.ordinal, stretch.answer, stretch.hint, start, start + stretch.source.length⟩
      :: spansAt (start + stretch.source.length + stretch.gap.length) rest

/-- The parts of deletions with plain text behind them. -/
def stretchParts (stretches : List Stretch) : List Part :=
  stretches.flatMap fun stretch => .deletion stretch.deletion :: stretch.gap.toList.map .plain

/-- The parts of such a text are those it was put together from. -/
theorem parts_joinedText {gap : String} (hgap : '{' ∉ gap.toList) {stretches : List Stretch}
    (h : ∀ stretch ∈ stretches, stretch.Fits) :
    parts (joinedText gap stretches).toList
      = gap.toList.map .plain ++ stretchParts stretches := by
  induction stretches generalizing gap with
  | nil =>
      have hparts := parts_append_of_not_mem hgap []
      rwa [parts_eq_nil_iff.mpr rfl, List.append_nil] at hparts
  | cons stretch rest ih =>
      obtain ⟨hfits, hrest⟩ := List.forall_mem_cons.mp h
      have htext : (joinedText gap (stretch :: rest)).toList
          = gap.toList ++ (stretch.deletion.source ++ (joinedText stretch.gap rest).toList) := by
        rw [joinedText, String.toList_append, String.toList_append, Stretch.source, toList_writing,
          List.append_assoc]
        rfl
      rw [htext, parts_append_of_not_mem hgap, parts_of_deletionAt? (hfits.proper.deletionAt? _),
        ih hfits.gap hrest, stretchParts, stretchParts, List.flatMap_cons, List.cons_append]

theorem spansFrom_plain (start : Nat) (front : List Char) (rest : List Part) :
    spansFrom start (front.map .plain ++ rest) = spansFrom (start + front.length) rest := by
  induction front generalizing start with
  | nil => rfl
  | cons c front ih =>
      rw [List.map_cons, List.cons_append, spansFrom, ih, List.length_cons]
      congr 1
      omega

/-- The walk gives the deletions that were put there, if all their numbers can be read. -/
theorem spansFrom_stretchParts (stretches : List Stretch) (start : Nat) (found : List Span) :
    spansFrom start (stretchParts stretches) = .ok found ↔
      (∀ stretch ∈ stretches, (toString stretch.ordinal).length ≤ Numeral.digitLimit) ∧
        found = spansAt start stretches := by
  induction stretches generalizing start found with
  | nil => simp [stretchParts, spansFrom, spansAt, eq_comm]
  | cons stretch rest ih =>
      have hlength : stretch.deletion.source.length = stretch.source.length := by
        rw [Stretch.source, ← String.length_toList, toList_writing]
        rfl
      have hparts : stretchParts (stretch :: rest)
          = .deletion stretch.deletion :: (stretch.gap.toList.map .plain ++ stretchParts rest) :=
        rfl
      simp only [hparts, spansFrom, spansFrom_plain, hlength, String.length_toList,
        List.forall_mem_cons, spansAt, stretch.ordinal_deletion]
      by_cases hlong : Numeral.digitLimit < (toString stretch.ordinal).length
      · rw [if_pos hlong]
        constructor
        · intro h
          cases h
        · rintro ⟨⟨hshort, -⟩, -⟩
          exact absurd hlong (Nat.not_lt_of_le hshort)
      · rw [if_neg hlong]
        constructor
        · intro h
          obtain ⟨ordinal, hordinal, h⟩ := bind_eq_ok h
          obtain ⟨later, hlater, h⟩ := bind_eq_ok h
          cases hordinal
          cases h
          obtain ⟨hrest, rfl⟩ := (ih _ _).mp hlater
          exact ⟨⟨Nat.le_of_not_lt hlong, hrest⟩, by simp [Stretch.deletion, Deletion.ofNumber]⟩
        · rintro ⟨⟨-, hrest⟩, rfl⟩
          have hlater := (ih (start + stretch.source.length + stretch.gap.length) _).mpr
            ⟨hrest, rfl⟩
          simp only [bind, Except.bind, hlater]
          simp [Stretch.deletion, Deletion.ofNumber]

/-- **A text that is put together from deletions has the spans of these, and no others.** -/
theorem spans_joined_iff {gap : String} (hgap : '{' ∉ gap.toList) {stretches : List Stretch}
    (h : ∀ stretch ∈ stretches, stretch.Fits) (found : List Span) :
    spans (joinedText gap stretches) = .ok found ↔
      (∀ stretch ∈ stretches, (toString stretch.ordinal).length ≤ Numeral.digitLimit) ∧
        found = spansAt gap.length stretches := by
  rw [spans, parts_joinedText hgap h, spansFrom_plain, spansFrom_stretchParts, Nat.zero_add,
    String.length_toList]

/--
**The spans of a value are the deletions that are found from left to right.**

In a text without a number that is too long, they are chosen one after the other, each at the first
offset behind the last one at which a deletion is written, and what a span says is what is written
there. A text put together from deletions and plain pieces without an opening brace has the spans of
these deletions, at the offsets where they were put, as long as no number among them is too long.
-/
theorem spans_leftmost :
    (∀ value : String,
      (∀ start digits run, OccursAt value.toList start digits run →
        digits.length ≤ Numeral.digitLimit) →
      ∃ found, spans value = .ok found ∧ Leftmost value.toList 0 found ∧
        ∀ span ∈ found, span.Spells value.toList) ∧
    ∀ (gap : String) (stretches : List Stretch), '{' ∉ gap.toList →
      (∀ stretch ∈ stretches, stretch.Fits) → ∀ found,
      (spans (joinedText gap stretches) = .ok found ↔
        (∀ stretch ∈ stretches, (toString stretch.ordinal).length ≤ Numeral.digitLimit) ∧
          found = spansAt gap.length stretches) := by
  refine ⟨fun value hshort => ?_, fun gap stretches hgap h found => spans_joined_iff hgap h found⟩
  obtain ⟨found, hfound⟩ := spans_ok_iff.mpr (not_overlong_of_occursAt hshort)
  exact ⟨found, hfound, leftmost_spansFrom List.drop_zero hfound⟩

/-- The second deletion begins inside the first one and is not chosen; in the other text a hint
begins with a colon, and a number is too large for a machine word. -/
theorem spans_leftmost_sample :
    (∃ found, spans ("\x7b\x7bc1::a" ++ writing 2 "b" none) = .ok found ∧
      Leftmost ("\x7b\x7bc1::a" ++ writing 2 "b" none).toList 0 found ∧
      ∀ span ∈ found, span.Spells ("\x7b\x7bc1::a" ++ writing 2 "b" none).toList) ∧
    spans (joinedText "\x7d" [⟨1, "Rome", some ":city", " "⟩, ⟨2 ^ 64, ":", none, ""⟩])
      = .ok (spansAt 1 [⟨1, "Rome", some ":city", " "⟩, ⟨2 ^ 64, ":", none, ""⟩]) := by
  have hrome : Stretch.Fits ⟨1, "Rome", some ":city", " "⟩ :=
    ⟨by decide, ⟨by decide, cutAtPair_eq_none_iff.mp (by decide)⟩, fun _ => by decide, by simp,
      by decide⟩
  have hcolon : Stretch.Fits ⟨2 ^ 64, ":", none, ""⟩ :=
    ⟨by decide, ⟨by decide, cutAtPair_eq_none_iff.mp (by decide)⟩, fun h => absurd rfl h, by simp,
      by decide⟩
  have hfits := List.forall_mem_cons.mpr ⟨hrome, List.forall_mem_singleton.mpr hcolon⟩
  obtain ⟨hchosen, hjoined⟩ := spans_leftmost
  refine ⟨hchosen _ fun start digits run hoccurs => ?_,
    (hjoined _ _ (by decide) hfits _).mpr ⟨by decide, rfl⟩⟩
  exact Nat.le_trans hoccurs.length_le (by decide)

end Flashcards.Cloze
