import Flashcards.Proofs.Identities
import Flashcards.Proofs.Problems
import Flashcards.Proofs.Views
import Mathlib.Data.List.Sort

/-!
# A card for each number

A cloze note makes its cards by the first template alone, and the front says which of its fields are
looked at: those that pass through the cloze filter, at any depth of sections. The note has a number
by this front if one of them has a deletion with it (`Note.HasNumber`), be the field named once or
many times. The numbers of a note are put together field by field, sorted and without repeats, so
there is one card for each of them (`Deck.card_per_number`).

Whether there is a card at all is another question. The numbers are read from the note's own values,
but a card is rendered through all filters of its fields, and one of them may join the digits of a
number that the note does not have. Where that makes the number too long, the note fails.
-/

namespace Flashcards

open Template

/-- The fields that are looked at for deletions are those that the cloze filter is put on. -/
theorem Template.Nodes.mem_clozeFields_iff {nodes : Nodes} {name : String} :
    name ∈ nodes.clozeFields ↔ ∃ ref ∈ nodes.fieldRefs, .cloze ∈ ref.filters ∧ ref.name = name := by
  simp [clozeFields, List.mem_eraseDups, and_assoc]

/-- The cloze filter is the first to get the value of the field, and it is on it once. -/
def Template.FieldRef.Direct (ref : FieldRef) : Prop :=
  ∃ outer, ref.filters = outer ++ [.cloze] ∧ .cloze ∉ outer

/-- Then the field is overlong only if its value is. -/
theorem Template.FieldRef.Direct.overlong {ref : FieldRef} (h : ref.Direct) {context : Context}
    (hover : ref.Overlong context) : Cloze.Overlong (context.fields.value ref.name) := by
  obtain ⟨outer, hfilters, houter⟩ := h
  obtain ⟨before, inner, handed, hat, hhanded, hlong⟩ := hover
  -- what stands behind one cloze filter has no other one in it
  have hinner : inner = [] := by
    rcases List.eq_nil_or_concat inner with hempty | ⟨first, last, rfl⟩
    · exact hempty
    · rw [hfilters, List.concat_eq_append, ← List.cons_append, ← List.append_assoc] at hat
      obtain ⟨hsame, -⟩ := List.append_inj' hat rfl
      exact absurd (hsame ▸ List.mem_append_right _ List.mem_cons_self) houter
  subst hinner
  obtain rfl := Except.ok.inj hhanded
  exact hlong

namespace Cloze

/-- The value has a deletion with the number. -/
def HasNumber (value : String) (n : Nat) : Prop :=
  ∃ found, spans value = .ok found ∧ ∃ span ∈ found, span.ordinal = n

theorem mem_ordinals_iff {value : String} {numbers : List Nat} (h : ordinals value = .ok numbers)
    {n : Nat} : n ∈ numbers ↔ HasNumber value n := by
  unfold ordinals at h
  unfold HasNumber
  cases hspans : spans value with
  | error fault => rw [hspans] at h; cases h
  | ok found =>
      rw [hspans] at h
      cases h
      simp [mem_sortOrdinals]

theorem ordinals_increasing {value : String} {numbers : List Nat}
    (h : ordinals value = .ok numbers) : numbers.Pairwise (· < ·) := by
  unfold ordinals at h
  cases hspans : spans value with
  | error fault => rw [hspans] at h; cases h
  | ok found =>
      rw [hspans] at h
      cases h
      exact sortOrdinals_increasing _

end Cloze

/-- The note has the number: a field that the front passes through the cloze filter has a deletion
with it. -/
def Note.HasNumber (note : Note) (front : Nodes) (n : Nat) : Prop :=
  ∃ ref ∈ front.fieldRefs, .cloze ∈ ref.filters ∧ Cloze.HasNumber (note.fields.value ref.name) n

namespace Deck

variable {deck : Deck} {index : Nat} {note : Note}

theorem mem_noteOrdinals_iff {names : List String} {ordinals : List Nat}
    (h : noteOrdinals note names = .ok ordinals) {n : Nat} :
    n ∈ ordinals ↔ ∃ name ∈ names, Cloze.HasNumber (note.fields.value name) n := by
  induction names generalizing ordinals with
  | nil => cases h; simp
  | cons name rest ih =>
      obtain ⟨found, hfound, h⟩ := bind_eq_ok h
      obtain ⟨more, hmore, h⟩ := bind_eq_ok h
      cases h
      rw [Cloze.mem_sortOrdinals, List.mem_append, Cloze.mem_ordinals_iff hfound, ih hmore]
      simp

/-- **The numbers that cards are made for are those of the note.** -/
theorem mem_noteOrdinals_front {front : Nodes} {ordinals : List Nat}
    (h : noteOrdinals note front.clozeFields = .ok ordinals) {n : Nat} :
    n ∈ ordinals ↔ note.HasNumber front n := by
  rw [mem_noteOrdinals_iff h]
  simp only [Nodes.mem_clozeFields_iff]
  constructor
  · rintro ⟨_, ⟨ref, href, hcloze, rfl⟩, hnumber⟩
    exact ⟨ref, href, hcloze, hnumber⟩
  · rintro ⟨ref, href, hcloze, hnumber⟩
    exact ⟨ref.name, ⟨ref, href, hcloze, rfl⟩, hnumber⟩

/-- Where the front puts the cloze filter on one field only, there are as many numbers as the value
of this field makes cards. -/
theorem count_of_single {front : Nodes} {ordinals : List Nat}
    (h : noteOrdinals note front.clozeFields = .ok ordinals) {name : String}
    (hname : ∀ other, other ∈ front.clozeFields ↔ other = name) :
    Cloze.count (note.fields.value name) = .ok ordinals.length := by
  have hcountable := countable_note_iff.mpr ⟨ordinals, h⟩ name ((hname name).mpr rfl)
  obtain ⟨numbers, hnumbers⟩ :=
    (Cloze.ordinals_ok_iff _).mpr (Cloze.not_overlong_iff.mp hcountable)
  have hsame : numbers = ordinals := by
    refine (Cloze.ordinals_increasing hnumbers).eq_of_mem_iff (noteOrdinals_increasing h) ?_
    intro n
    rw [Cloze.mem_ordinals_iff hnumbers, mem_noteOrdinals_iff h]
    simp [hname]
  rw [Cloze.count, hnumbers, ← hsame]
  rfl

/-- What the note makes has one card for each of its numbers, and each card is what its template
shows for the number. -/
structure CardPerNumber (policy : Policy) (deck : Deck) (index : Nat) (note : Note)
    (front : Nodes) (made : NoteCards) : Prop where
  increasing : (made.cards.map Card.ordinal).Pairwise (· < ·)
  numbers : ∀ n, n ∈ made.cards.map Card.ordinal ↔ note.HasNumber front n
  /-- That there is no number is counted, once. -/
  skippedNoCloze : made.skippedNoCloze ≤ 1 ∧
    (made.skippedNoCloze = 1 ↔ ∀ n, ¬ note.HasNumber front n)
  skippedEmptyFront : made.skippedEmptyFront = 0
  carried : ∀ card ∈ made.cards,
    card.noteIndex = index ∧ card.template = deck.noteType.template.name ∧ card.tags = note.tags
  sides : ∀ card ∈ made.cards, ∀ fields, deck.Views note s!"Cloze {card.ordinal}" fields →
    ((Rendering.renderCard deck.noteType.template.front deck.noteType.template.back fields
      card.ordinal).outcome (.uncached policy)).1 = .ok ⟨card.question, card.answer⟩
  /-- A single field with deletions tells how many cards there are. -/
  single : ∀ name,
    (∀ other, (∃ ref ∈ front.fieldRefs, .cloze ∈ ref.filters ∧ ref.name = other) ↔ other = name) →
    Cloze.count (note.fields.value name) = .ok made.cards.length

theorem making_cardPerNumber {policy : Policy} (hkind : deck.noteType.kind = .cloze)
    {front : Nodes} (hfront : parse policy deck.noteType.template.front = .ok front)
    {made : NoteCards} (h : deck.making policy index note = .ok made) :
    deck.CardPerNumber policy index note front made := by
  obtain ⟨read, hread, ordinals, hordinals, cards, hcards, rfl⟩ :=
    (making_cloze_ok_iff hkind).mp h
  obtain rfl := Except.ok.inj (hfront.symm.trans hread)
  have hnumbers := ClozeCard.ordinals_eq hcards
  have hnone : ordinals = [] ↔ ∀ n, ¬ note.HasNumber front n := by
    simp only [List.eq_nil_iff_forall_not_mem, mem_noteOrdinals_front hordinals]
  refine ⟨?_, ?_, ?_, rfl, ?_, ?_, ?_⟩
  · rw [hnumbers]
    exact noteOrdinals_increasing hordinals
  · intro n
    rw [hnumbers, mem_noteOrdinals_front hordinals]
  · rw [← hnone]
    by_cases hempty : ordinals = []
    · simp [hempty]
    · simp [hempty]
  · intro card hcard
    obtain ⟨ordinal, -, rendered, -, rfl⟩ := exists_of_mem_forall₂ hcards hcard
    exact ⟨rfl, rfl, rfl⟩
  · intro card hcard fields hfields
    obtain ⟨ordinal, -, rendered, hrendered, rfl⟩ := exists_of_mem_forall₂ hcards hcard
    have hsame := hfields.eq (deck.views_cardFields note s!"Cloze {ordinal}")
    show (Rendering.renderCard _ _ fields (ordinal : Int)).plain policy = .ok rendered
    rw [Rendering.renderCard_congr hsame, hrendered]
  · intro name hname
    rw [← List.length_map (f := Card.ordinal), hnumbers]
    exact count_of_single hordinals fun other => Nodes.mem_clozeFields_iff.trans (hname other)

/-! ## Notes that can be rendered -/

/-- The tree puts the cloze filter on fields of the note only, and on each of them directly. -/
def DeletesDirectly (nodes : Nodes) : Prop :=
  ∀ ref ∈ nodes.fieldRefs, .cloze ∈ ref.filters → ref.Direct ∧ ref.name ∉ specialFields

/-- Such a tree is not overlong for a note whose deletions can be counted. -/
theorem DeletesDirectly.not_overlong {nodes : Nodes} (h : DeletesDirectly nodes)
    (hcount : note.Countable nodes.clozeFields) {fields : Fields}
    (hfields : ∀ name, name ∉ specialFields → fields.value name = note.fields.value name)
    (ordinal : Int) (side : Side) : ¬ nodes.Overlong ⟨fields, ordinal, side⟩ := by
  rintro ⟨ref, hshown, hover⟩
  have href := Nodes.mem_fieldRefs_of_shown hshown
  have hcloze : .cloze ∈ ref.filters :=
    not_not.mp fun hplain => ref.not_overlong_of_plain hplain _ hover
  obtain ⟨hdirect, hspecial⟩ := h ref href hcloze
  refine hcount ref.name (Nodes.mem_clozeFields_iff.mpr ⟨ref, href, hcloze, rfl⟩) ?_
  rw [← hfields ref.name hspecial]
  exact hdirect.overlong hover

/-- No card of such a note is overlong. -/
theorem not_cardOverlong_of_direct {front back : Nodes} (hfront : DeletesDirectly front)
    (hback : DeletesDirectly back) (hcount : note.Countable front.clozeFields)
    (hcount' : note.Countable back.clozeFields) (cardName : String) (ordinal : Int) :
    ¬ Rendering.CardOverlong front back (deck.cardFields note cardName) ordinal := by
  rintro (hover | ⟨question, -, hover⟩)
  · exact hfront.not_overlong hcount (fun _ => value_cardFields_of_not_mem) _ _ hover
  · refine hback.not_overlong hcount' (fun name hname => ?_) _ _ hover
    have hside : Rendering.frontSideField ≠ name := by
      rintro rfl
      exact hname List.mem_cons_self
    rw [Fields.value_bind, if_neg hside, value_cardFields_of_not_mem hname]

/--
**A cloze note makes one card for each of its numbers.**

Take a cloze deck whose first template can be read, on both sides, and any renderer that can be
trusted. What a note makes has one card for each number that the note has by the front, in increasing
order, and each card is what a renderer that keeps nothing makes of the template for that number over
the note's fields and the special ones. The note returns exactly if the deletions that are looked at
can be counted and no card shows one that cannot; it fails over the length of a numeral and in no
other way. So it always returns where both sides put the cloze filter directly on fields of the note
that can be counted.
-/
theorem card_per_number {renderer : Renderer} (hsound : renderer.Sound)
    (hkind : deck.noteType.kind = .cloze) {front back : Nodes}
    (hfront : parse renderer.policy deck.noteType.template.front = .ok front)
    (hback : parse renderer.policy deck.noteType.template.back = .ok back)
    (index : Nat) (note : Note) :
    (∀ made, ((deck.renderNote index note).outcome renderer).1 = .ok made →
      deck.CardPerNumber renderer.policy index note front made) ∧
    ((∃ made, ((deck.renderNote index note).outcome renderer).1 = .ok made) ↔
      note.Countable front.clozeFields ∧ ∀ n, note.HasNumber front n →
        ¬ Rendering.CardOverlong front back (deck.cardFields note s!"Cloze {n}") n) ∧
    (∀ failure, ((deck.renderNote index note).outcome renderer).1 = .error failure →
      failure.IsTooLong) ∧
    (DeletesDirectly front → DeletesDirectly back → note.Countable front.clozeFields →
      note.Countable back.clozeFields →
      ∃ made, ((deck.renderNote index note).outcome renderer).1 = .ok made) := by
  rw [outcome_renderNote hsound]
  have hreturns : (∃ made, deck.making renderer.policy index note = .ok made) ↔
      note.Countable front.clozeFields ∧ ∀ n, note.HasNumber front n →
        ¬ Rendering.CardOverlong front back (deck.cardFields note s!"Cloze {n}") n := by
    rw [exists_making_cloze_iff hkind hfront hback index, countable_note_iff]
    constructor
    · rintro ⟨ordinals, hordinals, hfits⟩
      exact ⟨⟨ordinals, hordinals⟩, fun n hn =>
        hfits n ((mem_noteOrdinals_front hordinals).mpr hn)⟩
    · rintro ⟨⟨ordinals, hordinals⟩, hfits⟩
      exact ⟨ordinals, hordinals, fun n hn => hfits n ((mem_noteOrdinals_front hordinals).mp hn)⟩
  refine ⟨fun made hmade => making_cardPerNumber hkind hfront hmade, hreturns,
    making_cloze_failsOnly hkind hfront hback index note, ?_⟩
  intro hdirect hdirect' hcount hcount'
  exact hreturns.mpr ⟨hcount, fun n _ =>
    not_cardOverlong_of_direct hdirect hdirect' hcount hcount' _ _⟩

/-- A deck whose front names one field twice, once inside a section, and one that no note has. -/
def numbersSample : Deck where
  name := "D"
  noteType :=
    { name := "Cloze", kind := .cloze, fields := ["Text"]
      template := ⟨"C", shownTag "#Text" ++ shownTag "cloze:Text" ++ shownTag "/Text"
        ++ shownTag "cloze:Extra" ++ shownTag "cloze:Text", shownTag "cloze:Text"⟩
      moreTemplates := [], css := "" }
  notes := []

/-- A number that occurs twice makes one card, and the numbers are sorted. -/
theorem card_per_number_sample : ∃ made,
    ((numbersSample.renderNote 0 ⟨[("Text", shownTag "c2::b" ++ shownTag "c1::a"
      ++ shownTag "c2::c")], []⟩).outcome Rendering.sampleRenderer).1 = .ok made ∧
    made.cards.map Card.ordinal = [1, 2] ∧ made.skippedNoCloze = 0 := by
  let note : Note := ⟨[("Text", shownTag "c2::b" ++ shownTag "c1::a" ++ shownTag "c2::c")], []⟩
  let front : Nodes := .block "Text" false (.field ⟨"Text", [.cloze]⟩ .nil)
    (.field ⟨"Extra", [.cloze]⟩ (.field ⟨"Text", [.cloze]⟩ .nil))
  let back : Nodes := .field ⟨"Text", [.cloze]⟩ .nil
  have hsound : Rendering.sampleRenderer.Sound := Renderer.sound_empty .lenient 1
  have hfront : parse .lenient numbersSample.noteType.template.front = .ok front := by cbv
  have hback : parse .lenient numbersSample.noteType.template.back = .ok back := by cbv
  have hordinals : noteOrdinals note front.clozeFields = .ok [1, 2] := by cbv
  have hordinals' : noteOrdinals note back.clozeFields = .ok [1, 2] := by cbv
  have hdirect : ∀ ref : FieldRef, ref.filters = [.cloze] → ref.Direct :=
    fun ref hfilters => ⟨[], hfilters, List.not_mem_nil⟩
  obtain ⟨hmakes, -, -, hreturns⟩ := card_per_number hsound rfl hfront hback 0 note
  obtain ⟨made, hmade⟩ := hreturns
    (fun ref href _ => ⟨hdirect ref (by revert ref; decide), by revert ref; decide⟩)
    (fun ref href _ => ⟨hdirect ref (by revert ref; decide), by revert ref; decide⟩)
    (countable_note_iff.mpr ⟨_, hordinals⟩) (countable_note_iff.mpr ⟨_, hordinals'⟩)
  have hcards := hmakes made hmade
  have hnumbers : made.cards.map Card.ordinal = [1, 2] := by
    refine hcards.increasing.eq_of_mem_iff (by decide) fun n => ?_
    rw [hcards.numbers, ← mem_noteOrdinals_front hordinals]
  refine ⟨made, hmade, hnumbers, ?_⟩
  have hone : note.HasNumber front 1 := (mem_noteOrdinals_front hordinals).mp (by decide)
  have hmost := hcards.skippedNoCloze.1
  have hnot : made.skippedNoCloze ≠ 1 := fun h => hcards.skippedNoCloze.2.mp h 1 hone
  omega

end Deck

end Flashcards
