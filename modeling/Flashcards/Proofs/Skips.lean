import Flashcards.Proofs.Views

/-!
# Cards that show nothing of their note

A standard note makes a card by each template, unless the question shows nothing of the note. Whether
it does is found by rendering the front twice: over the fields of the card, and over blank fields.
The card is left out if both give the same (`Deck.Compares`).

The blank fields are meant to be the special ones alone, as if all fields of the note were empty. But
where a note has a field with the name of a special one, this name is missing from them, so that what
the front shows of the special field counts as shown of the note. As long as no template meets such a
name (`Deck.Uncovered`), what is compared is what is meant, and a note whose fields are all empty
makes no card (`Deck.standard_skips`).
-/

namespace Flashcards

open Template

namespace Deck

variable {deck : Deck} {policy : Policy} {index : Nat} {note : Note} {template : CardTemplate}
  {card? : Option Card}

/-- What a standard note makes by a template: a card as it is rendered over the fields of the card,
or none if the front gives the same over the special fields that are not hidden. -/
def Compares (policy : Policy) (deck : Deck) (index : Nat) (note : Note) (hidden : List String)
    (template : CardTemplate) (card? : Option Card) : Prop :=
  ∃ rendered blank,
    (∀ fields, deck.Views note template.name fields →
      ((Rendering.renderCard template.front template.back fields 0).outcome
        (.uncached policy)).1 = .ok rendered) ∧
    (∀ fields, deck.Blank note template.name hidden fields →
      ((Rendering.renderSide template.front fields 0 .question).outcome
        (.uncached policy)).1 = .ok blank) ∧
    card? = if rendered.question = blank then none
      else some (deck.makeCard index note template 0 rendered)

/-- A card is compared with what its front shows over the special fields that the note does not
bind. -/
theorem compares_of_standardCard (h : deck.StandardCard policy index note template card?) :
    deck.Compares policy index note (Bindings.keys note.fields) template card? := by
  obtain ⟨rendered, blank, hrendered, hblank, hcard⟩ := h
  refine ⟨rendered, blank, fun fields hfields => ?_, fun fields hfields => ?_, hcard⟩
  · have hsame := hfields.eq (deck.views_cardFields note template.name)
    rw [Rendering.renderCard_congr hsame]
    exact hrendered
  · have hsame := hfields.eq (deck.blank_blankFields note template.name)
    rw [Rendering.renderSide_congr hsame]
    exact hblank

/-- The front names no special field that has the name of a field of the note. -/
def Uncovered (policy : Policy) (note : Note) (template : CardTemplate) : Prop :=
  ∀ front, parse policy template.front = .ok front → ∀ name ∈ front.names,
    name ∈ specialFields → name ∉ Bindings.keys note.fields

/-- Then it does not matter whether fields of the note are hidden. -/
theorem Compares.of_uncovered
    (h : deck.Compares policy index note (Bindings.keys note.fields) template card?)
    (huncovered : Uncovered policy note template) :
    deck.Compares policy index note [] template card? := by
  obtain ⟨rendered, blank, hrendered, hblank, hcard⟩ := h
  refine ⟨rendered, blank, hrendered, fun fields hfields => ?_, hcard⟩
  have hhidden := deck.blank_blankFields note template.name
  obtain ⟨front, hfront, hshown⟩ := Rendering.renderSide_ok_iff.mp (hblank _ hhidden)
  refine Rendering.renderSide_ok_iff.mpr ⟨front, hfront, ?_⟩
  rw [← hshown]
  refine Nodes.render_congr (fun name hname => ?_) 0 .question
  rw [hfields name, hhidden name, if_neg List.not_mem_nil]
  by_cases hkey : name ∈ Bindings.keys note.fields
  · have hspecial : name ∉ specialFields :=
      fun hspecial => huncovered front hfront name hname hspecial hkey
    rw [if_pos hkey, Fields.value, find?_specials_of_not_mem hspecial, Option.getD_none]
  · rw [if_neg hkey]

/-- A note whose fields are all empty shows nothing but special fields. -/
theorem Compares.eq_none_of_empty (h : deck.Compares policy index note [] template card?)
    (hempty : ∀ name, note.fields.value name = "") : card? = none := by
  obtain ⟨rendered, blank, hrendered, hblank, rfl⟩ := h
  have hviews := deck.views_cardFields note template.name
  have hspecials : deck.Blank note template.name [] (deck.cardFields note template.name) := by
    intro name
    rw [hviews name, hempty]
    exact deck.blank_specials note template.name name
  obtain ⟨front, hfront, hshown⟩ := Rendering.renderSide_ok_iff.mp (hblank _ hspecials)
  obtain ⟨-, read, -, hread, -, hasked, -⟩ := Rendering.renderCard_ok_iff.mp (hrendered _ hviews)
  obtain rfl := Except.ok.inj (hfront.symm.trans hread)
  rw [if_pos (Except.ok.inj (hasked.symm.trans hshown))]

/-- Whether a standard note returns shows in the renderings that it compares. -/
theorem exists_making_standard_iff (hkind : deck.noteType.kind = .standard) :
    (∃ made, deck.making policy index note = .ok made) ↔
      ∀ template ∈ deck.noteType.templates,
        (∃ rendered, (Rendering.renderCard template.front template.back
          (deck.cardFields note template.name) 0).plain policy = .ok rendered) ∧
        ∃ blank, (Rendering.renderSide template.front (deck.blankFields note template.name) 0
          .question).plain policy = .ok blank := by
  have hcard : ∀ template, (∃ card?, deck.StandardCard policy index note template card?) ↔
      (∃ rendered, (Rendering.renderCard template.front template.back
        (deck.cardFields note template.name) 0).plain policy = .ok rendered) ∧
      ∃ blank, (Rendering.renderSide template.front (deck.blankFields note template.name) 0
        .question).plain policy = .ok blank := by
    intro template
    constructor
    · rintro ⟨_, rendered, blank, hrendered, hblank, -⟩
      exact ⟨⟨rendered, hrendered⟩, blank, hblank⟩
    · rintro ⟨⟨rendered, hrendered⟩, blank, hblank⟩
      exact ⟨_, rendered, blank, hrendered, hblank, rfl⟩
  simp only [← hcard, ← exists_forall₂_iff, making_standard_ok_iff hkind]
  constructor
  · rintro ⟨made, cards?, hcards, -⟩
    exact ⟨cards?, hcards⟩
  · rintro ⟨cards?, hcards⟩
    exact ⟨_, cards?, hcards, rfl⟩

/--
**A standard card is left out exactly if its question shows nothing of the note.**

Whatever the renderer keeps, a standard note makes for each template, one after the other, a card
with the number zero or none. There is none exactly if the question is what the front shows over the
special fields that are not bound by the note, and that is counted. Where the front names no special
field that the note binds, it is what the front shows over all special fields; so if that holds of
all templates, a note whose fields are all empty makes no card. The note returns if all that is
compared can be rendered; where the templates can be read, it fails over the length of a numeral only.
-/
theorem standard_skips {renderer : Renderer} (hsound : renderer.Sound)
    (hkind : deck.noteType.kind = .standard) (index : Nat) (note : Note) :
    (∀ made, ((deck.renderNote index note).outcome renderer).1 = .ok made → ∃ cards?,
      List.Forall₂ (fun template card? =>
        deck.Compares renderer.policy index note (Bindings.keys note.fields) template card? ∧
          (Uncovered renderer.policy note template →
            deck.Compares renderer.policy index note [] template card?))
        deck.noteType.templates cards? ∧
      made = ⟨cards?.reduceOption, cards?.count none, 0⟩) ∧
    ((∃ made, ((deck.renderNote index note).outcome renderer).1 = .ok made) ↔
      ∀ template ∈ deck.noteType.templates,
        (∃ rendered, ((Rendering.renderCard template.front template.back
          (deck.cardFields note template.name) 0).outcome renderer).1 = .ok rendered) ∧
        ∃ blank, ((Rendering.renderSide template.front (deck.blankFields note template.name) 0
          .question).outcome renderer).1 = .ok blank) ∧
    (deck.Readable renderer.policy → ∀ failure,
      ((deck.renderNote index note).outcome renderer).1 = .error failure → failure.IsTooLong) ∧
    ((∀ name, note.fields.value name = "") →
      (∀ template ∈ deck.noteType.templates, Uncovered renderer.policy note template) →
      ∀ made, ((deck.renderNote index note).outcome renderer).1 = .ok made →
        made = ⟨[], deck.noteType.templates.length, 0⟩) := by
  simp only [outcome_renderNote hsound, (Rendering.transparent_renderCard _ _ _ _).outcome_fst hsound,
    (Rendering.transparent_renderSide _ _ _ _).outcome_fst hsound]
  refine ⟨fun made hmade => ?_, exists_making_standard_iff hkind,
    fun hreadable => making_failsOnly hreadable index note, ?_⟩
  · obtain ⟨cards?, hcards, rfl⟩ := (making_standard_ok_iff hkind).mp hmade
    refine ⟨cards?, hcards.imp fun template card? hcard => ?_, rfl⟩
    have hcompares := compares_of_standardCard hcard
    exact ⟨hcompares, hcompares.of_uncovered⟩
  · intro hempty huncovered made hmade
    obtain ⟨cards?, hcards, rfl⟩ := (making_standard_ok_iff hkind).mp hmade
    -- none of the templates makes a card
    have hnone : cards? = List.replicate deck.noteType.templates.length none := by
      refine List.eq_replicate_iff.mpr ⟨hcards.length_eq.symm, fun card? hcard? => ?_⟩
      obtain ⟨template, htemplate, hcard⟩ := exists_of_mem_forall₂ hcards hcard?
      exact ((compares_of_standardCard hcard).of_uncovered
        (huncovered template htemplate)).eq_none_of_empty hempty
    rw [hnone, List.reduceOption_replicate_none, List.count_replicate_self]

/-- A deck whose cards show the name of the deck behind what they ask. -/
def skipsSample : Deck where
  name := "D"
  noteType :=
    { name := "Basic", kind := .standard, fields := ["Front", "Back"]
      template := ⟨"C", shownTag "Front" ++ shownTag "Deck", shownTag "Back"⟩
      moreTemplates := [], css := "" }
  notes := []

/-- A note with a front makes a card, and one that is empty makes none. -/
theorem standard_skips_sample :
    (∃ made, ((skipsSample.renderNote 0 ⟨[("Front", "a")], []⟩).outcome
      Rendering.sampleRenderer).1 = .ok made ∧ made.cards.map Card.question = ["aD"]) ∧
    ∀ made, ((skipsSample.renderNote 0 ⟨[("Front", "")], []⟩).outcome
      Rendering.sampleRenderer).1 = .ok made → made = ⟨[], 1, 0⟩ := by
  have hsound : Rendering.sampleRenderer.Sound := Renderer.sound_empty .lenient 1
  have hkind : skipsSample.noteType.kind = .standard := rfl
  constructor
  · let note : Note := ⟨[("Front", "a")], []⟩
    let template := skipsSample.noteType.template
    have hcard : (Rendering.renderCard template.front template.back
        (skipsSample.cardFields note "C") 0).plain .lenient = .ok ⟨"aD", ""⟩ :=
      Rendering.renderCard_ok_iff.mpr ⟨by decide, .field ⟨"Front", []⟩ (.field ⟨"Deck", []⟩ .nil),
        .field ⟨"Back", []⟩ .nil, by cbv, by cbv, by cbv, by cbv⟩
    have hfields : skipsSample.blankFields note "C"
        = [("Tags", ""), ("Deck", "D"), ("Card", "C"), ("Type", "Basic")] := by decide +kernel
    have hblank : (Rendering.renderSide template.front (skipsSample.blankFields note "C") 0
        .question).plain .lenient = .ok "D" := by
      rw [hfields]
      exact Rendering.renderSide_ok_iff.mpr
        ⟨.field ⟨"Front", []⟩ (.field ⟨"Deck", []⟩ .nil), by cbv, by cbv⟩
    obtain ⟨hmakes, hreturns, -, -⟩ := standard_skips hsound hkind 0 note
    obtain ⟨made, hmade⟩ := hreturns.mpr (by
      simp only [(Rendering.transparent_renderCard _ _ _ _).outcome_fst hsound,
        (Rendering.transparent_renderSide _ _ _ _).outcome_fst hsound]
      exact List.forall_mem_singleton.mpr ⟨⟨_, hcard⟩, _, hblank⟩)
    obtain ⟨cards?, hcards, rfl⟩ := hmakes made hmade
    obtain ⟨_, _, ⟨⟨asked, blank, hasked, hnone, rfl⟩, -⟩, hrest, rfl⟩ :=
      List.forall₂_cons_left_iff.mp hcards
    obtain rfl := List.forall₂_nil_left_iff.mp hrest
    obtain rfl := Except.ok.inj ((hasked _ (views_cardFields _ _ _)).symm.trans hcard)
    obtain rfl := Except.ok.inj ((hnone _ (blank_blankFields _ _ _)).symm.trans hblank)
    exact ⟨_, hmade, rfl⟩
  · obtain ⟨-, -, -, hempty⟩ := standard_skips hsound hkind 0 ⟨[("Front", "")], []⟩
    refine hempty (fun name => ?_) fun template _ front _ name _ hspecial hkey => ?_
    · rw [Fields.value, Bindings.find?, Bindings.find?]
      split <;> rfl
    · obtain rfl := List.mem_singleton.mp hkey
      revert hspecial
      decide

/-- A note that binds the name of a special field makes a card that shows nothing else. -/
example : ((skipsSample.making .lenient 0 ⟨[("Deck", "")], []⟩).toOption.map
    fun made => made.cards.map Card.question) = some ["D"] := by decide +kernel

end Deck

end Flashcards
