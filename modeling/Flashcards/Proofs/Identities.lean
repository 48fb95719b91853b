import Flashcards.Proofs.Making
import Flashcards.Proofs.Text

/-!
# Cards by their ids

The id of a card is the digest of a text that names the deck, the note, the template and the number
of the card. Bars stand between the four, and names may hold bars themselves, but the text can still
be taken apart: the name of the deck is the same for all cards, the two numbers have no bar in their
digits, and what is left in the middle is the name of the template (`Identity.cardPayload_inj`). So
as long as no two of these texts have one digest, two cards share an id exactly if they agree in
note, template name and number.

A note makes its cards for numbers that increase, or by one template after the other, each with the
number zero. The cards of a cloze deck are therefore told apart by their ids, and those of a standard
deck as far as its templates are told apart by their names (`Deck.cards_told_apart`).
-/

namespace Flashcards

open Template

/-! ## Describing texts -/

namespace Identity

theorem toList_toString_natCast (n : Nat) : (toString (n : Int)).toList = Nat.toDigits 10 n := by
  rw [Int.toString_eq_repr, Int.repr_eq_if, if_pos (Int.natCast_nonneg n), Int.toNat_natCast,
    Nat.toList_repr]

theorem toDigits_inj {n m : Nat} (h : Nat.toDigits 10 n = Nat.toDigits 10 m) : n = m := by
  rw [← Nat.ofDigitChars_ten_toDigits (n := n), h, Nat.ofDigitChars_ten_toDigits]

theorem bar_not_mem_toDigits (n : Nat) : '|' ∉ Nat.toDigits 10 n := by
  intro h
  have := Nat.isDigit_of_mem_toDigits (by decide) (by decide) h
  revert this
  decide

theorem toList_cardPayload (deckName template : String) (index ordinal : Nat) :
    (cardPayload deckName index template ordinal).toList
      = deckName.toList ++ '|' :: (Nat.toDigits 10 index ++ '|' ::
        (template.toList ++ '|' :: Nat.toDigits 10 ordinal)) := by
  rw [← toList_toString_natCast index, ← toList_toString_natCast ordinal]
  simp only [cardPayload, String.toList_append, List.append_assoc]
  rfl

/-- **A describing text tells which note, template and number it is about.** -/
theorem cardPayload_inj {deckName template template' : String}
    {index index' ordinal ordinal' : Nat} :
    cardPayload deckName index template ordinal = cardPayload deckName index' template' ordinal'
      ↔ index = index' ∧ template = template' ∧ ordinal = ordinal' := by
  constructor
  · intro h
    have hchars := congrArg String.toList h
    rw [toList_cardPayload, toList_cardPayload] at hchars
    have hchars := (List.cons.inj (List.append_cancel_left hchars)).2
    obtain ⟨hindex, hchars⟩ :=
      Text.before_mark_inj (bar_not_mem_toDigits _) (bar_not_mem_toDigits _) hchars
    obtain ⟨htemplate, hordinal⟩ :=
      Text.behind_mark_inj (bar_not_mem_toDigits _) (bar_not_mem_toDigits _) hchars
    exact ⟨toDigits_inj hindex, String.toList_injective htemplate, toDigits_inj hordinal⟩
  · rintro ⟨rfl, rfl, rfl⟩
    rfl

/-! ## Bytes in hexadecimal digits -/

theorem hexDigits_two_inj {a b : UInt8}
    (h : Text.hexDigits 2 a.toNat = Text.hexDigits 2 b.toNat) : a = b := by
  have hdigit : ∀ n < 16, ∀ m < 16, Text.hexDigit n = Text.hexDigit m → n = m := by decide
  obtain ⟨hhigh, hlow⟩ : Text.hexDigit (a.toNat / 16 % 16) = Text.hexDigit (b.toNat / 16 % 16) ∧
      Text.hexDigit (a.toNat % 16) = Text.hexDigit (b.toNat % 16) := by
    simpa [Text.hexDigits] using h
  have hhigh := hdigit _ (Nat.mod_lt _ (by decide)) _ (Nat.mod_lt _ (by decide)) hhigh
  have hlow := hdigit _ (Nat.mod_lt _ (by decide)) _ (Nat.mod_lt _ (by decide)) hlow
  have ha := a.toNat_lt
  have hb := b.toNat_lt
  exact UInt8.toNat_inj.mp (by omega)

/-- Different bytes have different hexadecimal digits. -/
theorem hexText_injective : Function.Injective hexText := by
  intro bytes bytes' h
  replace h := String.ofList_injective h
  induction bytes generalizing bytes' with
  | nil =>
      cases bytes' with
      | nil => rfl
      | cons byte rest => cases h
  | cons byte rest ih =>
      cases bytes' with
      | nil => cases h
      | cons byte' rest' =>
          rw [List.flatMap_cons, List.flatMap_cons] at h
          obtain ⟨hbyte, hrest⟩ := List.append_inj h rfl
          rw [hexDigits_two_inj hbyte, ih hrest]

end Identity

/-! ## Numbers in increasing order -/

namespace Cloze

theorem insertOrdinal_increasing (n : Nat) {numbers : List Nat}
    (h : numbers.Pairwise (· < ·)) : (insertOrdinal n numbers).Pairwise (· < ·) := by
  induction numbers with
  | nil => exact List.pairwise_singleton _ n
  | cons m rest ih =>
      obtain ⟨hfirst, hrest⟩ := List.pairwise_cons.mp h
      rw [insertOrdinal]
      split
      · rename_i hlt
        refine List.pairwise_cons.mpr ⟨?_, h⟩
        intro k hk
        rcases List.mem_cons.mp hk with rfl | hk
        · exact hlt
        · exact Nat.lt_trans hlt (hfirst k hk)
      · split
        · exact h
        · refine List.pairwise_cons.mpr ⟨?_, ih hrest⟩
          intro k hk
          rcases mem_insertOrdinal.mp hk with rfl | hk
          · omega
          · exact hfirst k hk

theorem sortOrdinals_increasing (numbers : List Nat) :
    (sortOrdinals numbers).Pairwise (· < ·) := by
  induction numbers with
  | nil => exact .nil
  | cons n rest ih => exact insertOrdinal_increasing n ih

end Cloze

/-! ## What the cards of a note carry -/

/-- Two cards agree in all that their describing texts tell. -/
def Card.Agrees (card other : Card) : Prop :=
  card.noteIndex = other.noteIndex ∧ card.template = other.template ∧
    card.ordinal = other.ordinal

/-- Whether cards agree shows within each note. -/
theorem Card.pairwise_iff_filter {cards : List Card} :
    cards.Pairwise (fun card other => ¬ card.Agrees other) ↔
      ∀ index, (cards.filter fun card => card.noteIndex = index).Pairwise
        fun card other => ¬ card.Agrees other := by
  refine ⟨fun h index => h.filter _, fun h => ?_⟩
  induction cards with
  | nil => exact .nil
  | cons card rest ih =>
      refine List.pairwise_cons.mpr ⟨?_, ih fun index => ?_⟩
      · intro other hother hagrees
        have hindex := h card.noteIndex
        rw [List.filter_cons_of_pos (by simp)] at hindex
        exact (List.pairwise_cons.mp hindex).1 other
          (List.mem_filter.mpr ⟨hother, by simp [hagrees.1]⟩) hagrees
      · exact (h index).sublist ((List.sublist_cons_self _ _).filter _)

namespace Deck

variable {deck : Deck} {policy : Policy} {index : Nat} {note : Note}

/-- The text that the id of a card is the digest of. -/
def payload (deck : Deck) (card : Card) : String :=
  Identity.cardPayload deck.name card.noteIndex card.template card.ordinal

theorem noteOrdinals_increasing {names : List String} {ordinals : List Nat}
    (h : noteOrdinals note names = .ok ordinals) : ordinals.Pairwise (· < ·) := by
  cases names with
  | nil =>
      cases h
      exact .nil
  | cons name rest =>
      obtain ⟨found, -, h⟩ := bind_eq_ok h
      obtain ⟨more, -, h⟩ := bind_eq_ok h
      cases h
      exact Cloze.sortOrdinals_increasing _

/-- What a note gives its cards: the id that belongs to each, and what keeps them apart. -/
structure Carried (deck : Deck) (made : NoteCards) : Prop where
  id : ∀ card ∈ made.cards, card.id = Identity.hexText (Sha1.digestText (deck.payload card))
  cloze : deck.noteType.kind = .cloze → (made.cards.map Card.ordinal).Pairwise (· < ·)
  ordinal : deck.noteType.kind = .standard → ∀ card ∈ made.cards, card.ordinal = 0
  template : deck.noteType.kind = .standard →
    (made.cards.map Card.template).Sublist (deck.noteType.templates.map CardTemplate.name)

theorem ClozeCard.ordinals_eq {ordinals : List Nat} {cards : List Card}
    (h : List.Forall₂ (deck.ClozeCard policy index note) ordinals cards) :
    cards.map Card.ordinal = ordinals := by
  have hordinals : List.Forall₂ (· = ·) ordinals (cards.map Card.ordinal) := by
    refine List.forall₂_map_right_iff.mpr (h.imp ?_)
    rintro ordinal _ ⟨rendered, -, rfl⟩
    rfl
  rw [List.forall₂_eq_eq_eq] at hordinals
  exact hordinals.symm

theorem StandardCard.templates_sublist {templates : List CardTemplate}
    {cards? : List (Option Card)}
    (h : List.Forall₂ (deck.StandardCard policy index note) templates cards?) :
    (cards?.reduceOption.map Card.template).Sublist (templates.map CardTemplate.name) := by
  induction h with
  | nil => exact .slnil
  | @cons template card? rest cards? hmakes _ ih =>
      cases card? with
      | none =>
          rw [List.reduceOption_cons_of_none]
          exact ih.cons _
      | some card =>
          obtain ⟨rendered, rfl⟩ := hmakes.card
          rw [List.reduceOption_cons_of_some]
          exact ih.cons_cons _

theorem making_carried {made : NoteCards} (h : deck.making policy index note = .ok made) :
    deck.Carried made := by
  cases hkind : deck.noteType.kind with
  | standard =>
      obtain ⟨cards?, hcards, rfl⟩ := (making_standard_ok_iff hkind).mp h
      have hmade : ∀ card ∈ cards?.reduceOption, card.ordinal = 0 ∧
          card.id = Identity.hexText (Sha1.digestText (deck.payload card)) := by
        intro card hcard
        obtain ⟨template, -, hmakes⟩ :=
          exists_of_mem_forall₂ hcards (List.reduceOption_mem_iff.mp hcard)
        obtain ⟨rendered, rfl⟩ := hmakes.card
        exact ⟨rfl, rfl⟩
      exact ⟨fun card hcard => (hmade card hcard).2, by simp [hkind],
        fun _ card hcard => (hmade card hcard).1,
        fun _ => StandardCard.templates_sublist hcards⟩
  | cloze =>
      obtain ⟨front, -, ordinals, hordinals, cards, hcards, rfl⟩ :=
        (making_cloze_ok_iff hkind).mp h
      refine ⟨fun card hcard => ?_, fun _ => ?_, by simp [hkind], by simp [hkind]⟩
      · obtain ⟨ordinal, -, rendered, -, rfl⟩ := exists_of_mem_forall₂ hcards hcard
        rfl
      · rw [ClozeCard.ordinals_eq hcards]
        exact noteOrdinals_increasing hordinals

/-! ## Cards of a whole deck -/

section

variable {notes : List Note} {mades : List NoteCards}

/-- What holds of the cards of each note holds of all cards. -/
theorem makings_forall {P : Card → Prop} (h : deck.makings policy index notes = .ok mades)
    (hnote : ∀ index note made, deck.making policy index note = .ok made →
      ∀ card ∈ made.cards, P card) : ∀ card ∈ mades.flatMap NoteCards.cards, P card := by
  induction notes generalizing index mades with
  | nil => cases h; simp
  | cons note rest ih =>
      obtain ⟨made, more, hmade, hmore, rfl⟩ := makings_cons_ok h
      rw [List.flatMap_cons, List.forall_mem_append]
      exact ⟨hnote _ _ _ hmade, ih hmore⟩

/-- Cards that agree belong to one note. -/
theorem makings_apart (h : deck.makings policy index notes = .ok mades)
    (hnote : ∀ index note made, deck.making policy index note = .ok made →
      made.cards.Pairwise fun card other => ¬ card.Agrees other) :
    (mades.flatMap NoteCards.cards).Pairwise fun card other => ¬ card.Agrees other := by
  induction notes generalizing index mades with
  | nil => cases h; simp
  | cons note rest ih =>
      obtain ⟨made, more, hmade, hmore, rfl⟩ := makings_cons_ok h
      rw [List.flatMap_cons, List.pairwise_append]
      refine ⟨hnote _ _ _ hmade, ih hmore, ?_⟩
      -- cards of this note and of a later one have different numbers of notes
      rintro card hcard other hother ⟨hindex, -⟩
      have hfirst := (making_balanced hmade).numbered card hcard
      have hlater := makings_numbered hmore other hother
      omega

end

/-- No two describing texts of these cards have the same digest. -/
def DigestsApart (deck : Deck) (cards : List Card) : Prop :=
  ∀ card ∈ cards, ∀ other ∈ cards,
    Sha1.digestText (deck.payload card) = Sha1.digestText (deck.payload other) →
      deck.payload card = deck.payload other

/-- The texts are compared first, since their digests take time. -/
instance (deck : Deck) (cards : List Card) : Decidable (deck.DigestsApart cards) :=
  decidable_of_iff (∀ card ∈ cards, ∀ other ∈ cards, deck.payload card = deck.payload other ∨
      Sha1.digestText (deck.payload card) ≠ Sha1.digestText (deck.payload other))
    (by simp only [DigestsApart, ne_eq, or_iff_not_imp_right, not_not])

theorem payload_eq_iff {card other : Card} :
    deck.payload card = deck.payload other ↔ card.Agrees other := Identity.cardPayload_inj

/-- The cards of one standard note are told apart by their templates. -/
theorem standard_apart {cards : List Card} (hordinal : ∀ card ∈ cards, card.ordinal = 0)
    (hindex : ∀ card ∈ cards, card.noteIndex = index) :
    cards.Pairwise (fun card other => ¬ card.Agrees other)
      ↔ (cards.map Card.template).Nodup := by
  rw [List.nodup_iff_pairwise_ne, List.pairwise_map]
  refine List.Pairwise.iff_of_mem ?_
  intro card other hcard hother
  rw [Card.Agrees, hindex card hcard, hindex other hother, hordinal card hcard,
    hordinal other hother]
  simp

/-- The cards of one cloze note are told apart by their numbers. -/
theorem cloze_apart {cards : List Card} (h : (cards.map Card.ordinal).Pairwise (· < ·)) :
    cards.Pairwise fun card other => ¬ card.Agrees other := by
  refine (List.pairwise_map.mp h).imp ?_
  rintro card other hlt ⟨-, -, hordinal⟩
  omega

/-- The cards that a renderer makes of a deck are those of its notes, whatever it keeps. -/
theorem cards_eq_ok {renderer : Renderer} (hsound : renderer.Sound) {cards : List Card}
    (h : (deck.cards.outcome renderer).1 = .ok cards) :
    ∃ mades, deck.makings renderer.policy 0 deck.notes = .ok mades ∧
      mades.flatMap NoteCards.cards = cards := by
  obtain ⟨last, hrun, -, -⟩ := (transparent_cardsFrom deck 0 deck.notes).outcome_eq hsound
  have hplain : deck.cards.plain renderer.policy = .ok cards := by
    rw [← h, Deck.cards, hrun]
  rw [plain_cards] at hplain
  cases hmakings : deck.makings renderer.policy 0 deck.notes with
  | error failure => rw [hmakings] at hplain; cases hplain
  | ok mades => rw [hmakings] at hplain; cases hplain; exact ⟨mades, rfl, rfl⟩

/-- As long as digests differ, cards share an id exactly if they agree. -/
theorem id_eq_iff {notes : List Note} {mades : List NoteCards}
    (h : deck.makings policy index notes = .ok mades)
    (hapart : deck.DigestsApart (mades.flatMap NoteCards.cards)) :
    ∀ card ∈ mades.flatMap NoteCards.cards, ∀ other ∈ mades.flatMap NoteCards.cards,
      card.id = other.id ↔ card.Agrees other := by
  have hid := makings_forall h fun _ _ _ hmade => (making_carried hmade).id
  intro card hcard other hother
  rw [hid card hcard, hid other hother, ← payload_eq_iff]
  constructor
  · exact fun hdigests => hapart card hcard other hother (Identity.hexText_injective hdigests)
  · exact fun hpayload => by rw [hpayload]

theorem nodup_ids_iff {cards : List Card}
    (h : ∀ card ∈ cards, ∀ other ∈ cards, card.id = other.id ↔ card.Agrees other) :
    (cards.map Card.id).Nodup ↔ cards.Pairwise fun card other => ¬ card.Agrees other := by
  rw [List.nodup_iff_pairwise_ne, List.pairwise_map]
  exact List.Pairwise.iff_of_mem fun {card other} hcard hother =>
    not_congr (h card hcard other hother)

/--
**Ids tell cards apart as far as the names of their templates do.**

Whatever the renderer keeps, as long as the digests of a run are all different, two cards share an
id exactly if they agree in note, template name and number. So the ids of a cloze deck are all
different. Those of a standard deck are if no note makes two cards by templates of one name, and in
particular if all templates have names of their own.
-/
theorem cards_told_apart {renderer : Renderer} (hsound : renderer.Sound) {cards : List Card}
    (hcards : (deck.cards.outcome renderer).1 = .ok cards) (hapart : deck.DigestsApart cards) :
    (∀ card ∈ cards, ∀ other ∈ cards, card.id = other.id ↔ card.Agrees other) ∧
    (deck.noteType.kind = .cloze → (cards.map Card.id).Nodup) ∧
    (deck.noteType.kind = .standard → ((cards.map Card.id).Nodup ↔
      ∀ index, ((cards.filter fun card => card.noteIndex = index).map Card.template).Nodup)) ∧
    ((deck.noteType.templates.map CardTemplate.name).Nodup → (cards.map Card.id).Nodup) := by
  obtain ⟨mades, hmakings, rfl⟩ := cards_eq_ok hsound hcards
  have hsame := id_eq_iff hmakings hapart
  have hnodup := nodup_ids_iff hsame
  have hcloze : deck.noteType.kind = .cloze →
      (mades.flatMap NoteCards.cards).Pairwise fun card other => ¬ card.Agrees other :=
    fun hkind => makings_apart hmakings fun _ _ _ hmade =>
      cloze_apart ((making_carried hmade).cloze hkind)
  refine ⟨hsame, fun hkind => hnodup.mpr (hcloze hkind), ?_, ?_⟩
  · intro hkind
    have hzero := makings_forall hmakings fun _ _ _ hmade => (making_carried hmade).ordinal hkind
    rw [hnodup, Card.pairwise_iff_filter]
    exact forall_congr' fun index =>
      standard_apart (fun card hcard => hzero card (List.mem_filter.mp hcard).1)
        fun card hcard => of_decide_eq_true (List.mem_filter.mp hcard).2
  · intro hnames
    rw [hnodup]
    cases hkind : deck.noteType.kind with
    | cloze => exact hcloze hkind
    | standard =>
        refine makings_apart hmakings fun index note made hmade => ?_
        have hcarried := making_carried hmade
        exact (standard_apart (hcarried.ordinal hkind) (making_balanced hmade).numbered).mpr
          (hnames.sublist (hcarried.template hkind))

/-- A deck of one note and two templates of different names. -/
def pairSample : Deck where
  name := "D"
  noteType :=
    { name := "Basic", kind := .standard, fields := ["Front", "Back"]
      template := ⟨"Card 1", shownTag "Front", shownTag "Back"⟩
      moreTemplates := [⟨"Card 2", shownTag "Back", shownTag "Front"⟩], css := "" }
  notes := [⟨[("Front", "a"), ("Back", "b")], []⟩]

theorem cards_told_apart_pair : ∃ cards,
    (pairSample.cards.outcome (.uncached .lenient)).1 = .ok cards ∧ cards.length = 2 ∧
      pairSample.DigestsApart cards ∧ (cards.map Card.id).Nodup := by
  have hmade : (pairSample.cards.outcome (.uncached .lenient)).1.toOption.map
      (fun cards => (cards.length, decide (pairSample.DigestsApart cards))) = some (2, true) := by
    decide +kernel
  cases hcards : (pairSample.cards.outcome (.uncached .lenient)).1 with
  | error failure => rw [hcards] at hmade; cases hmade
  | ok cards =>
      rw [hcards] at hmade
      obtain ⟨hlength, hapart⟩ := Prod.mk.inj (Option.some.inj hmade)
      have hapart := of_decide_eq_true hapart
      obtain ⟨-, -, -, hnames⟩ :=
        cards_told_apart (Renderer.sound_uncached .lenient) hcards hapart
      exact ⟨cards, rfl, hlength, hapart, hnames (by decide)⟩

/-- The same deck with one name for both. -/
def twinSample : Deck :=
  { pairSample with
    noteType :=
      { pairSample.noteType with
        moreTemplates := [⟨"Card 1", shownTag "Back", shownTag "Front"⟩] } }

example : (twinSample.cards.outcome (.uncached .lenient)).1.toOption.map
    (fun cards => cards.map twinSample.payload)
      = some ["D|0|Card 1|0", "D|0|Card 1|0"] := by decide +kernel

end Deck

end Flashcards
