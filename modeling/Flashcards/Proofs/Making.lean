import Flashcards.Proofs.Faults
import Flashcards.Proofs.Transparency
import Mathlib.Algebra.GroupWithZero.Nat
import Mathlib.Data.List.Forall2
import Mathlib.Data.List.ReduceOption

/-!
# What the notes of a deck make

What a note makes does not depend on the renderer's cache (`transparent_renderNote`), so it can be
told from the policy, the note and its number alone: it is `Deck.making`. Rendering all notes, one
after the other, makes what each of them makes by itself (`Deck.plain_cards`).

Two facts about a single note are enough for the books of a whole deck. What it makes adds up: a
standard note makes a card or skips one for each template, a cloze note without deletions makes
nothing and says so, and all its cards carry its number. And once the templates of the deck can be
read, a note fails over the length of a numeral only.
-/

namespace Flashcards

open Template

/-- A computation in two parts succeeds if both of them do. -/
theorem bind_eq_ok {ε α β : Type} {first : Except ε α} {rest : α → Except ε β} {y : β}
    (h : first >>= rest = .ok y) : ∃ x, first = .ok x ∧ rest x = .ok y := by
  cases first with
  | error failure => cases h
  | ok x => exact ⟨x, rfl, h⟩

theorem map_eq_ok_iff {ε α β : Type} {outcome : Except ε α} {f : α → β} {y : β} :
    outcome.map f = .ok y ↔ ∃ x, outcome = .ok x ∧ f x = y := by
  cases outcome <;> simp [Except.map]

/-- A failure that is told in other words is a failure still. -/
theorem mapError_eq_ok_iff {ε δ α : Type} {outcome : Except ε α} {as : ε → δ} {x : α} :
    outcome.mapError as = .ok x ↔ outcome = .ok x := by
  cases outcome with
  | ok y => simp [Except.mapError]
  | error failure => simp [Except.mapError]

/-- What is made one by one comes from something each, at the same place. -/
theorem exists_getElem?_of_forall₂ {α β : Type} {R : α → β → Prop} {xs : List α} {ys : List β}
    (h : List.Forall₂ R xs ys) {index : Nat} {y : β} (hy : ys[index]? = some y) :
    ∃ x, xs[index]? = some x ∧ R x y := by
  induction h generalizing index with
  | nil => cases hy
  | cons hfirst _ ih =>
      cases index with
      | zero =>
          cases hy
          exact ⟨_, rfl, hfirst⟩
      | succ index => exact ih hy

theorem exists_of_mem_forall₂ {α β : Type} {R : α → β → Prop} {xs : List α} {ys : List β}
    (h : List.Forall₂ R xs ys) {y : β} (hy : y ∈ ys) : ∃ x ∈ xs, R x y := by
  obtain ⟨i, hi⟩ := List.mem_iff_getElem?.mp hy
  obtain ⟨x, hx, hmade⟩ := exists_getElem?_of_forall₂ h hi
  exact ⟨x, List.mem_of_getElem? hx, hmade⟩

/-- All can be made one by one if each of them can. -/
theorem exists_forall₂_iff {α β : Type} {R : α → β → Prop} {xs : List α} :
    (∃ ys, List.Forall₂ R xs ys) ↔ ∀ x ∈ xs, ∃ y, R x y := by
  induction xs with
  | nil => simp
  | cons x rest ih =>
      rw [List.forall_mem_cons, ← ih]
      simp only [List.forall₂_cons_left_iff]
      constructor
      · rintro ⟨_, y, ys, hfirst, hrest, -⟩
        exact ⟨⟨y, hfirst⟩, ys, hrest⟩
      · rintro ⟨⟨y, hfirst⟩, ys, hrest⟩
        exact ⟨_, y, ys, hfirst, hrest, rfl⟩

theorem length_reduceOption_add_count {α : Type} [DecidableEq α] (xs : List (Option α)) :
    xs.reduceOption.length + xs.count none = xs.length := by
  induction xs with
  | nil => rfl
  | cons x rest ih =>
      cases x with
      | none =>
          rw [List.reduceOption_cons_of_none, List.count_cons_self, List.length_cons]
          omega
      | some y =>
          rw [List.reduceOption_cons_of_some, List.count_cons_of_ne (Option.some_ne_none y),
            List.length_cons, List.length_cons]
          omega

namespace Rendering

variable {α β : Type} {policy : Policy}

/-! ## Outcomes over a renderer that keeps nothing -/

/-- What a computation gives over a renderer that keeps nothing. -/
def plain (policy : Policy) (rendering : Rendering α) : Except Failure α :=
  (rendering.outcome (.uncached policy)).1

theorem Transparent.outcome_eq {rendering : Rendering α} (h : rendering.Transparent)
    {renderer : Renderer} (hsound : renderer.Sound) :
    ∃ after, rendering.outcome renderer = (rendering.plain renderer.policy, after) ∧
      after.Sound ∧ after.policy = renderer.policy := by
  obtain ⟨outcome, after, hrun, hafter, hpolicy, hplain⟩ := h renderer hsound
  refine ⟨after, ?_, hafter, hpolicy⟩
  rw [hrun, plain, hplain]

theorem Transparent.outcome_fst {rendering : Rendering α} (h : rendering.Transparent)
    {renderer : Renderer} (hsound : renderer.Sound) :
    (rendering.outcome renderer).1 = rendering.plain renderer.policy := by
  obtain ⟨after, hrun, -, -⟩ := h.outcome_eq hsound
  rw [hrun]

theorem Transparent.plain_bind {first : Rendering α} (h : first.Transparent)
    (rest : α → Rendering β) :
    (first >>= rest).plain policy = first.plain policy >>= fun x => (rest x).plain policy := by
  obtain ⟨outcome, after, -, -, -, hplain⟩ := h _ (Renderer.sound_uncached policy)
  have hplain : first.outcome (.uncached policy) = (outcome, .uncached policy) := hplain
  rw [plain, plain, hplain]
  cases outcome with
  | ok x => rw [outcome_bind_ok hplain]; rfl
  | error failure => rw [outcome_bind_error hplain]; rfl

theorem Transparent.failsOnly_bind {first : Rendering α} (h : first.Transparent)
    {allowed : Failure → Prop} (hfirst : FailsOnly allowed (first.plain policy))
    {rest : α → Rendering β} (hrest : ∀ x, FailsOnly allowed ((rest x).plain policy)) :
    FailsOnly allowed ((first >>= rest).plain policy) := by
  rw [h.plain_bind]
  exact hfirst.bind hrest

theorem plain_parseFace (face : Option Face) (template : String) :
    (parseFace face template).plain policy
      = (parse policy template).mapError (.template face) := by
  rw [plain, outcome_parseFace]
  rfl

/-- A template that can be read hands its tree on. -/
theorem plain_parseFace_bind {template : String} {nodes : Nodes}
    (h : parse policy template = .ok nodes) (face : Option Face) (rest : Nodes → Rendering α) :
    (parseFace face template >>= rest).plain policy = (rest nodes).plain policy := by
  rw [(transparent_parseFace _ _).plain_bind, plain_parseFace, h]
  rfl

/-- A template that cannot be read ends the computation. -/
theorem plain_parseFace_fails {template : String} {error : Template.Error}
    (h : parse policy template = .error error) (face : Option Face) (rest : Nodes → Rendering α) :
    (parseFace face template >>= rest).plain policy = .error (.template face error) := by
  rw [(transparent_parseFace _ _).plain_bind, plain_parseFace, h]
  rfl

theorem plain_evaluate (nodes : Nodes) (context : Context) :
    (evaluate nodes context).plain policy = (nodes.render context).mapError .numeral := by
  unfold evaluate
  cases nodes.render context with
  | ok text => rfl
  | error fault => rfl

end Rendering

/-! ## How a note can fail -/

/-- A numeral was refused for its length. -/
def Failure.IsTooLong (failure : Failure) : Prop :=
  ∃ digits, failure = .numeral (.tooLong digits) ∧ Numeral.digitLimit < digits

theorem Numeral.Fault.IsTooLong.failure {fault : Numeral.Fault} (h : fault.IsTooLong) :
    (Failure.numeral fault).IsTooLong := by
  obtain ⟨digits, rfl, hlimit⟩ := h
  exact ⟨digits, rfl, hlimit⟩

namespace Rendering

variable {policy : Policy} {template front back : String} {nodes frontNodes backNodes : Nodes}

theorem parseFace_failsOnly (h : parse policy template = .ok nodes) (face : Option Face)
    (allowed : Failure → Prop) : FailsOnly allowed ((parseFace face template).plain policy) := by
  rw [plain_parseFace, h]
  exact failsOnly_ok nodes

theorem evaluate_failsOnly (nodes : Nodes) (context : Context) :
    FailsOnly Failure.IsTooLong ((evaluate nodes context).plain policy) := by
  rw [plain_evaluate]
  exact (nodes.render_failsOnly context).mapError fun _ h => h.failure

theorem renderSide_failsOnly (h : parse policy template = .ok nodes) (fields : Fields)
    (ordinal : Int) (side : Side) :
    FailsOnly Failure.IsTooLong ((renderSide template fields ordinal side).plain policy) :=
  (transparent_parseFace none template).failsOnly_bind (parseFace_failsOnly h none _)
    fun nodes => evaluate_failsOnly nodes _

/-- A card whose templates can be read fails over the length of a numeral only. -/
theorem renderCard_failsOnly (hfront : parse policy front = .ok frontNodes)
    (hback : parse policy back = .ok backNodes) (fields : Fields) {ordinal : Int}
    (hordinal : ¬ ordinal < 0) :
    FailsOnly Failure.IsTooLong ((renderCard front back fields ordinal).plain policy) := by
  unfold renderCard
  rw [if_neg hordinal]
  refine (transparent_parseFace _ front).failsOnly_bind (parseFace_failsOnly hfront _ _) ?_
  intro frontNodes
  refine (transparent_parseFace _ back).failsOnly_bind (parseFace_failsOnly hback _ _) ?_
  intro backNodes
  refine (transparent_evaluate frontNodes _).failsOnly_bind (evaluate_failsOnly _ _) ?_
  intro question
  refine (transparent_evaluate backNodes _).failsOnly_bind (evaluate_failsOnly _ _) ?_
  exact fun answer => failsOnly_ok _

end Rendering

namespace Deck

variable {deck other : Deck} {policy : Policy} {index : Nat} {note : Note}

/-! ## A note by itself -/

theorem transparent_clozeCards (deck : Deck) (index : Nat) (note : Note) (ordinals : List Nat) :
    (deck.clozeCards index note ordinals).Transparent := by
  induction ordinals with
  | nil => exact Rendering.transparent_pure []
  | cons ordinal rest ih =>
      exact (Rendering.transparent_renderCard _ _ _ _).bind fun rendered =>
        ih.bind fun more => Rendering.transparent_pure _

theorem transparent_standardCards (deck : Deck) (index : Nat) (note : Note)
    (templates : List CardTemplate) : (deck.standardCards index note templates).Transparent := by
  induction templates with
  | nil => exact Rendering.transparent_pure _
  | cons template rest ih =>
      refine (Rendering.transparent_renderCard _ _ _ _).bind fun rendered => ?_
      refine (Rendering.transparent_renderSide _ _ _ _).bind fun blank => ?_
      refine ih.bind fun more => ?_
      split
      · exact Rendering.transparent_pure _
      · exact Rendering.transparent_pure _

/-- **What a note makes does not depend on what is kept.** -/
theorem transparent_renderNote (deck : Deck) (index : Nat) (note : Note) :
    (deck.renderNote index note).Transparent := by
  unfold renderNote
  split
  · refine (Rendering.transparent_parseFace none _).bind fun front => ?_
    split
    · exact Rendering.transparent_throw _
    · exact Rendering.transparent_pure _
    · exact (transparent_clozeCards _ _ _ _).bind fun cards => Rendering.transparent_pure _
  · exact transparent_standardCards _ _ _ _

/-- What the note of this number makes by itself. -/
def making (policy : Policy) (deck : Deck) (index : Nat) (note : Note) :
    Except Failure NoteCards :=
  (deck.renderNote index note).plain policy

theorem outcome_renderNote {renderer : Renderer} (hsound : renderer.Sound) :
    ((deck.renderNote index note).outcome renderer).1 = deck.making renderer.policy index note :=
  (transparent_renderNote deck index note).outcome_fst hsound

/-- The notes of two decks of the same name and type make the same. -/
theorem making_congr (hname : deck.name = other.name) (htype : deck.noteType = other.noteType) :
    deck.making policy index note = other.making policy index note := by
  have hcloze : ∀ ordinals, deck.clozeCards index note ordinals
      = other.clozeCards index note ordinals := by
    intro ordinals
    induction ordinals with
    | nil => rfl
    | cons ordinal rest ih => simp only [clozeCards, cardFields, makeCard, ih, hname, htype]
  have hstandard : ∀ templates, deck.standardCards index note templates
      = other.standardCards index note templates := by
    intro templates
    induction templates with
    | nil => rfl
    | cons template rest ih =>
        simp only [standardCards, cardFields, blankFields, makeCard, ih, hname, htype]
  have hnote : deck.renderNote index note = other.renderNote index note := by
    simp only [renderNote, renderClozeNote, hcloze, hstandard, htype]
  rw [making, making, hnote]

/-! ## Cards one by one -/

/-- The card of a cloze note for a number, with both its sides as they are rendered. -/
def ClozeCard (policy : Policy) (deck : Deck) (index : Nat) (note : Note) (ordinal : Nat)
    (card : Card) : Prop :=
  ∃ rendered, (Rendering.renderCard deck.noteType.template.front deck.noteType.template.back
      (deck.cardFields note s!"Cloze {ordinal}") ordinal).plain policy = .ok rendered ∧
    card = deck.makeCard index note deck.noteType.template ordinal rendered

/-- **A cloze note makes a card for each number, one after the other.** -/
theorem clozeCards_ok_iff {ordinals : List Nat} {cards : List Card} :
    (deck.clozeCards index note ordinals).plain policy = .ok cards
      ↔ List.Forall₂ (deck.ClozeCard policy index note) ordinals cards := by
  induction ordinals generalizing cards with
  | nil =>
      rw [List.forall₂_nil_left_iff]
      exact ⟨fun h => by cases h; rfl, fun h => by rw [h]; rfl⟩
  | cons ordinal rest ih =>
      rw [clozeCards, (Rendering.transparent_renderCard _ _ _ _).plain_bind,
        List.forall₂_cons_left_iff]
      constructor
      · intro h
        obtain ⟨rendered, hrendered, h⟩ := bind_eq_ok h
        rw [(transparent_clozeCards _ _ _ _).plain_bind] at h
        obtain ⟨more, hmore, h⟩ := bind_eq_ok h
        cases h
        exact ⟨_, more, ⟨rendered, hrendered, rfl⟩, ih.mp hmore, rfl⟩
      · rintro ⟨_, more, ⟨rendered, hrendered, rfl⟩, hmore, rfl⟩
        rw [hrendered]
        show (deck.clozeCards index note rest >>= _).plain policy = _
        rw [(transparent_clozeCards _ _ _ _).plain_bind, ih.mpr hmore]
        rfl

/-- What a standard note makes by a template: a card with both its sides as they are rendered, or
none where the question is what the front shows over the blank fields. -/
def StandardCard (policy : Policy) (deck : Deck) (index : Nat) (note : Note)
    (template : CardTemplate) (card? : Option Card) : Prop :=
  ∃ rendered blank,
    (Rendering.renderCard template.front template.back (deck.cardFields note template.name)
      0).plain policy = .ok rendered ∧
    (Rendering.renderSide template.front (deck.blankFields note template.name) 0
      .question).plain policy = .ok blank ∧
    card? = if rendered.question = blank then none
      else some (deck.makeCard index note template 0 rendered)

theorem StandardCard.card {template : CardTemplate} {card : Card}
    (h : deck.StandardCard policy index note template (some card)) :
    ∃ rendered, card = deck.makeCard index note template 0 rendered := by
  obtain ⟨rendered, blank, -, -, hcard⟩ := h
  split at hcard
  · cases hcard
  · exact ⟨rendered, Option.some.inj hcard⟩

/-- **A standard note makes a card by each template, one after the other**, or it makes none and
counts that. -/
theorem standardCards_ok_iff {templates : List CardTemplate} {made : NoteCards} :
    (deck.standardCards index note templates).plain policy = .ok made
      ↔ ∃ cards?, List.Forall₂ (deck.StandardCard policy index note) templates cards? ∧
        made = ⟨cards?.reduceOption, cards?.count none, 0⟩ := by
  induction templates generalizing made with
  | nil =>
      simp only [List.forall₂_nil_left_iff, exists_eq_left]
      exact ⟨fun h => by cases h; rfl, fun h => by rw [h]; rfl⟩
  | cons template rest ih =>
      rw [standardCards, (Rendering.transparent_renderCard _ _ _ _).plain_bind]
      simp only [List.forall₂_cons_left_iff]
      constructor
      · intro h
        obtain ⟨rendered, hrendered, h⟩ := bind_eq_ok h
        rw [(Rendering.transparent_renderSide _ _ _ _).plain_bind] at h
        obtain ⟨blank, hblank, h⟩ := bind_eq_ok h
        rw [(transparent_standardCards _ _ _ _).plain_bind] at h
        obtain ⟨more, hmore, h⟩ := bind_eq_ok h
        obtain ⟨cards?, hcards, rfl⟩ := ih.mp hmore
        refine ⟨_, ⟨_, cards?, ⟨rendered, blank, hrendered, hblank, rfl⟩, hcards, rfl⟩, ?_⟩
        split at h
        · rename_i hsame
          cases h
          rw [if_pos hsame, List.reduceOption_cons_of_none, List.count_cons_self]
        · rename_i hdiffers
          cases h
          rw [if_neg hdiffers, List.reduceOption_cons_of_some,
            List.count_cons_of_ne (Option.some_ne_none _)]
      · rintro ⟨_, ⟨_, cards?, ⟨rendered, blank, hrendered, hblank, rfl⟩, hcards, rfl⟩, rfl⟩
        rw [hrendered]
        show (Rendering.renderSide _ _ _ _ >>= _).plain policy = _
        rw [(Rendering.transparent_renderSide _ _ _ _).plain_bind, hblank]
        show (deck.standardCards index note rest >>= _).plain policy = _
        rw [(transparent_standardCards _ _ _ _).plain_bind, ih.mpr ⟨cards?, hcards, rfl⟩]
        by_cases hsame : rendered.question = blank
        · simp only [hsame, if_true, List.reduceOption_cons_of_none, List.count_cons_self]
          rfl
        · rw [if_neg hsame, List.reduceOption_cons_of_some,
            List.count_cons_of_ne (Option.some_ne_none _)]
          simp only [bind, Except.bind, if_neg hsame]
          rfl

/-- A standard note makes its cards by all templates. -/
theorem making_standard_ok_iff (hkind : deck.noteType.kind = .standard) {made : NoteCards} :
    deck.making policy index note = .ok made ↔ ∃ cards?,
      List.Forall₂ (deck.StandardCard policy index note) deck.noteType.templates cards? ∧
        made = ⟨cards?.reduceOption, cards?.count none, 0⟩ := by
  rw [making, renderNote, hkind]
  exact standardCards_ok_iff

/-- **A cloze note makes its cards for the numbers that are found by the front.** If there are none,
that is counted. -/
theorem making_cloze_ok_iff (hkind : deck.noteType.kind = .cloze) {made : NoteCards} :
    deck.making policy index note = .ok made ↔
      ∃ front, parse policy deck.noteType.template.front = .ok front ∧
      ∃ ordinals, noteOrdinals note front.clozeFields = .ok ordinals ∧
      ∃ cards, List.Forall₂ (deck.ClozeCard policy index note) ordinals cards ∧
        made = ⟨cards, 0, if ordinals = [] then 1 else 0⟩ := by
  simp only [making, renderNote, hkind, renderClozeNote]
  cases hfront : parse policy deck.noteType.template.front with
  | error error =>
      rw [Rendering.plain_parseFace_fails hfront]
      simp
  | ok front =>
      rw [Rendering.plain_parseFace_bind hfront]
      simp only [Except.ok.injEq, exists_eq_left']
      cases noteOrdinals note front.clozeFields with
      | error fault =>
          simp only [reduceCtorEq, false_and, exists_false]
          exact ⟨fun h => (by cases h), False.elim⟩
      | ok ordinals =>
          simp only [Except.ok.injEq, exists_eq_left', ← clozeCards_ok_iff]
          cases ordinals with
          | nil =>
              constructor
              · rintro ⟨⟩
                exact ⟨[], rfl, rfl⟩
              · rintro ⟨_, ⟨⟩, rfl⟩
                rfl
          | cons ordinal rest =>
              show (deck.clozeCards index note (ordinal :: rest) >>= _).plain policy = _ ↔ _
              rw [(transparent_clozeCards _ _ _ _).plain_bind]
              constructor
              · intro h
                obtain ⟨cards, hcards, h⟩ := bind_eq_ok h
                cases h
                exact ⟨cards, hcards, rfl⟩
              · rintro ⟨cards, hcards, rfl⟩
                rw [hcards]
                rfl

/-! ## What a note makes adds up -/

/-- The note has no card, as what the front passes through the cloze filter has no deletion. -/
def WithoutDeletions (policy : Policy) (deck : Deck) (note : Note) : Prop :=
  deck.noteType.kind = .cloze ∧ ∃ front,
    parse policy deck.noteType.template.front = .ok front ∧
    noteOrdinals note front.clozeFields = .ok []

/-- The cards of a note carry its number, and what is counted agrees with what is made. -/
structure Balanced (policy : Policy) (deck : Deck) (index : Nat) (note : Note)
    (made : NoteCards) : Prop where
  numbered : ∀ card ∈ made.cards, card.noteIndex = index
  standard : deck.noteType.kind = .standard →
    made.cards.length + made.skippedEmptyFront = deck.noteType.templates.length
  cloze : deck.noteType.kind = .cloze →
    made.skippedEmptyFront = 0 ∧ (made.cards = [] ↔ made.skippedNoCloze = 1)
  atMostOnce : made.skippedNoCloze ≤ 1
  withoutDeletions : made.skippedNoCloze = 1 ↔ deck.WithoutDeletions policy note

theorem balanced_standard {made : NoteCards} (hkind : deck.noteType.kind = .standard)
    (h : deck.making policy index note = .ok made) : deck.Balanced policy index note made := by
  obtain ⟨cards?, hcards, rfl⟩ := (making_standard_ok_iff hkind).mp h
  refine ⟨fun card hcard => ?_, fun _ => ?_, by simp [hkind], by simp,
    by simp [WithoutDeletions, hkind]⟩
  · obtain ⟨template, -, hmakes⟩ :=
      exists_of_mem_forall₂ hcards (List.reduceOption_mem_iff.mp hcard)
    obtain ⟨rendered, rfl⟩ := hmakes.card
    rfl
  · rw [hcards.length_eq]
    exact length_reduceOption_add_count cards?

theorem balanced_cloze {made : NoteCards} (hkind : deck.noteType.kind = .cloze)
    (h : deck.making policy index note = .ok made) : deck.Balanced policy index note made := by
  obtain ⟨front, hfront, ordinals, hordinals, cards, hcards, rfl⟩ :=
    (making_cloze_ok_iff hkind).mp h
  -- there are as many cards as numbers
  have hempty : cards = [] ↔ ordinals = [] := by
    rw [← List.length_eq_zero_iff, ← hcards.length_eq, List.length_eq_zero_iff]
  have hwithout : deck.WithoutDeletions policy note ↔ ordinals = [] := by
    simp [WithoutDeletions, hkind, hfront, hordinals]
  refine ⟨fun card hcard => ?_, by simp [hkind], fun _ => ?_, ?_, ?_⟩
  · obtain ⟨ordinal, -, rendered, -, rfl⟩ := exists_of_mem_forall₂ hcards hcard
    rfl
  · simp [hempty]
  · show (if ordinals = [] then 1 else 0) ≤ 1
    split <;> omega
  · simp [hwithout]

/-- **What a note makes adds up.** -/
theorem making_balanced {made : NoteCards} (h : deck.making policy index note = .ok made) :
    deck.Balanced policy index note made := by
  cases hkind : deck.noteType.kind with
  | standard => exact balanced_standard hkind h
  | cloze => exact balanced_cloze hkind h

/-! ## A note of a deck that can be read -/

/-- All templates of the deck can be read. -/
def Readable (policy : Policy) (deck : Deck) : Prop :=
  ∀ template ∈ deck.noteType.templates, ∀ face, ∃ nodes,
    parse policy (template.text face) = .ok nodes

/-- The front in which deletions are looked for can be read. -/
theorem Readable.front (h : deck.Readable policy) :
    ∃ front, parse policy deck.noteType.template.front = .ok front :=
  h _ List.mem_cons_self .front

/-- A cloze note whose templates can be read fails over the length of a numeral only. -/
theorem clozeCards_failsOnly {front back : Nodes}
    (hfront : parse policy deck.noteType.template.front = .ok front)
    (hback : parse policy deck.noteType.template.back = .ok back) (index : Nat) (note : Note)
    (ordinals : List Nat) :
    FailsOnly Failure.IsTooLong ((deck.clozeCards index note ordinals).plain policy) := by
  induction ordinals with
  | nil => exact failsOnly_ok []
  | cons ordinal rest ih =>
      refine (Rendering.transparent_renderCard _ _ _ _).failsOnly_bind
        (Rendering.renderCard_failsOnly hfront hback _ (by omega)) ?_
      intro rendered
      exact (transparent_clozeCards _ _ _ _).failsOnly_bind ih fun more => failsOnly_ok _

theorem standardCards_failsOnly (index : Nat) (note : Note) {templates : List CardTemplate}
    (h : ∀ template ∈ templates, ∀ face, ∃ nodes, parse policy (template.text face) = .ok nodes) :
    FailsOnly Failure.IsTooLong ((deck.standardCards index note templates).plain policy) := by
  induction templates with
  | nil => exact failsOnly_ok _
  | cons template rest ih =>
      obtain ⟨hfirst, hrest⟩ := List.forall_mem_cons.mp h
      obtain ⟨front, hfront⟩ := hfirst .front
      obtain ⟨back, hback⟩ := hfirst .back
      refine (Rendering.transparent_renderCard _ _ _ _).failsOnly_bind
        (Rendering.renderCard_failsOnly hfront hback _ (by omega)) ?_
      intro rendered
      refine (Rendering.transparent_renderSide _ _ _ _).failsOnly_bind
        (Rendering.renderSide_failsOnly hfront _ _ _) ?_
      intro blank
      refine (transparent_standardCards _ _ _ _).failsOnly_bind (ih hrest) ?_
      intro more
      split
      · exact failsOnly_ok _
      · exact failsOnly_ok _

theorem making_cloze_failsOnly (hkind : deck.noteType.kind = .cloze) {front back : Nodes}
    (hfront : parse policy deck.noteType.template.front = .ok front)
    (hback : parse policy deck.noteType.template.back = .ok back) (index : Nat) (note : Note) :
    FailsOnly Failure.IsTooLong (deck.making policy index note) := by
  simp only [making, renderNote, hkind, renderClozeNote]
  rw [Rendering.plain_parseFace_bind hfront]
  split
  · rename_i fault hfault
    exact failsOnly_error (noteOrdinals_failsOnly note _ fault hfault).failure
  · exact failsOnly_ok _
  · exact (transparent_clozeCards _ _ _ _).failsOnly_bind
      (clozeCards_failsOnly hfront hback _ _ _) fun cards => failsOnly_ok _

/-- **Once the templates of a deck can be read, a note fails over the length of a numeral only.** -/
theorem making_failsOnly (h : deck.Readable policy) (index : Nat) (note : Note) :
    FailsOnly Failure.IsTooLong (deck.making policy index note) := by
  cases hkind : deck.noteType.kind with
  | cloze =>
      obtain ⟨front, hfront⟩ := h.front
      obtain ⟨back, hback⟩ := h _ List.mem_cons_self .back
      exact making_cloze_failsOnly hkind hfront hback index note
  | standard =>
      rw [making, renderNote, hkind]
      exact standardCards_failsOnly index note h

/-- Such a numeral is enough for a cloze note to fail. -/
theorem making_fails (h : deck.Readable policy) (hkind : deck.noteType.kind = .cloze)
    {front : Nodes} (hfront : parse policy deck.noteType.template.front = .ok front)
    {name : String} (hname : name ∈ front.clozeFields) {gap : Cloze.Deletion}
    (hgap : Cloze.Part.deletion gap ∈ Cloze.parts (note.fields.value name).toList)
    (hlong : Numeral.digitLimit < gap.digits.length) (index : Nat) :
    ∃ failure, deck.making policy index note = .error failure ∧ failure.IsTooLong := by
  cases hordinals : noteOrdinals note front.clozeFields with
  | ok numbers =>
      have hshort := (noteOrdinals_ok_iff note front.clozeFields).mp ⟨numbers, hordinals⟩
      exact absurd (hshort name hname gap hgap) (Nat.not_le_of_lt hlong)
  | error fault =>
      have hmaking : deck.making policy index note = .error (.numeral fault) := by
        simp only [making, renderNote, hkind, renderClozeNote]
        rw [Rendering.plain_parseFace_bind hfront, hordinals]
        rfl
      exact ⟨_, hmaking, making_failsOnly h index note _ hmaking⟩

/-! ## All notes of a deck -/

/-- What the notes make that are numbered from `index` on, each by itself. -/
def makings (policy : Policy) (deck : Deck) (index : Nat) :
    List Note → Except Failure (List NoteCards)
  | [] => .ok []
  | note :: rest => do
    let made ← deck.making policy index note
    let more ← makings policy deck (index + 1) rest
    .ok (made :: more)

theorem makings_cons_ok {rest : List Note} {mades : List NoteCards}
    (h : deck.makings policy index (note :: rest) = .ok mades) :
    ∃ made more, deck.making policy index note = .ok made ∧
      deck.makings policy (index + 1) rest = .ok more ∧ mades = made :: more := by
  obtain ⟨made, hmade, h⟩ := bind_eq_ok h
  obtain ⟨more, hmore, h⟩ := bind_eq_ok h
  cases h
  exact ⟨made, more, hmade, hmore, rfl⟩

theorem transparent_cardsFrom (deck : Deck) (index : Nat) (notes : List Note) :
    (deck.cardsFrom index notes).Transparent := by
  induction notes generalizing index with
  | nil => exact Rendering.transparent_pure []
  | cons note rest ih =>
      exact (transparent_renderNote _ _ _).bind fun made =>
        (ih _).bind fun more => Rendering.transparent_pure _

theorem plain_cardsFrom (policy : Policy) (deck : Deck) (index : Nat) (notes : List Note) :
    (deck.cardsFrom index notes).plain policy
      = (deck.makings policy index notes).map fun mades => mades.flatMap NoteCards.cards := by
  induction notes generalizing index with
  | nil => rfl
  | cons note rest ih =>
      have hmore : ∀ made : NoteCards,
          (deck.cardsFrom (index + 1) rest >>= fun more => pure (made.cards ++ more)).plain policy
            = (deck.makings policy (index + 1) rest).map fun mades =>
                made.cards ++ mades.flatMap NoteCards.cards := by
        intro made
        rw [(transparent_cardsFrom _ _ _).plain_bind, ih]
        cases deck.makings policy (index + 1) rest with
        | error failure => rfl
        | ok more => rfl
      rw [cardsFrom, (transparent_renderNote _ _ _).plain_bind, makings, making]
      cases (deck.renderNote index note).plain policy with
      | error failure => rfl
      | ok made =>
          refine (hmore made).trans ?_
          cases deck.makings policy (index + 1) rest with
          | error failure => rfl
          | ok more => rfl

/-- **The cards of a deck are those of its notes, each rendered by itself.** -/
theorem plain_cards (policy : Policy) (deck : Deck) :
    deck.cards.plain policy
      = (deck.makings policy 0 deck.notes).map fun mades => mades.flatMap NoteCards.cards :=
  plain_cardsFrom policy deck 0 deck.notes

section

variable {notes : List Note} {mades : List NoteCards}

theorem makings_length (h : deck.makings policy index notes = .ok mades) :
    mades.length = notes.length := by
  induction notes generalizing index mades with
  | nil => cases h; rfl
  | cons note rest ih =>
      obtain ⟨made, more, -, hmore, rfl⟩ := makings_cons_ok h
      rw [List.length_cons, List.length_cons, ih hmore]

/-- A standard note makes a card or skips one for each template. -/
theorem makings_standard (hkind : deck.noteType.kind = .standard)
    (h : deck.makings policy index notes = .ok mades) :
    (mades.flatMap NoteCards.cards).length + (mades.map NoteCards.skippedEmptyFront).sum
        = notes.length * deck.noteType.templates.length ∧
      (mades.map NoteCards.skippedNoCloze).sum = 0 := by
  induction notes generalizing index mades with
  | nil => cases h; simp
  | cons note rest ih =>
      obtain ⟨made, more, hmade, hmore, rfl⟩ := makings_cons_ok h
      obtain ⟨hcount, hzero⟩ := ih hmore
      have hbalanced := making_balanced hmade
      have hnote := hbalanced.standard hkind
      have hnot : ¬ made.skippedNoCloze = 1 := by
        rw [hbalanced.withoutDeletions, WithoutDeletions, hkind]
        simp
      have hmost := hbalanced.atMostOnce
      simp only [List.flatMap_cons, List.length_append, List.map_cons, List.sum_cons,
        List.length_cons, Nat.add_mul, Nat.one_mul]
      omega

/-- A cloze note makes a card, unless it has no deletions. -/
theorem makings_cloze (hkind : deck.noteType.kind = .cloze)
    (h : deck.makings policy index notes = .ok mades) :
    (mades.map NoteCards.skippedEmptyFront).sum = 0 ∧
      notes.length ≤ (mades.flatMap NoteCards.cards).length
        + (mades.map NoteCards.skippedNoCloze).sum := by
  induction notes generalizing index mades with
  | nil => cases h; simp
  | cons note rest ih =>
      obtain ⟨made, more, hmade, hmore, rfl⟩ := makings_cons_ok h
      obtain ⟨hzero, hcount⟩ := ih hmore
      have hbalanced := making_balanced hmade
      obtain ⟨hnone, hempty⟩ := hbalanced.cloze hkind
      have hnote : 1 ≤ made.cards.length + made.skippedNoCloze := by
        by_cases hcards : made.cards = []
        · have := hempty.mp hcards
          omega
        · have := List.length_pos_iff.mpr hcards
          omega
      simp only [List.flatMap_cons, List.length_append, List.map_cons, List.sum_cons,
        List.length_cons]
      omega

/-- Cards carry the number of their note. -/
theorem makings_numbered (h : deck.makings policy index notes = .ok mades) :
    ∀ card ∈ mades.flatMap NoteCards.cards, index ≤ card.noteIndex := by
  induction notes generalizing index mades with
  | nil => cases h; simp
  | cons note rest ih =>
      obtain ⟨made, more, hmade, hmore, rfl⟩ := makings_cons_ok h
      intro card hcard
      rw [List.flatMap_cons, List.mem_append] at hcard
      rcases hcard with hfirst | hlater
      · exact Nat.le_of_eq ((making_balanced hmade).numbered card hfirst).symm
      · exact Nat.le_of_succ_le (ih hmore card hlater)

/-- The cards stand in the order of their notes. -/
theorem makings_ordered (h : deck.makings policy index notes = .ok mades) :
    ((mades.flatMap NoteCards.cards).map Card.noteIndex).Pairwise (· ≤ ·) := by
  induction notes generalizing index mades with
  | nil => cases h; simp
  | cons note rest ih =>
      obtain ⟨made, more, hmade, hmore, rfl⟩ := makings_cons_ok h
      have hfirst := (making_balanced hmade).numbered
      have hlater := makings_numbered hmore
      rw [List.flatMap_cons, List.map_append, List.pairwise_append]
      refine ⟨?_, ih hmore, ?_⟩
      · rw [List.pairwise_map]
        refine List.pairwise_of_forall_mem_list fun card hcard other hother => ?_
        rw [hfirst card hcard, hfirst other hother]
      · simp only [List.mem_map]
        rintro _ ⟨card, hcard, rfl⟩ _ ⟨other, hother, rfl⟩
        rw [hfirst card hcard]
        exact Nat.le_of_succ_le (hlater other hother)

/-- **The cards with the number of a note are what the note makes by itself.** -/
theorem makings_filter (h : deck.makings policy index notes = .ok mades) {offset : Nat}
    (hnote : notes[offset]? = some note) :
    ∃ made, deck.making policy (index + offset) note = .ok made ∧
      (mades.flatMap NoteCards.cards).filter (fun card => card.noteIndex = index + offset)
        = made.cards := by
  induction notes generalizing index mades offset with
  | nil => cases hnote
  | cons first rest ih =>
      obtain ⟨made, more, hmade, hmore, rfl⟩ := makings_cons_ok h
      have hfirst := (making_balanced hmade).numbered
      rw [List.flatMap_cons, List.filter_append]
      -- The number tells the cards of the first note from those of the rest.
      cases offset with
      | zero =>
          cases hnote
          have hall : made.cards.filter (fun card => card.noteIndex = index) = made.cards :=
            List.filter_eq_self.mpr fun card hcard => by simpa using hfirst card hcard
          have hnone : (more.flatMap NoteCards.cards).filter
              (fun card => card.noteIndex = index) = [] := by
            refine List.filter_eq_nil_iff.mpr fun card hcard => ?_
            have := makings_numbered hmore card hcard
            simp only [decide_eq_true_eq]
            omega
          exact ⟨made, hmade, by rw [Nat.add_zero, hall, hnone, List.append_nil]⟩
      | succ offset =>
          rw [List.getElem?_cons_succ] at hnote
          obtain ⟨other, hother, hfilter⟩ := ih hmore hnote
          have hnone : made.cards.filter
              (fun card => card.noteIndex = index + (offset + 1)) = [] := by
            refine List.filter_eq_nil_iff.mpr fun card hcard => ?_
            have := hfirst card hcard
            simp only [decide_eq_true_eq]
            omega
          have hnumber : index + (offset + 1) = index + 1 + offset := by omega
          refine ⟨other, hnumber ▸ hother, ?_⟩
          rw [hnone, List.nil_append, hnumber, hfilter]

/-- A note that fails by itself keeps all from being rendered, the first of them with its failure. -/
theorem makings_error {failure : Failure}
    (h : deck.makings policy index notes = .error failure) :
    ∃ offset note, notes[offset]? = some note ∧
      deck.making policy (index + offset) note = .error failure ∧
      ∀ earlier before, earlier < offset → notes[earlier]? = some before →
        ∃ made, deck.making policy (index + earlier) before = .ok made := by
  induction notes generalizing index with
  | nil => cases h
  | cons first rest ih =>
      cases hmade : deck.making policy index first with
      | error other =>
          rw [makings, hmade] at h
          cases h
          refine ⟨0, first, rfl, hmade, ?_⟩
          intro earlier _ hearlier
          omega
      | ok made =>
          have hrest : deck.makings policy (index + 1) rest = .error failure := by
            rw [makings, hmade] at h
            cases hmore : deck.makings policy (index + 1) rest with
            | error other => rw [hmore] at h; cases h; rfl
            | ok more => rw [hmore] at h; cases h
          obtain ⟨offset, note, hnote, hfails, hearlier⟩ := ih hrest
          refine ⟨offset + 1, note, hnote, by rw [← hfails]; congr 1; omega, ?_⟩
          intro earlier before hlt hbefore
          cases earlier with
          | zero =>
              cases hbefore
              exact ⟨made, hmade⟩
          | succ earlier =>
              obtain ⟨other, hother⟩ := hearlier earlier before (by omega) hbefore
              refine ⟨other, ?_⟩
              rw [← hother]
              congr 1
              omega

end

end Deck

end Flashcards
