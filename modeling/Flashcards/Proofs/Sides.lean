import Flashcards.Proofs.Masking
import Flashcards.Proofs.Naming

/-!
# What the back sees of the front

A card is made in four steps: both templates are read, the front is rendered, and the back is
rendered over the fields with the question bound under `FrontSide`. `renderCard_ok_iff` says when
all four succeed and what they give. The front does not occur in the last step but for the question,
and what the fields had under `FrontSide` is covered there, so neither can reach the answer in
another way (`back_sees_question`).

Over a renderer that can be trusted a computation gives what it gives over one that keeps nothing,
so two cards may be compared that are made by different renderers of one policy, or by the same one
at different times. A renderer can be trusted when it is new, and it stays so whatever it is asked
for (`Renderer.Sound.of_call`).
-/

namespace Flashcards

/-- A renderer that answered a call can be trusted as before, and has its policy still. -/
theorem Renderer.Sound.of_call {renderer : Renderer} (h : renderer.Sound) (call : Renderer.Call) :
    (call.rendering.outcome renderer).2.Sound ∧
      (call.rendering.outcome renderer).2.policy = renderer.policy := by
  obtain ⟨outcome, after, hrun, hafter, hpolicy, -⟩ := call.transparent renderer h
  rw [hrun]
  exact ⟨hafter, hpolicy⟩

namespace Rendering

open Template

variable {policy : Policy} {template front back : String} {nodes : Nodes} {fields other : Fields}
  {ordinal : Int} {side : Side} {text : String} {rendered : Rendered}

theorem evaluate_ok_iff {context : Context} :
    (evaluate nodes context).plain policy = .ok text ↔ nodes.render context = .ok text := by
  rw [plain_evaluate, mapError_eq_ok_iff]

/-- One side by itself is the rendering of its tree. -/
theorem renderSide_ok_iff :
    (renderSide template fields ordinal side).plain policy = .ok text ↔
      ∃ nodes, parse policy template = .ok nodes ∧
        nodes.render ⟨fields, ordinal, side⟩ = .ok text := by
  rw [renderSide]
  cases hparse : parse policy template with
  | error error =>
      rw [plain_parseFace_fails hparse]
      simp
  | ok nodes =>
      rw [plain_parseFace_bind hparse, evaluate_ok_iff]
      simp

/-- The back is rendered over the question that the front gave. -/
theorem sides_ok_iff {backNodes : Nodes} :
    (sides nodes backNodes fields ordinal).plain policy = .ok rendered ↔
      nodes.render ⟨fields, ordinal, .question⟩ = .ok rendered.question ∧
        backNodes.render ⟨Bindings.bind frontSideField rendered.question fields, ordinal, .answer⟩
          = .ok rendered.answer := by
  rw [sides, (transparent_evaluate _ _).plain_bind, plain_evaluate]
  cases nodes.render ⟨fields, ordinal, .question⟩ with
  | error fault => simp [Except.mapError, bind, Except.bind]
  | ok question =>
      show (evaluate backNodes _ >>= _).plain policy = _ ↔ _
      rw [(transparent_evaluate _ _).plain_bind, plain_evaluate]
      obtain ⟨asked, answered⟩ := rendered
      constructor
      · intro h
        obtain ⟨answer, hanswer, hpair⟩ := bind_eq_ok h
        cases hpair
        exact ⟨rfl, mapError_eq_ok_iff.mp hanswer⟩
      · rintro ⟨hquestion, hanswer⟩
        cases hquestion
        rw [hanswer]
        rfl

/-- **A card is made if its number is not negative, both templates can be read and both sides have a
rendering, the back over the question.** -/
theorem renderCard_ok_iff :
    (renderCard front back fields ordinal).plain policy = .ok rendered ↔
      0 ≤ ordinal ∧ ∃ frontNodes backNodes, parse policy front = .ok frontNodes ∧
        parse policy back = .ok backNodes ∧
        frontNodes.render ⟨fields, ordinal, .question⟩ = .ok rendered.question ∧
        backNodes.render ⟨Bindings.bind frontSideField rendered.question fields, ordinal, .answer⟩
          = .ok rendered.answer := by
  by_cases hnegative : ordinal < 0
  · rw [plain, outcome_renderCard_negative hnegative]
    simp [hnegative]
  · rw [renderCard_eq, if_neg hnegative]
    have hordinal := Int.not_lt.mp hnegative
    cases hfront : parse policy front with
    | error error =>
        rw [plain_parseFace_fails hfront]
        simp
    | ok frontNodes =>
        rw [plain_parseFace_bind hfront]
        cases hback : parse policy back with
        | error error =>
            rw [plain_parseFace_fails hback]
            simp
        | ok backNodes =>
            rw [plain_parseFace_bind hback, sides_ok_iff]
            simp [hordinal]

/-- Whatever the fields have under `FrontSide`, the back sees what is bound there. -/
theorem render_frontSide_congr
    (h : ∀ name, name ≠ frontSideField → other.value name = fields.value name) (question : String) :
    nodes.render ⟨Bindings.bind frontSideField question other, ordinal, side⟩
      = nodes.render ⟨Bindings.bind frontSideField question fields, ordinal, side⟩ := by
  refine Nodes.render_congr (fun name _ => ?_) ordinal side
  rw [Fields.value_bind, Fields.value_bind]
  split
  · rfl
  · rename_i hname
    exact h name (Ne.symm hname)

/-- A back that does not name `FrontSide` does not see the question. -/
theorem render_frontSide_of_not_mem (h : frontSideField ∉ nodes.names) (question : String) :
    nodes.render ⟨Bindings.bind frontSideField question fields, ordinal, side⟩
      = nodes.render ⟨fields, ordinal, side⟩ :=
  Nodes.render_congr (fun name hname => by
    rw [Fields.value_bind, if_neg fun heq : frontSideField = name => h (heq ▸ hname)]) ordinal side

/--
**The back sees of the front what the question shows, under `FrontSide`.**

A renderer that can be trusted makes a card, and other cards are made by any such renderer of the
same policy. The question is what the front shows by itself, so it is the same with every back. The
answer is what the back shows where `FrontSide` is the question, and if the back does not name it,
what the back shows by itself. Another front over fields that differ under `FrontSide` at most gives
the same card once it shows the same question. Where no card is made because a template cannot be
read, the front is heard of before the back, and a negative number before both.
-/
theorem back_sees_question {renderer another : Renderer} (hsound : renderer.Sound)
    (hanother : another.Sound) (hpolicy : another.policy = renderer.policy) (front back : String)
    (fields : Fields) (ordinal : Int) :
    (∀ rendered, ((renderCard front back fields ordinal).outcome renderer).1 = .ok rendered →
      ((renderSide front fields ordinal .question).outcome another).1 = .ok rendered.question ∧
      (∀ otherBack card,
        ((renderCard front otherBack fields ordinal).outcome another).1 = .ok card →
        card.question = rendered.question) ∧
      (∃ backNodes, parse renderer.policy back = .ok backNodes ∧
        backNodes.render ⟨Bindings.bind frontSideField rendered.question fields, ordinal, .answer⟩
          = .ok rendered.answer ∧
        (frontSideField ∉ backNodes.names →
          ((renderSide back fields ordinal .answer).outcome another).1 = .ok rendered.answer)) ∧
      ∀ otherFront otherFields,
        (∀ name, name ≠ frontSideField →
          Fields.value otherFields name = fields.value name) →
        ((renderSide otherFront otherFields ordinal .question).outcome another).1
          = .ok rendered.question →
        ((renderCard otherFront back otherFields ordinal).outcome another).1 = .ok rendered) ∧
    (0 ≤ ordinal → ∀ error, parse renderer.policy front = .error error →
      ((renderCard front back fields ordinal).outcome renderer).1
        = .error (.template (some .front) error)) ∧
    (0 ≤ ordinal → ∀ frontNodes error, parse renderer.policy front = .ok frontNodes →
      parse renderer.policy back = .error error →
      ((renderCard front back fields ordinal).outcome renderer).1
        = .error (.template (some .back) error)) ∧
    (ordinal < 0 → ((renderCard front back fields ordinal).outcome renderer).1
      = .error (.negativeOrdinal ordinal)) := by
  simp only [(transparent_renderCard _ _ _ _).outcome_fst hsound,
    (transparent_renderCard _ _ _ _).outcome_fst hanother,
    (transparent_renderSide _ _ _ _).outcome_fst hanother, hpolicy]
  refine ⟨fun rendered hcard => ?_, ?_, ?_, ?_⟩
  · obtain ⟨hordinal, frontNodes, backNodes, hfront, hback, hquestion, hanswer⟩ :=
      renderCard_ok_iff.mp hcard
    refine ⟨renderSide_ok_iff.mpr ⟨frontNodes, hfront, hquestion⟩, ?_,
      ⟨backNodes, hback, hanswer, ?_⟩, ?_⟩
    · intro otherBack card hother
      obtain ⟨-, otherNodes, -, hother, -, hasked, -⟩ := renderCard_ok_iff.mp hother
      obtain rfl := Except.ok.inj (hfront.symm.trans hother)
      exact Except.ok.inj (hasked.symm.trans hquestion)
    · intro habsent
      rw [render_frontSide_of_not_mem habsent] at hanswer
      exact renderSide_ok_iff.mpr ⟨backNodes, hback, hanswer⟩
    · intro otherFront otherFields hfields hside
      obtain ⟨otherNodes, hother, hasked⟩ := renderSide_ok_iff.mp hside
      rw [← render_frontSide_congr hfields] at hanswer
      exact renderCard_ok_iff.mpr
        ⟨hordinal, otherNodes, backNodes, hother, hback, hasked, hanswer⟩
  · intro hordinal error hfront
    rw [renderCard_eq, if_neg (Int.not_lt.mpr hordinal), plain_parseFace_fails hfront]
  · intro hordinal frontNodes error hfront hback
    rw [renderCard_eq, if_neg (Int.not_lt.mpr hordinal), plain_parseFace_bind hfront,
      plain_parseFace_fails hback]
  · intro hnegative
    rw [plain, outcome_renderCard_negative hnegative]

/-- The front of the sample, which shows one field. -/
def sampleFront : String := shownTag "text:F"

/-- The back of the sample, which shows the question and another field. -/
def sampleBack : String := shownTag "FrontSide" ++ shownTag "B"

/-- A renderer with room for one template. -/
def sampleRenderer : Renderer := ⟨.lenient, some (Cache.empty 1)⟩

/-- The renderer of the sample once it has made its card. -/
def sampleServed : Renderer :=
  ((Renderer.Call.renderCard sampleFront sampleBack [("F", "a"), ("B", "b")] 1).rendering.outcome
    sampleRenderer).2

/-- The renderer that made the first card makes one with another front, which asks the same. What
the second note brings along under `FrontSide` does not show. -/
theorem back_sees_question_sample :
    ((renderCard sampleFront sampleBack [("F", "a"), ("B", "b")] 1).outcome sampleRenderer).1
      = .ok ⟨"a", "ab"⟩ ∧
    ((renderSide "a" [("B", "b"), ("FrontSide", "c"), ("F", "a")] 1 .question).outcome
        sampleServed).1 = .ok "a" ∧
    ((renderCard "a" sampleBack [("B", "b"), ("FrontSide", "c"), ("F", "a")] 1).outcome
        sampleServed).1 = .ok ⟨"a", "ab"⟩ ∧
    ((renderCard "\x7b\x7b" "\x7b\x7bB" [] 0).outcome sampleRenderer).1
      = .error (.template (some .front) (.unterminatedTag 0)) := by
  have hsound : sampleRenderer.Sound := Renderer.sound_empty .lenient 1
  obtain ⟨hserved, hpolicy⟩ : sampleServed.Sound ∧ sampleServed.policy = sampleRenderer.policy :=
    hsound.of_call _
  have hcard : ((renderCard sampleFront sampleBack [("F", "a"), ("B", "b")] 1).outcome
      sampleRenderer).1 = .ok ⟨"a", "ab"⟩ := by
    rw [(transparent_renderCard _ _ _ _).outcome_fst hsound]
    exact renderCard_ok_iff.mpr ⟨by decide, .field ⟨"F", [.text]⟩ .nil,
      .field ⟨frontSideField, []⟩ (.field ⟨"B", []⟩ .nil), by cbv, by cbv, by cbv, by cbv⟩
  have hside : ((renderSide "a" [("B", "b"), ("FrontSide", "c"), ("F", "a")] 1 .question).outcome
      sampleServed).1 = .ok "a" := by
    rw [(transparent_renderSide _ _ _ _).outcome_fst hserved, hpolicy]
    exact renderSide_ok_iff.mpr ⟨.text "a" .nil, by cbv, by cbv⟩
  have hfields : ∀ name, name ≠ frontSideField →
      Fields.value [("B", "b"), ("FrontSide", "c"), ("F", "a")] name
        = Fields.value [("F", "a"), ("B", "b")] name := by
    intro name hname
    by_cases hb : "B" = name
    · subst hb
      rfl
    · have hfront : ¬ "FrontSide" = name := Ne.symm hname
      simp [Fields.value, Bindings.find?, hb, hfront]
  obtain ⟨hmade, -, -, -⟩ := back_sees_question hsound hserved hpolicy sampleFront sampleBack
    [("F", "a"), ("B", "b")] 1
  obtain ⟨-, -, -, hother⟩ := hmade _ hcard
  obtain ⟨-, hfails, -, -⟩ := back_sees_question hsound hsound rfl "\x7b\x7b" "\x7b\x7bB" [] 0
  exact ⟨hcard, hside, hother _ _ hfields hside, hfails (by decide) _ (by decide +kernel)⟩

end Rendering

end Flashcards
