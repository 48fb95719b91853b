import Flashcards.Proofs.Dependence
import Flashcards.Proofs.Making

/-!
# Numbers that are too long

The one step of a rendering that can fail is reading the number of a deletion. Here it is said when
this happens. A value is overlong if one of its deletions has more digits than the limit allows, and
a field is overlong in a context if such a value reaches a cloze filter on the way through its
filters. A tree is overlong if it shows an overlong field, and then it has no rendering; otherwise
it has one (`Nodes.render_cases`). The same then holds of one side of a card
(`Rendering.renderSide_cases`) and of both of them (`Rendering.renderCard_cases`), where the back
template may show the front that was rendered before.

Fields in sections that are skipped do not count: `Nodes.shown` lists the fields that are shown.
-/

namespace Flashcards

namespace Cloze

/-- A value has a deletion whose number has more digits than the limit allows. -/
def Overlong (value : String) : Prop :=
  ∃ gap, Part.deletion gap ∈ parts value.toList ∧ Numeral.digitLimit < gap.digits.length

theorem not_overlong_iff {value : String} : ¬ Overlong value ↔
    ∀ gap, Part.deletion gap ∈ parts value.toList → gap.digits.length ≤ Numeral.digitLimit := by
  simp only [Overlong, not_exists, not_and, Nat.not_lt]

theorem Part.display_ok_iff {target : Int} {side : Side} {part : Part} :
    (∃ shown, part.display target side = .ok shown)
      ↔ ∀ gap, Part.deletion gap = part → gap.digits.length ≤ Numeral.digitLimit := by
  cases part with
  | plain c => simp [display]
  | deletion gap =>
      by_cases hlong : Numeral.digitLimit < gap.digits.length
      · simp [display, Deletion.ordinal, Numeral.ofDigits, hlong, bind, Except.bind]
      · simp [display, Deletion.ordinal, Numeral.ofDigits, hlong, bind, Except.bind,
          Nat.le_of_not_lt hlong]

/-- **A value can be shown unless it is overlong**, whichever card is looked at. -/
theorem display_ok_iff {target : Int} {side : Side} {value : String} :
    (∃ shown, display target side value = .ok shown) ↔ ¬ Overlong value := by
  have hparts : ∀ ps, (∃ shown, displayParts target side ps = .ok shown) ↔
      ∀ gap, Part.deletion gap ∈ ps → gap.digits.length ≤ Numeral.digitLimit := by
    intro ps
    induction ps with
    | nil => simp [displayParts]
    | cons part rest ih =>
        simp only [List.mem_cons, or_imp, forall_and]
        rw [← ih, ← Part.display_ok_iff, displayParts]
        cases part.display target side with
        | error fault => simp [bind, Except.bind]
        | ok first => cases displayParts target side rest <;> simp [bind, Except.bind]
  rw [not_overlong_iff, ← hparts, display]
  cases displayParts target side (parts value.toList) <;> simp [Except.map]

end Cloze

namespace Template

variable {context : Context}

/-! ## Fields -/

/-- On its way through filters a value reaches a cloze filter and is overlong there. -/
def HandsOverlong (context : Context) (value : String) (filters : List Filter) : Prop :=
  ∃ outer inner handed, filters = outer ++ .cloze :: inner ∧
    applyFilters context value inner = .ok handed ∧ Cloze.Overlong handed

theorem handsOverlong_cons {value : String} {filter : Filter} {inner : List Filter} :
    HandsOverlong context value (filter :: inner) ↔ HandsOverlong context value inner ∨
      filter = .cloze ∧ ∃ handed, applyFilters context value inner = .ok handed ∧
        Cloze.Overlong handed := by
  constructor
  · rintro ⟨outer, more, handed, hfilters, hhanded⟩
    cases outer with
    | nil =>
        cases hfilters
        exact .inr ⟨rfl, handed, hhanded⟩
    | cons first outer =>
        cases hfilters
        exact .inl ⟨outer, more, handed, rfl, hhanded⟩
  · rintro (⟨outer, more, handed, rfl, hhanded⟩ | ⟨rfl, handed, hhanded⟩)
    · exact ⟨filter :: outer, more, handed, rfl, hhanded⟩
    · exact ⟨[], inner, handed, rfl, hhanded⟩

/-- All filters but one give a text whatever they are given. -/
theorem apply_ok_iff {filter : Filter} {ordinal : Int} {side : Side} {value : String} :
    (∃ shown, filter.apply ordinal side value = .ok shown)
      ↔ ¬ (filter = .cloze ∧ Cloze.Overlong value) := by
  cases filter with
  | cloze => simpa [Filter.apply] using Cloze.display_ok_iff
  | text | hint | furigana | typing | kanji | kana => simp [Filter.apply]

theorem applyFilters_ok_iff {value : String} {filters : List Filter} :
    (∃ shown, applyFilters context value filters = .ok shown)
      ↔ ¬ HandsOverlong context value filters := by
  induction filters with
  | nil => simp [applyFilters, HandsOverlong]
  | cons filter inner ih =>
      rw [handsOverlong_cons, not_or, ← ih, applyFilters_cons]
      cases applyFilters context value inner with
      | error fault => simp [bind, Except.bind]
      | ok handed => simpa [bind, Except.bind] using apply_ok_iff

/-- A field is overlong in a context if its value is when a cloze filter of the field gets it. -/
def FieldRef.Overlong (context : Context) (ref : FieldRef) : Prop :=
  HandsOverlong context (context.fields.value ref.name) ref.filters

theorem FieldRef.render_ok_iff {ref : FieldRef} :
    (∃ shown, ref.render context = .ok shown) ↔ ¬ ref.Overlong context :=
  applyFilters_ok_iff

/-! ## Trees -/

/-- The fields that a tree shows in a context, in order. -/
def Nodes.shown (context : Context) : Nodes → List FieldRef
  | .nil => []
  | .text _ rest => rest.shown context
  | .field ref rest => ref :: rest.shown context
  | .block name negate body rest =>
    (if showsSection context name negate then body.shown context else []) ++ rest.shown context

/-- A tree is overlong in a context if it shows an overlong field. -/
def Nodes.Overlong (context : Context) (nodes : Nodes) : Prop :=
  ∃ ref ∈ nodes.shown context, ref.Overlong context

/-- The walk over a list of sequences fails exactly at the overlong fields they show. -/
theorem renderAgenda_ok_iff (agenda : List Nodes) (written : String) :
    (∃ text, renderAgenda context agenda written = .ok text)
      ↔ ∀ nodes ∈ agenda, ∀ ref ∈ nodes.shown context, ¬ ref.Overlong context := by
  fun_induction renderAgenda context agenda written with
  | case1 written => simp
  | case2 written later ih => simpa [Nodes.shown] using ih
  | case3 written literal rest later ih => simpa [Nodes.shown] using ih
  | case4 written ref rest later ih =>
      simp only [List.forall_mem_cons, Nodes.shown, ← FieldRef.render_ok_iff] at ih ⊢
      cases hshown : ref.render context with
      | error fault => simp [bind, Except.bind]
      | ok shown => simpa [bind, Except.bind, and_assoc] using ih shown
  | case5 written name negate body rest later hshown ih =>
      simpa [Nodes.shown, hshown, or_imp, forall_and, and_assoc] using ih
  | case6 written name negate body rest later hskipped ih =>
      simpa [Nodes.shown, hskipped] using ih

theorem Nodes.render_ok_iff {nodes : Nodes} :
    (∃ text, nodes.render context = .ok text) ↔ ¬ nodes.Overlong context := by
  rw [Nodes.render, renderAgenda_ok_iff]
  simp [Nodes.Overlong]

/-- **A tree has a rendering, or it shows an overlong field and is refused for the length of a
numeral.** -/
theorem Nodes.render_cases (context : Context) (nodes : Nodes) :
    (∃ text, nodes.render context = .ok text ∧ ¬ nodes.Overlong context) ∨
      ∃ fault, nodes.render context = .error fault ∧ fault.IsTooLong ∧
        nodes.Overlong context := by
  cases hrender : nodes.render context with
  | ok text => exact .inl ⟨text, rfl, Nodes.render_ok_iff.mp ⟨text, hrender⟩⟩
  | error fault =>
      refine .inr ⟨fault, rfl, nodes.render_failsOnly context fault hrender, ?_⟩
      by_contra hnot
      obtain ⟨text, htext⟩ := Nodes.render_ok_iff.mpr hnot
      rw [hrender] at htext
      cases htext

end Template

/-! ## Cards -/

namespace Rendering

open Template

variable {policy : Policy} {template front back : String} {nodes frontNodes backNodes : Nodes}
  {fields : Fields} {ordinal : Int} {side : Side}

theorem evaluate_cases (policy : Policy) (nodes : Nodes) (context : Context) :
    (∃ text, (evaluate nodes context).plain policy = .ok text ∧ nodes.render context = .ok text ∧
      ¬ nodes.Overlong context) ∨
    ∃ failure, (evaluate nodes context).plain policy = .error failure ∧ failure.IsTooLong ∧
      nodes.Overlong context := by
  rw [plain_evaluate]
  rcases nodes.render_cases context with ⟨text, hrender, hnot⟩ | ⟨fault, hrender, hlong, hover⟩
  · exact .inl ⟨text, by rw [hrender]; rfl, hrender, hnot⟩
  · exact .inr ⟨_, by rw [hrender]; rfl, hlong.failure, hover⟩

/-- A card is overlong if its front is, or else its back, which sees the rendered front. -/
def CardOverlong (front back : Nodes) (fields : Fields) (ordinal : Int) : Prop :=
  front.Overlong ⟨fields, ordinal, .question⟩ ∨
  ∃ question, front.render ⟨fields, ordinal, .question⟩ = .ok question ∧
    back.Overlong ⟨Bindings.bind frontSideField question fields, ordinal, .answer⟩

/-- **Once its templates can be read, a card has both sides, or it is refused for the length of a
numeral.** -/
theorem renderCard_cases (hfront : parse policy front = .ok frontNodes)
    (hback : parse policy back = .ok backNodes) (hordinal : ¬ ordinal < 0) :
    (∃ rendered, (renderCard front back fields ordinal).plain policy = .ok rendered ∧
      ¬ CardOverlong frontNodes backNodes fields ordinal) ∨
    ∃ failure, (renderCard front back fields ordinal).plain policy = .error failure ∧
      failure.IsTooLong ∧ CardOverlong frontNodes backNodes fields ordinal := by
  unfold renderCard
  rw [if_neg hordinal, plain_parseFace_bind hfront, plain_parseFace_bind hback,
    (transparent_evaluate _ _).plain_bind]
  rcases evaluate_cases policy frontNodes ⟨fields, ordinal, .question⟩ with
    ⟨question, hrun, hquestion, hfrontFits⟩ | ⟨failure, hrun, hlong, hover⟩
  · rw [hrun]
    -- The back sees the rendered front, so it is this text that it is overlong with or not.
    show (∃ rendered, (evaluate backNodes _ >>= _).plain policy = _ ∧ _) ∨
      ∃ failure, (evaluate backNodes _ >>= _).plain policy = _ ∧ _
    rw [(transparent_evaluate _ _).plain_bind]
    rcases evaluate_cases policy backNodes
        ⟨Bindings.bind frontSideField question fields, ordinal, .answer⟩ with
      ⟨answer, hrun, -, hbackFits⟩ | ⟨failure, hrun, hlong, hover⟩
    · refine .inl ⟨⟨question, answer⟩, by rw [hrun]; rfl, ?_⟩
      rintro (hfrontOver | ⟨other, hother, hbackOver⟩)
      · exact hfrontFits hfrontOver
      · obtain rfl := Except.ok.inj (hquestion.symm.trans hother)
        exact hbackFits hbackOver
    · exact .inr ⟨failure, by rw [hrun]; rfl, hlong, .inr ⟨question, hquestion, hover⟩⟩
  · exact .inr ⟨failure, by rw [hrun]; rfl, hlong, .inl hover⟩

end Rendering

end Flashcards
