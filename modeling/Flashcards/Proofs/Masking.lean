import Flashcards.Cloze.Display
import Flashcards.Proofs.Dependence
import Flashcards.Proofs.Transparency
import Mathlib.Data.List.Forall2
import Mathlib.Tactic.Ring

/-!
# What a question hides

The question of the card of a number hides the answers that have this number. Two values that differ
in hidden answers only are cut into the same parts, so the cloze filter shows the same for both
(`display_eq`), and from there on nothing can tell them apart: neither the filters around it, nor a
section that asks whether the field is set, nor the back template, which sees the question alone.

A deletion shows its number in digits, and how many digits there are can show in a failure. As no
number is written with a zero in front, the number tells how many they are
(`Numeral.length_eq_of_value_eq`), and the digits need not be compared.
-/

namespace Flashcards

namespace Numeral

/-! ## Digits and numbers -/

/-- The digits of a number above zero as they are written: without a zero in front. -/
structure Written (digits : List Char) : Prop where
  nonempty : digits ≠ []
  digit : ∀ c ∈ digits, isDigit c = true
  head : digits.head? ≠ some '0'

theorem toNat_of_isDigit {c : Char} (h : isDigit c = true) : 48 ≤ c.toNat ∧ c.toNat ≤ 57 := by
  simpa [isDigit, Char.le_def, UInt32.le_iff_toNat_le] using h

/-- Further digits behind a number. -/
theorem foldl_value (start : Nat) (digits : List Char) :
    digits.foldl (fun n c => 10 * n + (c.toNat - 48)) start
      = start * 10 ^ digits.length + value digits := by
  unfold value
  induction digits generalizing start with
  | nil => simp
  | cons c rest ih =>
      rw [List.foldl_cons, List.foldl_cons, ih, ih (10 * 0 + _), List.length_cons, pow_succ]
      ring

theorem value_cons (c : Char) (rest : List Char) :
    value (c :: rest) = (c.toNat - 48) * 10 ^ rest.length + value rest := by
  rw [value, List.foldl_cons, foldl_value]
  simp

theorem value_lt {digits : List Char} (h : ∀ c ∈ digits, isDigit c = true) :
    value digits < 10 ^ digits.length := by
  induction digits with
  | nil => simp [value]
  | cons c rest ih =>
      obtain ⟨hc, hrest⟩ := List.forall_mem_cons.mp h
      have hdigit := toNat_of_isDigit hc
      have hlow := ih hrest
      rw [value_cons, List.length_cons, pow_succ]
      have hhigh : (c.toNat - 48) * 10 ^ rest.length ≤ 9 * 10 ^ rest.length :=
        Nat.mul_le_mul_right _ (by omega)
      omega

theorem Written.le_value {digits : List Char} (h : Written digits) :
    10 ^ (digits.length - 1) ≤ value digits := by
  obtain ⟨hne, hdigit, hhead⟩ := h
  cases digits with
  | nil => exact absurd rfl hne
  | cons c rest =>
      have hc := toNat_of_isDigit (hdigit c (List.mem_cons_self ..))
      have hzero : c.toNat ≠ 48 := by
        intro hval
        have hchar : c = '0' := Char.toNat_inj.mp hval
        exact hhead (by rw [hchar]; rfl)
      have hfirst : 1 * 10 ^ rest.length ≤ (c.toNat - 48) * 10 ^ rest.length :=
        Nat.mul_le_mul_right _ (by omega)
      rw [value_cons, List.length_cons, Nat.add_sub_cancel]
      omega

/-- **A number tells how many digits it is written with.** -/
theorem length_eq_of_value_eq {digits others : List Char} (h : Written digits)
    (ho : Written others) (heq : value digits = value others) :
    digits.length = others.length := by
  have hlt := value_lt h.digit
  have hlt' := value_lt ho.digit
  have hle := h.le_value
  have hle' := ho.le_value
  have hshort : digits.length - 1 < others.length :=
    (Nat.pow_lt_pow_iff_right (by omega)).mp (Nat.lt_of_le_of_lt hle (heq ▸ hlt'))
  have hshort' : others.length - 1 < digits.length :=
    (Nat.pow_lt_pow_iff_right (by omega)).mp (Nat.lt_of_le_of_lt hle' (heq ▸ hlt))
  have hpos := List.length_pos_iff.mpr h.nonempty
  have hpos' := List.length_pos_iff.mpr ho.nonempty
  omega

end Numeral

namespace Cloze

/-! ## The parts of a value -/

/-- The number of a deletion, however long it is. -/
def Deletion.number (deletion : Deletion) : Nat := Numeral.value deletion.digits

theorem deletionAt?_written {cs behind : List Char} {deletion : Deletion}
    (h : deletionAt? cs = some (deletion, behind)) : Numeral.Written deletion.digits := by
  obtain ⟨rest, after, -, hne, hordinal, -, -⟩ := deletionAt?_eq_some h
  unfold takeOrdinal at hordinal
  split at hordinal
  · exact absurd (congrArg Prod.fst hordinal).symm hne
  · rename_i hzero
    have hdigits : rest.takeWhile Numeral.isDigit = deletion.digits := congrArg Prod.fst hordinal
    rw [← hdigits] at hne ⊢
    refine ⟨hne, fun c hc => List.mem_takeWhile_imp hc, ?_⟩
    -- digits are taken, so the first of them is the first character
    cases rest with
    | nil => exact hzero
    | cons c rest =>
        rw [List.takeWhile_cons]
        split
        · exact hzero
        · simp

theorem written_of_mem_parts {cs : List Char} {deletion : Deletion}
    (h : Part.deletion deletion ∈ parts cs) : Numeral.Written deletion.digits := by
  fun_induction parts cs with
  | case1 cs first behind hfirst ih =>
      rcases List.mem_cons.mp h with hhead | hrest
      · cases hhead
        exact deletionAt?_written hfirst
      · exact ih hrest
  | case2 => cases h
  | case3 c rest hplain ih =>
      rcases List.mem_cons.mp h with hhead | hrest
      · cases hhead
      · exact ih hrest

/-- Only the empty value has no parts. -/
theorem parts_eq_nil_iff {cs : List Char} : parts cs = [] ↔ cs = [] := by
  constructor
  · intro h
    cases cs with
    | nil => rfl
    | cons c rest =>
        rw [parts] at h
        split at h <;> cases h
  · rintro rfl
    cbv

/-! ## Values that differ in hidden answers -/

/-- Two parts that show the same where the answers of a number are hidden. -/
inductive Part.Alike (hidden : Int) : Part → Part → Prop
  | plain (c : Char) : Part.Alike hidden (.plain c) (.plain c)
  | deletion {gap other : Deletion} :
      gap.number = other.number → gap.hint = other.hint →
      ((gap.number : Int) ≠ hidden → gap.answer = other.answer) →
      Part.Alike hidden (.deletion gap) (.deletion other)

/-- Two values with the same text between their deletions, and the same numbers and hints in them.
Only answers of the hidden number may differ. -/
def Alike (hidden : Int) (value other : String) : Prop :=
  List.Forall₂ (Part.Alike hidden) (parts value.toList) (parts other.toList)

theorem Alike.isEmpty_iff {hidden : Int} {value other : String} (h : Alike hidden value other) :
    value = "" ↔ other = "" := by
  have hempty : ∀ s : String, s = "" ↔ parts s.toList = [] := by
    intro s
    rw [parts_eq_nil_iff, String.toList_eq_nil_iff]
  rw [hempty, hempty, ← List.length_eq_zero_iff, ← List.length_eq_zero_iff, h.length_eq]

theorem Deletion.ordinal_eq {gap other : Deletion} (hgap : Numeral.Written gap.digits)
    (hother : Numeral.Written other.digits) (h : gap.number = other.number) :
    gap.ordinal = other.ordinal := by
  have hlength := Numeral.length_eq_of_value_eq hgap hother h
  unfold number at h
  rw [ordinal, ordinal, Numeral.ofDigits, Numeral.ofDigits, hlength, h]

theorem Deletion.ordinal_ok {gap : Deletion} {n : Nat} (h : gap.ordinal = .ok n) :
    n = gap.number := by
  unfold ordinal Numeral.ofDigits at h
  split at h
  · cases h
  · exact (Except.ok.inj h).symm

/-- On the question side a part shows what one shows that is alike. -/
theorem Part.Alike.display_eq {hidden : Int} {part other : Part} (h : Part.Alike hidden part other)
    (hpart : ∀ gap, part = .deletion gap → Numeral.Written gap.digits)
    (hother : ∀ gap, other = .deletion gap → Numeral.Written gap.digits) :
    part.display hidden .question = other.display hidden .question := by
  cases h with
  | plain c => rfl
  | @deletion gap other hnumber hhint hanswer =>
      have hordinal := Deletion.ordinal_eq (hpart gap rfl) (hother other rfl) hnumber
      rw [Part.display, Part.display, ← hordinal]
      cases hread : gap.ordinal with
      | error fault => rfl
      | ok n =>
          have hn := Deletion.ordinal_ok hread
          simp only [bind, Except.bind]
          by_cases hhidden : (n : Int) = hidden
          · -- the answer is hidden, and the hints are the same
            have hshown : gap.shown .question = other.shown .question := by
              unfold Deletion.shown
              rw [hhint]
              cases other.hint <;> rfl
            rw [if_pos hhidden, if_pos hhidden, hshown]
          · rw [if_neg hhidden, if_neg hhidden, hanswer (hn ▸ hhidden)]

theorem displayParts_eq {hidden : Int} {ps others : List Part}
    (h : List.Forall₂ (Part.Alike hidden) ps others)
    (hps : ∀ gap, Part.deletion gap ∈ ps → Numeral.Written gap.digits)
    (hothers : ∀ gap, Part.deletion gap ∈ others → Numeral.Written gap.digits) :
    displayParts hidden .question ps = displayParts hidden .question others := by
  induction h with
  | nil => rfl
  | @cons part other rest more hhead _ ih =>
      have hfirst := hhead.display_eq (fun gap hgap => hps gap (hgap ▸ List.mem_cons_self ..))
        fun gap hgap => hothers gap (hgap ▸ List.mem_cons_self ..)
      have hrest := ih (fun gap hgap => hps gap (List.mem_cons_of_mem _ hgap))
        fun gap hgap => hothers gap (List.mem_cons_of_mem _ hgap)
      rw [displayParts, displayParts, hfirst, hrest]

/-- **The cloze filter shows the same question for values that differ in hidden answers.** -/
theorem Alike.display_eq {hidden : Int} {value other : String} (h : Alike hidden value other) :
    display hidden .question value = display hidden .question other := by
  rw [display, display, displayParts_eq h (fun _ => written_of_mem_parts)
    fun _ => written_of_mem_parts]

end Cloze

/-! ## Fields that differ in hidden answers -/

open Template

/-- Two sets of fields that are the same but for the hidden answers in one of them. -/
structure Fields.Alike (name : String) (hidden : Int) (fields other : Fields) : Prop where
  /-- No other field differs. -/
  elsewhere : ∀ another, another ≠ name → fields.value another = other.value another
  /-- In this one only hidden answers differ. -/
  within : Cloze.Alike hidden (fields.value name) (other.value name)

namespace Fields.Alike

variable {name : String} {hidden : Int} {fields other : Fields}

theorem isSet_eq (h : fields.Alike name hidden other) (another : String) :
    fields.isSet another = other.isSet another := by
  unfold Fields.isSet
  by_cases hname : another = name
  · rw [hname, Bool.eq_iff_iff, bne_iff_ne, bne_iff_ne]
    exact not_congr h.within.isEmpty_iff
  · rw [h.elsewhere another hname]

/-- Binding the same field on both sides leaves them alike. -/
theorem bind (h : fields.Alike name hidden other) (bound text : String) :
    Fields.Alike name hidden (Bindings.bind bound text fields)
      (Bindings.bind bound text other) where
  elsewhere := by
    intro another hname
    rw [value_bind, value_bind, h.elsewhere another hname]
  within := by
    rw [value_bind, value_bind]
    split
    · exact List.forall₂_same.mpr fun part _ => by
        cases part with
        | plain c => exact .plain c
        | deletion gap => exact .deletion rfl rfl fun _ => rfl
    · exact h.within

/-- Where the cloze filter comes first, nothing shows of what is hidden. -/
theorem render_eq (h : fields.Alike name hidden other) {ref : FieldRef}
    (hcloze : ref.name = name → ref.filters.getLast? = some .cloze) :
    ref.render ⟨fields, hidden, .question⟩ = ref.render ⟨other, hidden, .question⟩ := by
  by_cases hname : ref.name = name
  · have hinner : ∀ filters : List Filter, filters.getLast? = some .cloze →
        applyFilters ⟨fields, hidden, .question⟩ (fields.value name) filters
          = applyFilters ⟨other, hidden, .question⟩ (other.value name) filters := by
      intro filters hlast
      induction filters with
      | nil => cases hlast
      | cons filter inner ih =>
          cases inner with
          | nil =>
              -- the first filter to be applied is the one that hides
              obtain rfl : filter = .cloze := Option.some.inj hlast
              exact h.within.display_eq
          | cons next inner =>
              rw [applyFilters_cons _ _ filter, applyFilters_cons _ _ filter, ih hlast]
    unfold FieldRef.render
    rw [hname]
    exact hinner ref.filters (hcloze hname)
  · exact FieldRef.render_congr (h.elsewhere _ hname) rfl rfl

/-- A front that passes the field through the cloze filter first cannot tell such fields apart. -/
theorem agree_question (h : fields.Alike name hidden other) {nodes : Nodes}
    (hcloze : ∀ ref ∈ nodes.fieldRefs, ref.name = name → ref.filters.getLast? = some .cloze) :
    nodes.Agree ⟨fields, hidden, .question⟩ ⟨other, hidden, .question⟩ where
  fields ref hmem := h.render_eq (hcloze ref hmem)
  sections another _ := h.isSet_eq another

/-- A back that does not show the field cannot tell such fields apart. -/
theorem agree_answer (h : fields.Alike name hidden other) {nodes : Nodes} (ordinal : Int)
    (habsent : ∀ ref ∈ nodes.fieldRefs, ref.name ≠ name) :
    nodes.Agree ⟨fields, ordinal, .answer⟩ ⟨other, ordinal, .answer⟩ where
  fields ref hmem := FieldRef.render_congr (h.elsewhere _ (habsent ref hmem)) rfl rfl
  sections another _ := h.isSet_eq another

end Fields.Alike

/-! ## Cards -/

namespace Rendering

variable {renderer : Renderer} {nodes : Nodes}

/-- Over a renderer that can be trusted, a template that can be read gives its tree. -/
theorem outcome_parseFace_ok (hsound : renderer.Sound) {template : String}
    (h : parse renderer.policy template = .ok nodes) (face : Option Face) :
    ∃ after, (parseFace face template).outcome renderer = (.ok nodes, after) ∧
      after.Sound ∧ after.policy = renderer.policy := by
  obtain ⟨after, hrun, hafter, hpolicy⟩ := hsound.parseCached template
  refine ⟨after, ?_, hafter, hpolicy⟩
  rw [outcome_parseFace, hrun, h]
  rfl

theorem evaluate_congr {context other : Context} (h : nodes.Agree context other) :
    evaluate nodes context = evaluate nodes other := by
  rw [evaluate, evaluate, h.render_eq]

/-- The two sides of a card whose templates are read. -/
def sides (front back : Nodes) (fields : Fields) (ordinal : Int) : Rendering Rendered := do
  let question ← evaluate front ⟨fields, ordinal, .question⟩
  let answer ← evaluate back ⟨Bindings.bind frontSideField question fields, ordinal, .answer⟩
  pure ⟨question, answer⟩

theorem renderCard_eq (front back : String) (fields : Fields) (ordinal : Int) :
    renderCard front back fields ordinal = (do
      if ordinal < 0 then throw (.negativeOrdinal ordinal)
      let frontNodes ← parseFace (some .front) front
      let backNodes ← parseFace (some .back) back
      sides frontNodes backNodes fields ordinal) := rfl

theorem outcome_renderCard_negative {ordinal : Int} (h : ordinal < 0) {front back : String}
    {fields : Fields} : (renderCard front back fields ordinal).outcome renderer
      = (.error (.negativeOrdinal ordinal), renderer) := by
  rw [renderCard_eq, if_pos h]
  exact outcome_bind_error rfl _

/-- Once both templates can be read, only the evaluation of the sides is left of a card. -/
theorem outcome_renderCard (hsound : renderer.Sound) {front back : String} {backNodes : Nodes}
    (hfront : parse renderer.policy front = .ok nodes)
    (hback : parse renderer.policy back = .ok backNodes) {ordinal : Int}
    (hordinal : ¬ ordinal < 0) :
    ∃ after : Renderer, after.Sound ∧ after.policy = renderer.policy ∧
      ∀ fields, (renderCard front back fields ordinal).outcome renderer
        = (sides nodes backNodes fields ordinal).outcome after := by
  obtain ⟨after, hrun, hafter, hpolicy⟩ := outcome_parseFace_ok hsound hfront (some .front)
  rw [← hpolicy] at hback
  obtain ⟨last, hrun', hlast, hpolicy'⟩ := outcome_parseFace_ok hafter hback (some .back)
  refine ⟨last, hlast, hpolicy'.trans hpolicy, ?_⟩
  intro fields
  rw [renderCard_eq, if_neg hordinal, outcome_bind_ok hrun, outcome_bind_ok hrun']

theorem sides_congr {backNodes : Nodes} {name : String} {ordinal : Int} {fields other : Fields}
    (h : fields.Alike name ordinal other)
    (hcloze : ∀ ref ∈ nodes.fieldRefs, ref.name = name → ref.filters.getLast? = some .cloze)
    (habsent : ∀ ref ∈ backNodes.fieldRefs, ref.name ≠ name) :
    sides nodes backNodes fields ordinal = sides nodes backNodes other ordinal := by
  have hanswer : ∀ question,
      evaluate backNodes ⟨Bindings.bind frontSideField question fields, ordinal, .answer⟩
        = evaluate backNodes ⟨Bindings.bind frontSideField question other, ordinal, .answer⟩ :=
    fun question => evaluate_congr ((h.bind _ question).agree_answer ordinal habsent)
  simp only [sides, evaluate_congr (h.agree_question hcloze), hanswer]

/--
**A question does not give away what it hides.**

Let the front pass a field through the cloze filter before any other, wherever it shows it. Then the
question of the card of a number is the same for any two notes that differ in answers of this number
in this field only. If the back does not show the field, the whole card is the same.
-/
theorem question_hides (hsound : renderer.Sound) {front : String}
    (hfront : parse renderer.policy front = .ok nodes) {name : String}
    (hcloze : ∀ ref ∈ nodes.fieldRefs, ref.name = name → ref.filters.getLast? = some .cloze)
    {ordinal : Int} {fields other : Fields} (hfields : fields.Alike name ordinal other) :
    (renderSide front fields ordinal .question).outcome renderer
        = (renderSide front other ordinal .question).outcome renderer ∧
      ∀ back backNodes, parse renderer.policy back = .ok backNodes →
        (∀ ref ∈ backNodes.fieldRefs, ref.name ≠ name) →
        (renderCard front back fields ordinal).outcome renderer
          = (renderCard front back other ordinal).outcome renderer := by
  refine ⟨?_, ?_⟩
  · have hquestion := evaluate_congr (hfields.agree_question hcloze)
    obtain ⟨after, hrun, -, -⟩ := outcome_parseFace_ok hsound hfront none
    rw [renderSide, renderSide, outcome_bind_ok hrun, outcome_bind_ok hrun, hquestion]
  · intro back backNodes hback habsent
    by_cases hnegative : ordinal < 0
    · rw [outcome_renderCard_negative hnegative, outcome_renderCard_negative hnegative]
    · obtain ⟨after, -, -, hcard⟩ := outcome_renderCard hsound hfront hback hnegative
      rw [hcard, hcard, sides_congr hfields hcloze habsent]

/-- The hidden answer shows neither in its section nor behind the id that a hint cuts from what it
is given, and a number that two deletions share hides both answers. -/
theorem question_hides_capital :
    ∃ before after : Fields,
      before.value "T" = shownTag "c1::Paris::city" ++ "in " ++ shownTag "c2::France"
        ++ shownTag "c1::Seine" ∧
      after.value "T" = shownTag "c1::Lyon::city" ++ "in " ++ shownTag "c2::France"
        ++ shownTag "c1::" ∧
      (renderCard (shownTag "#T" ++ shownTag "hint:cloze:T" ++ shownTag "/T")
          (shownTag "FrontSide" ++ shownTag "^T" ++ "-" ++ shownTag "/T") before 1).outcome
            (.uncached .strict)
        = (renderCard (shownTag "#T" ++ shownTag "hint:cloze:T" ++ shownTag "/T")
          (shownTag "FrontSide" ++ shownTag "^T" ++ "-" ++ shownTag "/T") after 1).outcome
            (.uncached .strict) := by
  let value := shownTag "c1::Paris::city" ++ "in " ++ shownTag "c2::France" ++ shownTag "c1::Seine"
  let other := shownTag "c1::Lyon::city" ++ "in " ++ shownTag "c2::France" ++ shownTag "c1::"
  have hfront : parse .strict (shownTag "#T" ++ shownTag "hint:cloze:T" ++ shownTag "/T")
      = .ok (.block "T" false (.field ⟨"T", [.hint, .cloze]⟩ .nil) .nil) := by cbv
  have hback : parse .strict (shownTag "FrontSide" ++ shownTag "^T" ++ "-" ++ shownTag "/T")
      = .ok (.field ⟨"FrontSide", []⟩ (.block "T" true (.text "-" .nil) .nil)) := by cbv
  have hparts : Cloze.parts value.toList
      = [.deletion ⟨['1'], "Paris".toList, some "city".toList⟩, .plain 'i', .plain 'n',
        .plain ' ', .deletion ⟨['2'], "France".toList, none⟩,
        .deletion ⟨['1'], "Seine".toList, none⟩] := by decide +kernel
  have hothers : Cloze.parts other.toList
      = [.deletion ⟨['1'], "Lyon".toList, some "city".toList⟩, .plain 'i', .plain 'n',
        .plain ' ', .deletion ⟨['2'], "France".toList, none⟩,
        .deletion ⟨['1'], [], none⟩] := by decide +kernel
  have hwithin : Cloze.Alike 1 value other := by
    rw [Cloze.Alike, hparts, hothers]
    refine .cons (.deletion rfl rfl ?_) (.cons (.plain _) (.cons (.plain _) (.cons (.plain _)
      (.cons (.deletion rfl rfl fun _ => rfl) (.cons (.deletion rfl rfl ?_) .nil)))))
    · intro hshown
      exact absurd rfl hshown
    · intro hshown
      exact absurd rfl hshown
  have hfields : Fields.Alike "T" 1 [("T", value)] [("T", other)] := by
    refine ⟨?_, hwithin⟩
    intro another hname
    simp [Fields.value, Bindings.find?, Ne.symm hname]
  have hsound := Renderer.sound_uncached .strict
  refine ⟨[("T", value)], [("T", other)], rfl, rfl, ?_⟩
  exact (question_hides hsound hfront (by decide +kernel) hfields).2 _ _ hback (by decide +kernel)

end Rendering

end Flashcards
