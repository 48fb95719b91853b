import Flashcards.Deck.Cards

/-!
# How a rendering can fail

Of all that is done to the text of a note, one step alone can fail: reading the number of a deletion
with more digits than the limit allows. All other filters give a text whatever they are given, and a
tree is walked to its end. So a rendering whose templates can be read fails in this way or not at
all, and it does not matter which texts the filters hand on to each other.

The statement is carried from the deletion up to the tree (`Nodes.render_failsOnly`) and to the
numbers of a note (`Deck.noteOrdinals_failsOnly`) along the steps of the computation: what is put
together from computations that fail in one way fails in that way.
-/

namespace Flashcards

/-! ## Computations that fail in one way -/

/-- Every failure of the computation is an allowed one. -/
def FailsOnly {ε α : Type} (allowed : ε → Prop) (outcome : Except ε α) : Prop :=
  ∀ failure, outcome = .error failure → allowed failure

section

variable {ε δ α β : Type} {allowed : ε → Prop} {outcome : Except ε α}

theorem failsOnly_ok (x : α) : FailsOnly allowed (.ok x) := by
  intro failure h
  cases h

theorem failsOnly_error {failure : ε} (h : allowed failure) :
    FailsOnly allowed (.error failure : Except ε α) := by
  intro other hother
  cases hother
  exact h

theorem FailsOnly.bind (h : FailsOnly allowed outcome) {rest : α → Except ε β}
    (hrest : ∀ x, FailsOnly allowed (rest x)) : FailsOnly allowed (outcome >>= rest) := by
  cases outcome with
  | ok x => exact hrest x
  | error failure => exact failsOnly_error (h failure rfl)

theorem FailsOnly.map (h : FailsOnly allowed outcome) (f : α → β) :
    FailsOnly allowed (outcome.map f) := by
  cases outcome with
  | ok x => exact failsOnly_ok _
  | error failure => exact failsOnly_error (h failure rfl)

theorem FailsOnly.mapError (h : FailsOnly allowed outcome) {as : ε → δ} {other : δ → Prop}
    (has : ∀ failure, allowed failure → other (as failure)) :
    FailsOnly other (outcome.mapError as) := by
  cases outcome with
  | ok x => exact failsOnly_ok x
  | error failure => exact failsOnly_error (has failure (h failure rfl))

/-- What is said of all failures of some kind holds where they are the only ones. -/
theorem failsOnly_mapError {as : ε → δ} {other : δ → Prop} (h : ∀ failure, other (as failure)) :
    FailsOnly other (outcome.mapError as) := by
  cases outcome with
  | ok x => exact failsOnly_ok x
  | error failure => exact failsOnly_error (h failure)

end

/-- A numeral was refused for its length. -/
def Numeral.Fault.IsTooLong (fault : Numeral.Fault) : Prop :=
  ∃ digits, fault = .tooLong digits ∧ digitLimit < digits

theorem Numeral.ofDigits_failsOnly (digits : List Char) :
    FailsOnly Fault.IsTooLong (ofDigits digits) := by
  unfold ofDigits
  split
  · exact failsOnly_error ⟨_, rfl, ‹_›⟩
  · exact failsOnly_ok _

/-! ## Deletions -/

namespace Cloze

theorem Part.display_failsOnly (target : Int) (side : Side) (part : Part) :
    FailsOnly Numeral.Fault.IsTooLong (part.display target side) := by
  cases part with
  | plain c => exact failsOnly_ok [c]
  | deletion gap => exact (Numeral.ofDigits_failsOnly gap.digits).bind fun _ => failsOnly_ok _

theorem display_failsOnly (target : Int) (side : Side) (value : String) :
    FailsOnly Numeral.Fault.IsTooLong (display target side value) := by
  have hparts : ∀ ps, FailsOnly Numeral.Fault.IsTooLong (displayParts target side ps) := by
    intro ps
    induction ps with
    | nil => exact failsOnly_ok []
    | cons part rest ih =>
        exact (part.display_failsOnly target side).bind fun _ => ih.bind fun _ => failsOnly_ok _
  exact (hparts _).map _

theorem ordinals_failsOnly (value : String) :
    FailsOnly Numeral.Fault.IsTooLong (ordinals value) := by
  have hspans : ∀ ps start, FailsOnly Numeral.Fault.IsTooLong (spansFrom start ps) := by
    intro ps
    induction ps with
    | nil => exact fun _ => failsOnly_ok []
    | cons part rest ih =>
        intro start
        cases part with
        | plain c => exact ih (start + 1)
        | deletion gap =>
            exact (Numeral.ofDigits_failsOnly gap.digits).bind fun _ =>
              (ih _).bind fun _ => failsOnly_ok _
  exact (hspans _ 0).map _

/-- **The deletions of a value have numbers unless one of them is too long.** -/
theorem ordinals_ok_iff (value : String) :
    (∃ numbers, ordinals value = .ok numbers) ↔
      ∀ gap, Part.deletion gap ∈ parts value.toList →
        gap.digits.length ≤ Numeral.digitLimit := by
  have hspans : ∀ ps start, (∃ spans, spansFrom start ps = .ok spans) ↔
      ∀ gap, Part.deletion gap ∈ ps → gap.digits.length ≤ Numeral.digitLimit := by
    intro ps
    induction ps with
    | nil => exact fun _ => ⟨fun _ _ h => (List.not_mem_nil h).elim, fun _ => ⟨[], rfl⟩⟩
    | cons part rest ih =>
        intro start
        cases part with
        | plain c => simpa [spansFrom] using ih (start + 1)
        | deletion gap =>
            have hrest := ih (start + gap.source.length)
            simp only [List.mem_cons, Part.deletion.injEq, forall_eq_or_imp, ← hrest, spansFrom,
              Deletion.ordinal, Numeral.ofDigits]
            by_cases hlong : Numeral.digitLimit < gap.digits.length
            · simp [hlong, Nat.not_le_of_lt hlong, bind, Except.bind]
            · cases spansFrom (start + gap.source.length) rest with
              | error fault => simp [hlong, bind, Except.bind]
              | ok spans => simp [hlong, bind, Except.bind, Nat.le_of_not_lt hlong]
  rw [← hspans _ 0, ordinals, spans]
  cases spansFrom 0 (parts value.toList) <;> simp [Except.map]

end Cloze

theorem Deck.noteOrdinals_failsOnly (note : Note) (names : List String) :
    FailsOnly Numeral.Fault.IsTooLong (noteOrdinals note names) := by
  induction names with
  | nil => exact failsOnly_ok []
  | cons name rest ih =>
      exact (Cloze.ordinals_failsOnly _).bind fun _ => ih.bind fun _ => failsOnly_ok _

/-- The same of the fields that count for the cards of a note. -/
theorem Deck.noteOrdinals_ok_iff (note : Note) (names : List String) :
    (∃ numbers, noteOrdinals note names = .ok numbers) ↔
      ∀ name ∈ names, ∀ gap, Cloze.Part.deletion gap ∈ Cloze.parts (note.fields.value name).toList →
        gap.digits.length ≤ Numeral.digitLimit := by
  induction names with
  | nil => simp [noteOrdinals]
  | cons name rest ih =>
      rw [List.forall_mem_cons, ← ih, ← Cloze.ordinals_ok_iff, noteOrdinals]
      cases Cloze.ordinals (note.fields.value name) with
      | error fault => simp [bind, Except.bind]
      | ok found => cases noteOrdinals note rest <;> simp [bind, Except.bind]

/-! ## Trees -/

theorem Filter.apply_failsOnly (filter : Filter) (ordinal : Int) (side : Side) (value : String) :
    FailsOnly Numeral.Fault.IsTooLong (filter.apply ordinal side value) := by
  cases filter with
  | cloze => exact Cloze.display_failsOnly ordinal side value
  | text | hint | furigana | typing | kanji | kana => exact failsOnly_ok _

namespace Template

theorem FieldRef.render_failsOnly (context : Context) (ref : FieldRef) :
    FailsOnly Numeral.Fault.IsTooLong (ref.render context) := by
  have hfilters : ∀ value filters,
      FailsOnly Numeral.Fault.IsTooLong (applyFilters context value filters) := by
    intro value filters
    induction filters with
    | nil => exact failsOnly_ok value
    | cons filter inner ih => exact ih.bind fun value => filter.apply_failsOnly _ _ value
  exact hfilters _ _

/-- **A tree can be rendered, unless a number in what it shows is too long.** -/
theorem Nodes.render_failsOnly (context : Context) (nodes : Nodes) :
    FailsOnly Numeral.Fault.IsTooLong (nodes.render context) := by
  have hagenda : ∀ agenda written,
      FailsOnly Numeral.Fault.IsTooLong (renderAgenda context agenda written) := by
    intro agenda written
    fun_induction renderAgenda context agenda written with
    | case1 written => exact failsOnly_ok written
    | case2 written later ih => exact ih
    | case3 written literal rest later ih => exact ih
    | case4 written ref rest later ih => exact (ref.render_failsOnly context).bind ih
    | case5 written name negate body rest later hshown ih => exact ih
    | case6 written name negate body rest later hskipped ih => exact ih
  exact hagenda [nodes] ""

end Template

end Flashcards
