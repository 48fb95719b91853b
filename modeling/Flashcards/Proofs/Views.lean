import Flashcards.Proofs.Bindings
import Flashcards.Proofs.Sides

/-!
# What templates see of a note

A card is rendered over the fields of its note and four special ones, which cover fields of the note
with the same names. To tell what a standard card shows of its note at all, its front is rendered a
second time, over blank fields: the special ones alone, without those that cover a field of the note.

Templates ask fields for the value of a name and for nothing else, so the order of the fields does
not show, nor whether one that is empty is bound (`Rendering.renderCard_congr`). What is rendered is
therefore told by the values: `Deck.Views` says what they are for a card, `Deck.Blank` what they are
for the special fields alone, some of them left out.
-/

namespace Flashcards

open Template

/-! ## Fields with the same values -/

namespace Rendering

variable {fields other : Fields}

theorem evaluate_of_values (h : ∀ name, fields.value name = other.value name) (nodes : Nodes)
    (ordinal : Int) (side : Side) :
    evaluate nodes ⟨fields, ordinal, side⟩ = evaluate nodes ⟨other, ordinal, side⟩ := by
  rw [evaluate, evaluate, Nodes.render_congr (fun name _ => h name)]

/-- A side is the same over fields with the same values. -/
theorem renderSide_congr (h : ∀ name, fields.value name = other.value name) (template : String)
    (ordinal : Int) (side : Side) :
    renderSide template fields ordinal side = renderSide template other ordinal side := by
  simp only [renderSide, evaluate_of_values h]

/-- **So is a card.** -/
theorem renderCard_congr (h : ∀ name, fields.value name = other.value name) (front back : String)
    (ordinal : Int) : renderCard front back fields ordinal = renderCard front back other ordinal := by
  have hbound : ∀ question name, Fields.value (Bindings.bind frontSideField question fields) name
      = Fields.value (Bindings.bind frontSideField question other) name := by
    intro question name
    rw [Fields.value_bind, Fields.value_bind, h name]
  simp only [renderCard, evaluate_of_values h, evaluate_of_values (hbound _)]

end Rendering

/-! ## The fields of a card -/

namespace Deck

variable {deck : Deck} {note : Note} {cardName : String}

/-- The special fields that a card of the note has. -/
def specials (deck : Deck) (note : Note) (cardName : String) : Fields :=
  [("Tags", " ".intercalate note.tags), ("Deck", deck.name), ("Card", cardName),
    ("Type", deck.noteType.name)]

/-- The fields have the values that a card of the note shows: of the special fields where they have
the name, of the note everywhere else. -/
def Views (deck : Deck) (note : Note) (cardName : String) (fields : Fields) : Prop :=
  ∀ name, fields.value name
    = (Bindings.find? name (deck.specials note cardName)).getD (note.fields.value name)

/-- The fields have the values of the special fields that are not hidden, and no others. -/
def Blank (deck : Deck) (note : Note) (cardName : String) (hidden : List String)
    (fields : Fields) : Prop :=
  ∀ name, fields.value name
    = if name ∈ hidden then "" else (deck.specials note cardName).value name

theorem find?_specials_of_not_mem {name : String} (h : name ∉ specialFields) :
    Bindings.find? name (deck.specials note cardName) = none := by
  simp only [specialFields, List.mem_cons, List.not_mem_nil, or_false, not_or] at h
  obtain ⟨-, htags, hdeck, hcard, htype⟩ := h
  simp [specials, Bindings.find?, Ne.symm htags, Ne.symm hdeck, Ne.symm hcard, Ne.symm htype]

theorem value_cardFields (name : String) : (deck.cardFields note cardName).value name
    = (Bindings.find? name (deck.specials note cardName)).getD (note.fields.value name) := by
  simp only [cardFields, Bindings.bindAll, List.foldl_cons, List.foldl_nil, Fields.value_bind,
    specials, Bindings.find?]
  by_cases htype : "Type" = name
  · subst htype
    rfl
  · by_cases hcard : "Card" = name
    · subst hcard
      rfl
    · by_cases hdeck : "Deck" = name
      · subst hdeck
        rfl
      · by_cases htags : "Tags" = name
        · subst htags
          rfl
        · simp [htype, hcard, hdeck, htags]

/-- **A card is rendered over the note's fields, covered by the special ones.** -/
theorem views_cardFields (deck : Deck) (note : Note) (cardName : String) :
    deck.Views note cardName (deck.cardFields note cardName) :=
  fun _ => value_cardFields _

/-- Under no special name, a card shows the note's own field. -/
theorem value_cardFields_of_not_mem {name : String} (h : name ∉ specialFields) :
    (deck.cardFields note cardName).value name = note.fields.value name := by
  rw [value_cardFields, find?_specials_of_not_mem h, Option.getD_none]

theorem blank_specials (deck : Deck) (note : Note) (cardName : String) :
    deck.Blank note cardName [] (deck.specials note cardName) := by
  intro name
  rw [if_neg List.not_mem_nil]

/-- **The blank fields are the special ones that cover no field of the note.** -/
theorem blank_blankFields (deck : Deck) (note : Note) (cardName : String) :
    deck.Blank note cardName (Bindings.keys note.fields) (deck.blankFields note cardName) := by
  intro name
  rw [blankFields, Fields.value_filter _ (fun key => (Bindings.find? key note.fields).isNone),
    value_cardFields]
  simp only [Option.isNone_iff_eq_none, Bindings.find?_eq_none_iff, ite_not]
  by_cases hname : name ∈ Bindings.keys note.fields
  · rw [if_pos hname, if_pos hname]
  · rw [if_neg hname, if_neg hname, Fields.value, Fields.value,
      Bindings.find?_eq_none_iff.mpr hname, Option.getD_none]

theorem Views.eq {fields other : Fields} (h : deck.Views note cardName fields)
    (hother : deck.Views note cardName other) (name : String) :
    fields.value name = other.value name := by
  rw [h name, hother name]

theorem Blank.eq {hidden : List String} {fields other : Fields}
    (h : deck.Blank note cardName hidden fields) (hother : deck.Blank note cardName hidden other)
    (name : String) : fields.value name = other.value name := by
  rw [h name, hother name]

end Deck

end Flashcards
