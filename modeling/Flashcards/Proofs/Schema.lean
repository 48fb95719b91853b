import Flashcards.Deck.Reader
import Flashcards.Proofs.Making
import Flashcards.Proofs.Text
import Mathlib.Data.Set.List

/-!
# What a deck file may hold

A deck is read member by member, and the first thing wrong ends it. Here it is said without an order
what has to be right: which members have to be there and which may be missing, and what each of them
has to be. `Deck.Schema` says so for a deck, put together from what is asked of its note type, its
templates and its notes.

A member that is missing has a default, and the default always is what is asked of the member. So it
makes no difference whether a reader asks for a member or puts the default in its place
(`memberOr_iff`), and a reader of several members succeeds if each of them is right, whatever the
order (`exists_bind_ok_iff`).
-/

namespace Flashcards

open Json

/-- A computation in two parts succeeds exactly if the first part does, and the second with what the
first one gives. -/
theorem exists_bind_ok_iff {ε α β : Type} {first : Except ε α} {rest : α → Except ε β} :
    (∃ y, first >>= rest = .ok y) ↔ ∃ x, first = .ok x ∧ ∃ y, rest x = .ok y := by
  constructor
  · rintro ⟨y, h⟩
    obtain ⟨x, hx, hy⟩ := bind_eq_ok h
    exact ⟨x, hx, y, hy⟩
  · rintro ⟨x, rfl, y, hy⟩
    exact ⟨y, hy⟩

/-! ## Members and their values -/

namespace Json

/-- The value is a text. -/
def Value.IsText (v : Value) : Prop := ∃ s, v = .str s

/-- The value is a list of texts. -/
def Value.IsTexts (v : Value) : Prop := ∃ texts, v = .ofStrings texts

/-- The object has the member, and it is like that. -/
def Required (members : Bindings String Value) (key : String) (P : Value → Prop) : Prop :=
  ∃ v, Bindings.find? key members = some v ∧ P v

/-- If the object has the member, it is like that. -/
def Optional (members : Bindings String Value) (key : String) (P : Value → Prop) : Prop :=
  ∀ v, Bindings.find? key members = some v → P v

variable {P : Value → Prop} {v : Value}

/-- A default that is right leaves the member itself to be looked at. -/
theorem memberOr_iff (members : Bindings String Value) (key : String) (hdefault : P v) :
    P (Value.memberOr members key v) ↔ Optional members key P := by
  unfold Value.memberOr Optional
  cases Bindings.find? key members with
  | none => simpa using hdefault
  | some given => simp

/-- A default that is wrong makes the member necessary. -/
theorem memberOr_required_iff (members : Bindings String Value) (key : String)
    (hdefault : ¬ P v) : P (Value.memberOr members key v) ↔ Required members key P := by
  unfold Value.memberOr Required
  cases Bindings.find? key members with
  | none => simpa using hdefault
  | some given => simp

theorem strings?_eq_some_iff {items : List Value} {texts : List String} :
    Value.strings? items = some texts ↔ items = texts.map .str := by
  induction items generalizing texts with
  | nil => simp [Value.strings?, eq_comm]
  | cons item rest ih =>
      cases item with
      | str s =>
          rw [Value.strings?, Option.map_eq_some_iff]
          constructor
          · rintro ⟨more, hmore, rfl⟩
            rw [List.map_cons, ih.mp hmore]
          · intro h
            cases texts with
            | nil => cases h
            | cons t more =>
                cases h
                exact ⟨more, ih.mpr rfl, rfl⟩
      | null | bool | int | float | arr | obj => cases texts <;> simp [Value.strings?]

end Json

theorem textMember_ok_iff {members : Bindings String Value} {place key text : String}
    {default : Option String} : textMember members place key default = .ok text ↔
      Bindings.find? key members = some (.str text) ∨
        Bindings.find? key members = none ∧ default = some text := by
  unfold textMember
  cases Bindings.find? key members with
  | none => cases default <;> simp
  | some given => cases given <;> simp

/-- A text that may be missing. -/
theorem exists_textMember_iff {members : Bindings String Value} (place key text : String) :
    (∃ s, textMember members place key (some text) = .ok s)
      ↔ Optional members key Value.IsText := by
  simp only [textMember_ok_iff, Optional, Value.IsText]
  cases Bindings.find? key members <;> simp [eq_comm]

/-- A text that has to be there. -/
theorem exists_textMember_none_iff {members : Bindings String Value} (place key : String) :
    (∃ s, textMember members place key none = .ok s)
      ↔ Required members key Value.IsText := by
  simp only [textMember_ok_iff, Required, Value.IsText]
  cases Bindings.find? key members <;> simp [eq_comm]

/-! ## Templates -/

namespace CardTemplate

/-- A template has both its sides. -/
structure Schema (members : Bindings String Value) : Prop where
  name : Optional members "name" Value.IsText
  front : Required members "front" Value.IsText
  back : Required members "back" Value.IsText

/-- The value describes a template. -/
def Describes (v : Value) : Prop := ∃ members, v = .obj members ∧ Schema members

theorem exists_ofValue_iff (index : Nat) {v : Value} :
    (∃ template, ofValue index v = .ok template) ↔ Describes v := by
  cases v with
  | obj members =>
      simp only [ofValue, exists_bind_ok_iff, Describes, Value.obj.injEq, exists_eq_left']
      constructor
      · rintro ⟨name, hname, front, hfront, back, hback, -⟩
        exact ⟨(exists_textMember_iff _ _ _).mp ⟨name, hname⟩,
          (exists_textMember_none_iff _ _).mp ⟨front, hfront⟩,
          (exists_textMember_none_iff _ _).mp ⟨back, hback⟩⟩
      · intro h
        obtain ⟨name, hname⟩ := (exists_textMember_iff _ _ _).mpr h.name
        obtain ⟨front, hfront⟩ := (exists_textMember_none_iff _ _).mpr h.front
        obtain ⟨back, hback⟩ := (exists_textMember_none_iff _ _).mpr h.back
        exact ⟨name, hname, front, hfront, back, hback, _, rfl⟩
  | null | bool | int | float | str | arr => simp [ofValue, Describes]

theorem exists_ofValues_iff (index : Nat) {items : List Value} :
    (∃ templates, ofValues index items = .ok templates) ↔ ∀ item ∈ items, Describes item := by
  induction items generalizing index with
  | nil => simp [ofValues]
  | cons item rest ih =>
      rw [List.forall_mem_cons, ← ih (index + 1), ← exists_ofValue_iff index]
      simp [ofValues, exists_bind_ok_iff]

end CardTemplate

/-! ## Note types -/

namespace NoteType

/-- A note type has a template at least, and the names of its fields differ. -/
structure Schema (members : Bindings String Value) : Prop where
  kind : Optional members "kind" fun v => v = .str "standard" ∨ v = .str "cloze"
  fields : Optional members "fields" fun v => ∃ names, v = .ofStrings names ∧ names.Nodup
  templates : Required members "templates" fun v =>
    ∃ first rest, v = .arr (first :: rest) ∧ ∀ item ∈ first :: rest, CardTemplate.Describes item
  name : Optional members "name" Value.IsText
  css : Optional members "css" Value.IsText

/-- The value describes a note type. -/
def Describes (v : Value) : Prop := ∃ members, v = .obj members ∧ Schema members

theorem ofName?_eq_some_iff {name : String} {kind : NoteKind} :
    NoteKind.ofName? name = some kind ↔ name = kind.name := by
  constructor
  · intro h
    have := List.find?_some h
    exact (of_decide_eq_true this).symm
  · rintro rfl
    cases kind <;> decide

theorem kindOf_ok_iff {given : Value} {kind : NoteKind} :
    kindOf given = .ok kind ↔ given = .str kind.name := by
  cases given with
  | str name =>
      rw [kindOf, Value.str.injEq, ← ofName?_eq_some_iff]
      cases NoteKind.ofName? name <;> simp
  | null | bool | int | float | arr | obj => simp [kindOf]

theorem exists_kindOf_iff {given : Value} : (∃ kind, kindOf given = .ok kind)
    ↔ given = .str "standard" ∨ given = .str "cloze" := by
  simp only [kindOf_ok_iff]
  constructor
  · rintro ⟨kind, rfl⟩
    cases kind with
    | standard => exact .inl rfl
    | cloze => exact .inr rfl
  · rintro (rfl | rfl)
    · exact ⟨.standard, rfl⟩
    · exact ⟨.cloze, rfl⟩

theorem fieldNamesOf_ok_iff {given : Value} {names : List String} :
    fieldNamesOf given = .ok names ↔ given = .ofStrings names ∧ names.Nodup := by
  cases given with
  | arr items =>
      rw [fieldNamesOf, Value.ofStrings, Value.arr.injEq, ← strings?_eq_some_iff]
      cases Value.strings? items with
      | none => simp
      | some texts =>
          simp only [Option.some.injEq]
          split
          · rename_i hnodup
            simp only [Except.ok.injEq]
            exact ⟨fun h => ⟨h, h ▸ hnodup⟩, And.left⟩
          · rename_i hrepeated
            simp only [reduceCtorEq, false_iff]
            rintro ⟨rfl, hnodup⟩
            exact hrepeated hnodup
  | null | bool | int | float | str | obj => simp [fieldNamesOf, Value.ofStrings]

theorem ofMembers_ok_iff {members : Bindings String Value} {noteType : NoteType} :
    ofMembers members = .ok noteType ↔
      kindOf (Value.memberOr members "kind" (.str "standard")) = .ok noteType.kind ∧
      fieldNamesOf (Value.memberOr members "fields" (.arr [])) = .ok noteType.fields ∧
      ∃ first rest, Value.memberOr members "templates" (.arr []) = .arr (first :: rest) ∧
      textMember members "note_type" "name" (some "Basic") = .ok noteType.name ∧
      CardTemplate.ofValue 0 first = .ok noteType.template ∧
      CardTemplate.ofValues 1 rest = .ok noteType.moreTemplates ∧
      textMember members "note_type" "css" (some "") = .ok noteType.css := by
  obtain ⟨name, kind, fields, template, moreTemplates, css⟩ := noteType
  rw [ofMembers]
  constructor
  · intro h
    obtain ⟨_, hkind, h⟩ := bind_eq_ok h
    obtain ⟨_, hfields, h⟩ := bind_eq_ok h
    split at h
    · rename_i first rest hitems
      obtain ⟨_, hname, h⟩ := bind_eq_ok h
      obtain ⟨_, htemplate, h⟩ := bind_eq_ok h
      obtain ⟨_, hmore, h⟩ := bind_eq_ok h
      obtain ⟨_, hcss, h⟩ := bind_eq_ok h
      cases h
      exact ⟨hkind, hfields, first, rest, hitems, hname, htemplate, hmore, hcss⟩
    · cases h
  · rintro ⟨hkind, hfields, first, rest, hitems, hname, htemplate, hmore, hcss⟩
    simp only [hkind, hfields, hitems, hname, htemplate, hmore, hcss]
    rfl

theorem exists_ofMembers_iff {members : Bindings String Value} :
    (∃ noteType, ofMembers members = .ok noteType) ↔ Schema members := by
  -- the defaults of the kind and of the fields are right, that of the templates is not
  have hkinds := memberOr_iff members "kind"
    (P := fun v => v = .str "standard" ∨ v = .str "cloze") (v := .str "standard") (.inl rfl)
  have hnames := memberOr_iff members "fields"
    (P := fun v => ∃ names, v = .ofStrings names ∧ names.Nodup) (v := .arr [])
    ⟨[], rfl, List.nodup_nil⟩
  have htemplates := memberOr_required_iff members "templates"
    (P := fun v => ∃ first rest, v = .arr (first :: rest) ∧
      ∀ item ∈ first :: rest, CardTemplate.Describes item) (v := .arr []) (by simp)
  simp only [ofMembers_ok_iff]
  constructor
  · rintro ⟨noteType, hkind, hfields, first, rest, hitems, hname, htemplate, hmore, hcss⟩
    have hfirst := (CardTemplate.exists_ofValue_iff 0).mp ⟨_, htemplate⟩
    have hrest := (CardTemplate.exists_ofValues_iff 1).mp ⟨_, hmore⟩
    exact ⟨hkinds.mp (exists_kindOf_iff.mp ⟨_, hkind⟩),
      hnames.mp ⟨_, fieldNamesOf_ok_iff.mp hfields⟩,
      htemplates.mp ⟨first, rest, hitems, List.forall_mem_cons.mpr ⟨hfirst, hrest⟩⟩,
      (exists_textMember_iff _ _ _).mp ⟨_, hname⟩, (exists_textMember_iff _ _ _).mp ⟨_, hcss⟩⟩
  · intro h
    obtain ⟨kind, hkind⟩ := exists_kindOf_iff.mpr (hkinds.mpr h.kind)
    obtain ⟨names, hfields⟩ := hnames.mpr h.fields
    obtain ⟨first, rest, hitems, hdescribes⟩ := htemplates.mpr h.templates
    obtain ⟨hfirst, hrest⟩ := List.forall_mem_cons.mp hdescribes
    obtain ⟨template, htemplate⟩ := (CardTemplate.exists_ofValue_iff 0).mpr hfirst
    obtain ⟨moreTemplates, hmore⟩ := (CardTemplate.exists_ofValues_iff 1).mpr hrest
    obtain ⟨name, hname⟩ := (exists_textMember_iff "note_type" "name" "Basic").mpr h.name
    obtain ⟨css, hcss⟩ := (exists_textMember_iff "note_type" "css" "").mpr h.css
    exact ⟨⟨name, kind, names, template, moreTemplates, css⟩, hkind,
      fieldNamesOf_ok_iff.mpr hfields, first, rest, hitems, hname, htemplate, hmore, hcss⟩

theorem exists_ofValue_iff {v : Value} :
    (∃ noteType, ofValue v = .ok noteType) ↔ Describes v := by
  cases v with
  | obj members =>
      simp only [Describes, Value.obj.injEq, exists_eq_left']
      exact exists_ofMembers_iff
  | null | bool | int | float | str | arr => simp [ofValue, Describes]

end NoteType

/-! ## Notes -/

/-- Fields as a value. -/
def Fields.toValue (fields : Fields) : Value :=
  .obj (fields.map fun (name, text) => (name, .str text))

/-- **Fields are read from their own value and from nothing else.** -/
theorem Fields.ofValue_ok_iff {v : Value} {fields : Fields} :
    ofValue v = .ok fields ↔ v = fields.toValue := by
  have hmembers : ∀ (members : List (String × Value)) (fields : Fields),
      ofMembers members = .ok fields ↔ members = fields.map fun (name, text) => (name, .str text) := by
    intro members
    induction members with
    | nil => intro fields; cases fields <;> simp [ofMembers]
    | cons member rest ih =>
        intro fields
        obtain ⟨name, v⟩ := member
        cases v with
        | str s =>
            simp only [ofMembers, map_eq_ok_iff, ih]
            constructor
            · rintro ⟨more, rfl, rfl⟩
              rfl
            · intro h
              cases fields with
              | nil => cases h
              | cons field more =>
                  cases h
                  exact ⟨more, rfl, rfl⟩
        | null | bool | int | float | arr | obj => cases fields <;> simp [ofMembers]
  cases v with
  | obj members => simp only [ofValue, hmembers, toValue, Value.obj.injEq]
  | null | bool | int | float | str | arr => simp [ofValue, toValue]

namespace Note

/-- All fields of a note are texts, and its tags are a text or a list of texts. -/
structure Schema (members : Bindings String Value) : Prop where
  fields : Optional members "fields" fun v =>
    ∃ given, v = .obj given ∧ ∀ member ∈ given, member.2.IsText
  tags : Optional members "tags" fun v => v.IsText ∨ v.IsTexts

/-- The value describes a note. -/
def Describes (v : Value) : Prop := ∃ members, v = .obj members ∧ Schema members

theorem exists_fields_iff {v : Value} : (∃ fields, Fields.ofValue v = .ok fields)
    ↔ ∃ given, v = .obj given ∧ ∀ member ∈ given, member.2.IsText := by
  have htext : ∀ member : String × Value, member.2.IsText ↔
      member ∈ Set.range fun (field : String × String) => (field.1, Value.str field.2) := by
    rintro ⟨name, v⟩
    simp [Value.IsText, eq_comm]
  have hrange := Set.range_list_map fun (field : String × String) => (field.1, Value.str field.2)
  simp only [Fields.ofValue_ok_iff, Fields.toValue, htext]
  constructor
  · rintro ⟨fields, rfl⟩
    exact ⟨_, rfl, hrange.subset ⟨fields, rfl⟩⟩
  · rintro ⟨given, rfl, h⟩
    obtain ⟨fields, rfl⟩ := hrange.superset h
    exact ⟨fields, rfl⟩

theorem exists_givenTags?_iff {v : Value} :
    (∃ tags, givenTags? v = some tags) ↔ v.IsText ∨ v.IsTexts := by
  cases v with
  | arr items => simp [givenTags?, Value.IsText, Value.IsTexts, Value.ofStrings, strings?_eq_some_iff]
  | str s => simp [givenTags?, Value.IsText]
  | null | bool | int | float | obj =>
      simp [givenTags?, Value.IsText, Value.IsTexts, Value.ofStrings]

/-- The note is the one that the value describes. -/
def IsOf (note : Note) (v : Value) : Prop :=
  ∃ members, v = .obj members ∧
    Fields.ofValue (Value.memberOr members "fields" (.obj [])) = .ok note.fields ∧
    ∃ tags, givenTags? (Value.memberOr members "tags" (.arr [])) = some tags ∧
      note.tags = normalTags tags

/-- Where a note stands makes no difference to it. -/
theorem ofValue_ok_iff {index : Nat} {v : Value} {note : Note} :
    ofValue index v = .ok note ↔ note.IsOf v := by
  obtain ⟨fields, tags⟩ := note
  cases v with
  | obj members =>
      simp only [IsOf, Value.obj.injEq, exists_eq_left', ofValue]
      cases Fields.ofValue (Value.memberOr members "fields" (.obj [])) with
      | error fault => simp [Except.mapError, bind, Except.bind]
      | ok given =>
          cases givenTags? (Value.memberOr members "tags" (.arr [])) <;>
            simp [Except.mapError, bind, Except.bind, eq_comm]
  | null | bool | int | float | str | arr => simp [ofValue, IsOf]

theorem exists_ofValue_iff (index : Nat) {v : Value} :
    (∃ note, ofValue index v = .ok note) ↔ Describes v := by
  have hfields (members) := memberOr_iff members "fields"
    (P := fun v => ∃ given, v = .obj given ∧ ∀ member ∈ given, member.2.IsText)
    (v := .obj []) ⟨[], rfl, by simp⟩
  have htags (members) := memberOr_iff members "tags" (P := fun v => v.IsText ∨ v.IsTexts)
    (v := .arr []) (.inr ⟨[], rfl⟩)
  simp only [ofValue_ok_iff]
  constructor
  · rintro ⟨note, members, rfl, hgiven, tags, hnormal, -⟩
    exact ⟨members, rfl, (hfields members).mp (exists_fields_iff.mp ⟨_, hgiven⟩),
      (htags members).mp (exists_givenTags?_iff.mp ⟨tags, hnormal⟩)⟩
  · rintro ⟨members, rfl, h⟩
    obtain ⟨fields, hgiven⟩ := exists_fields_iff.mpr ((hfields members).mpr h.fields)
    obtain ⟨tags, hnormal⟩ := exists_givenTags?_iff.mpr ((htags members).mpr h.tags)
    exact ⟨⟨fields, normalTags tags⟩, members, rfl, hgiven, tags, hnormal, rfl⟩

theorem ofValues_ok_iff {index : Nat} {items : List Value} {notes : List Note} :
    ofValues index items = .ok notes ↔ List.Forall₂ (fun item note => note.IsOf item) items notes := by
  induction items generalizing index notes with
  | nil => simp [ofValues, eq_comm]
  | cons item rest ih =>
      rw [List.forall₂_cons_left_iff, ofValues]
      constructor
      · intro h
        obtain ⟨note, hnote, h⟩ := bind_eq_ok h
        obtain ⟨more, hmore, h⟩ := bind_eq_ok h
        cases h
        exact ⟨note, more, ofValue_ok_iff.mp hnote, ih.mp hmore, rfl⟩
      · rintro ⟨note, more, hnote, hmore, rfl⟩
        rw [ofValue_ok_iff.mpr hnote]
        simp only [bind, Except.bind, ih.mpr hmore]

theorem exists_ofValues_iff (index : Nat) {items : List Value} :
    (∃ notes, ofValues index items = .ok notes) ↔ ∀ item ∈ items, Describes item := by
  simp only [ofValues_ok_iff, exists_forall₂_iff, ← exists_ofValue_iff index, ofValue_ok_iff]

end Note

/-! ## Decks -/

namespace Deck

/-- A deck has a name that is not blank, unless the default one is taken, and a note type. -/
structure Schema (defaultName : String) (members : Bindings String Value) : Prop where
  deck : ∃ name, (Bindings.find? "deck" members).getD (.str defaultName) = .str name ∧
    ∃ c ∈ name.toList, Text.isBlank c = false
  noteType : Required members "note_type" NoteType.Describes
  notes : Optional members "notes" fun v =>
    ∃ items, v = .arr items ∧ ∀ item ∈ items, Note.Describes item

/-- The value describes a deck. -/
def Describes (defaultName : String) (v : Value) : Prop :=
  ∃ members, v = .obj members ∧ Schema defaultName members

theorem nameOf_ok_iff {given : Value} {name : String} : nameOf given = .ok name ↔
    ∃ s, given = .str s ∧ name = Text.trimmed s ∧ name ≠ "" := by
  cases given with
  | str s =>
      simp only [nameOf, Value.str.injEq, exists_eq_left']
      by_cases hblank : Text.trimmed s = ""
      · rw [if_pos hblank]
        simp [hblank]
      · rw [if_neg hblank, Except.ok.injEq]
        exact ⟨fun h => ⟨h.symm, h ▸ hblank⟩, fun h => h.1.symm⟩
  | null | bool | int | float | arr | obj => simp [nameOf]

theorem exists_nameOf_iff {given : Value} : (∃ name, nameOf given = .ok name) ↔
    ∃ name, given = .str name ∧ ∃ c ∈ name.toList, Text.isBlank c = false := by
  simp only [nameOf_ok_iff]
  constructor
  · rintro ⟨_, s, hgiven, rfl, hne⟩
    refine ⟨s, hgiven, ?_⟩
    simpa [Text.trimmed_eq_empty_iff] using hne
  · rintro ⟨s, hgiven, c, hc, hblank⟩
    refine ⟨_, s, hgiven, rfl, fun hempty => ?_⟩
    rw [Text.trimmed_eq_empty_iff.mp hempty c hc] at hblank
    cases hblank

theorem ofMembers_ok_iff {defaultName : String} {members : Bindings String Value} {deck : Deck} :
    ofMembers defaultName members = .ok deck ↔
      nameOf (Value.memberOr members "deck" (.str defaultName)) = .ok deck.name ∧
      ∃ items, Value.memberOr members "notes" (.arr []) = .arr items ∧
      NoteType.ofValue (Value.memberOr members "note_type" .null) = .ok deck.noteType ∧
      Note.ofValues 0 items = .ok deck.notes := by
  obtain ⟨name, noteType, notes⟩ := deck
  rw [ofMembers]
  constructor
  · intro h
    obtain ⟨_, hname, h⟩ := bind_eq_ok h
    split at h
    · rename_i items hitems
      obtain ⟨_, htype, h⟩ := bind_eq_ok h
      obtain ⟨_, hnotes, h⟩ := bind_eq_ok h
      cases h
      exact ⟨hname, items, hitems, htype, hnotes⟩
    · cases h
  · rintro ⟨hname, items, hitems, htype, hnotes⟩
    simp only [hname, hitems, htype, hnotes]
    rfl

/-- **A deck is read from the values that describe one, and from no others.** -/
theorem exists_ofValue_iff {defaultName : String} {v : Value} :
    (∃ deck, ofValue defaultName v = .ok deck) ↔ Describes defaultName v := by
  cases v with
  | obj members =>
      have hnotes := memberOr_iff members "notes"
        (P := fun v => ∃ items, v = .arr items ∧ ∀ item ∈ items, Note.Describes item)
        (v := .arr []) ⟨[], rfl, by simp⟩
      have htype := memberOr_required_iff members "note_type" (P := NoteType.Describes)
        (v := .null) (by simp [NoteType.Describes])
      simp only [Describes, Value.obj.injEq, exists_eq_left', ofValue, ofMembers_ok_iff]
      constructor
      · rintro ⟨deck, hname, items, hitems, hread, hgiven⟩
        exact ⟨exists_nameOf_iff.mp ⟨_, hname⟩,
          htype.mp (NoteType.exists_ofValue_iff.mp ⟨_, hread⟩),
          hnotes.mp ⟨items, hitems, (Note.exists_ofValues_iff 0).mp ⟨_, hgiven⟩⟩⟩
      · intro h
        obtain ⟨name, hname⟩ := exists_nameOf_iff.mpr h.deck
        obtain ⟨noteType, hread⟩ := NoteType.exists_ofValue_iff.mpr (htype.mpr h.noteType)
        obtain ⟨items, hitems, hdescribes⟩ := hnotes.mpr h.notes
        obtain ⟨notes, hgiven⟩ := (Note.exists_ofValues_iff 0).mpr hdescribes
        exact ⟨⟨name, noteType, notes⟩, hname, items, hitems, hread, hgiven⟩
  | null | bool | int | float | str | arr => simp [ofValue, Describes]

end Deck

end Flashcards
