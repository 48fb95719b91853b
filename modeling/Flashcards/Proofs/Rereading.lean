import Flashcards.Proofs.Proper
import Flashcards.Proofs.Schema

/-!
# Decks that are written back

A deck that was read can be described by a value again, with every member in its place and the tags
of each note as a list (`Deck.toValue`). Reading that gives the same deck exactly if it is
`Deck.Normal`: what the reader does to names and tags leaves them alone when it is done a second
time. It does so for every deck that the reader gives.

A tag is trimmed and then loses its spaces. It stays trimmed in that, as spaces are blanks and no
blank is left at its ends (`Note.normalTag_spec`).

Where the deck was read from a text, its value has a text again: no note binds a field twice
(`Deck.keyed_of_ofValue`). A value that was read from a text and is refused has a refusal that can be
told as well. It shows the kind of a note type where it is unknown, and numbers in it are not too long
to be written (`Deck.ofValue_failsOnly`).
-/

namespace Flashcards

open Json

/-! ## Names and tags as they are read -/

namespace Note

/-- A tag that is not empty, with no blanks around it and no space in it. -/
structure NormalTag (tag : String) : Prop where
  nonempty : tag ≠ ""
  stripped : Text.trimmed tag = tag
  spaceless : ' ' ∉ tag.toList

variable {tag : String} {tags : List String}

/-- Putting a mark in the place of spaces leaves tight text tight. -/
theorem tight_map_space {cs : List Char} (h : Text.Tight cs) :
    Text.Tight (cs.map fun c => if c = ' ' then '_' else c) := by
  have hmark : ∀ c, Text.isBlank c = false →
      Text.isBlank (if c = ' ' then '_' else c) = false := by
    intro c hc
    split
    · decide
    · exact hc
  constructor
  · intro c hc
    rw [List.head?_map] at hc
    obtain ⟨first, hfirst, rfl⟩ := Option.map_eq_some_iff.mp hc
    exact hmark first (h.1 first hfirst)
  · intro c hc
    rw [List.getLast?_map] at hc
    obtain ⟨last, hlast, rfl⟩ := Option.map_eq_some_iff.mp hc
    exact hmark last (h.2 last hlast)

theorem toList_normalTag (tag : String) : (normalTag tag).toList
    = (Text.trim tag.toList).map fun c => if c = ' ' then '_' else c := by
  rw [normalTag, Text.replaceChar, String.toList_ofList, Text.toList_trimmed]

/-- **What is made of a tag that is not blank is normal.** -/
theorem normalTag_spec (h : Text.trimmed tag ≠ "") : NormalTag (normalTag tag) where
  nonempty := by
    rw [ne_eq, ← String.toList_eq_nil_iff, Text.toList_trimmed] at h
    rwa [ne_eq, ← String.toList_eq_nil_iff, toList_normalTag, List.map_eq_nil_iff]
  stripped := by
    rw [Text.trimmed_eq_self_iff, toList_normalTag]
    exact tight_map_space (Text.tight_trim _)
  spaceless := by
    rw [toList_normalTag, List.mem_map]
    rintro ⟨c, -, hc⟩
    split at hc
    · cases hc
    · rename_i hne
      exact hne hc

theorem normal_of_mem_normalTags (h : tag ∈ normalTags tags) : NormalTag tag := by
  obtain ⟨given, hgiven, rfl⟩ := List.mem_map.mp h
  exact normalTag_spec (of_decide_eq_true (List.mem_filter.mp hgiven).2)

/-- A normal tag is left as it is. -/
theorem NormalTag.normalTag_eq (h : NormalTag tag) : normalTag tag = tag := by
  have hsame : ∀ c ∈ tag.toList, (if c = ' ' then '_' else c) = c :=
    fun c hc => if_neg (ne_of_mem_of_not_mem hc h.spaceless)
  rw [normalTag, h.stripped, Text.replaceChar, List.map_congr_left hsame, List.map_id',
    String.ofList_toList]

/-- **Normal tags are those that are left alone.** -/
theorem normalTags_eq_self_iff : normalTags tags = tags ↔ ∀ tag ∈ tags, NormalTag tag := by
  constructor
  · intro h tag htag
    rw [← h] at htag
    exact normal_of_mem_normalTags htag
  · intro h
    have hkeeps : (tags.filter fun tag => Text.trimmed tag ≠ "") = tags :=
      List.filter_eq_self.mpr fun tag htag => by
        simpa [(h tag htag).stripped] using (h tag htag).nonempty
    rw [normalTags, hkeeps, List.map_congr_left fun tag htag => (h tag htag).normalTag_eq,
      List.map_id']

end Note

/-! ## Decks as values -/

/-- A template as a value. -/
def CardTemplate.toValue (template : CardTemplate) : Value :=
  .obj [("name", .str template.name), ("front", .str template.front), ("back", .str template.back)]

/-- A note type as a value. -/
def NoteType.toValue (noteType : NoteType) : Value :=
  .obj [
    ("name", .str noteType.name),
    ("kind", .str noteType.kind.name),
    ("fields", .ofStrings noteType.fields),
    ("templates", .arr (noteType.templates.map CardTemplate.toValue)),
    ("css", .str noteType.css)]

/-- A note as a value, with a list of its tags. -/
def Note.toValue (note : Note) : Value :=
  .obj [("fields", note.fields.toValue), ("tags", .ofStrings note.tags)]

/-- A deck as a value, with all its members. -/
def Deck.toValue (deck : Deck) : Value :=
  .obj [
    ("deck", .str deck.name),
    ("note_type", deck.noteType.toValue),
    ("notes", .arr (deck.notes.map Note.toValue))]

namespace CardTemplate

theorem ofValue_toValue (index : Nat) (template : CardTemplate) :
    ofValue index template.toValue = .ok template := rfl

@[simp] theorem ofValues_toValue (index : Nat) (templates : List CardTemplate) :
    ofValues index (templates.map toValue) = .ok templates := by
  induction templates generalizing index with
  | nil => rfl
  | cons template rest ih =>
      rw [List.map_cons, ofValues, ofValue_toValue]
      simp only [bind, Except.bind, ih]

end CardTemplate

/-- A note type is read from its value if the names of its fields differ. -/
theorem NoteType.ofValue_toValue_iff {noteType : NoteType} :
    ofValue noteType.toValue = .ok noteType ↔ noteType.fields.Nodup := by
  rw [toValue, ofValue, ofMembers_ok_iff]
  constructor
  · rintro ⟨-, hfields, -⟩
    exact (fieldNamesOf_ok_iff.mp hfields).2
  · intro h
    exact ⟨kindOf_ok_iff.mpr rfl, fieldNamesOf_ok_iff.mpr ⟨rfl, h⟩, _, _, rfl, rfl,
      CardTemplate.ofValue_toValue _ _, CardTemplate.ofValues_toValue _ _, rfl⟩

theorem NoteType.nodup_of_ofValue {v : Value} {noteType : NoteType}
    (h : ofValue v = .ok noteType) : noteType.fields.Nodup := by
  cases v with
  | obj members =>
      obtain ⟨-, hfields, -⟩ := ofMembers_ok_iff.mp h
      exact (fieldNamesOf_ok_iff.mp hfields).2
  | null | bool | int | float | str | arr => cases h

/-- A note is read from its value if its tags are normal. -/
theorem Note.isOf_toValue_iff {note : Note} :
    note.IsOf note.toValue ↔ ∀ tag ∈ note.tags, NormalTag tag := by
  rw [← normalTags_eq_self_iff]
  have hgiven : givenTags? (.ofStrings note.tags) = some note.tags := strings?_eq_some_iff.mpr rfl
  constructor
  · rintro ⟨_, hmembers, -, tags, htags, hnormal⟩
    cases hmembers
    rw [show tags = note.tags from Option.some.inj (htags.symm.trans hgiven)] at hnormal
    exact hnormal.symm
  · intro h
    exact ⟨_, rfl, Fields.ofValue_ok_iff.mpr rfl, _, hgiven, h.symm⟩

namespace Deck

/-- A deck as it is read: its name is not empty and has no blanks around it, the names of its fields
differ, and its tags are normal. -/
structure Normal (deck : Deck) : Prop where
  named : deck.name ≠ ""
  stripped : Text.trimmed deck.name = deck.name
  fields : deck.noteType.fields.Nodup
  tags : ∀ note ∈ deck.notes, ∀ tag ∈ note.tags, Note.NormalTag tag

variable {deck : Deck} {defaultName : String} {v : Value}

/-- **A deck is read from its value exactly if it is normal.** -/
theorem ofValue_toValue_iff : ofValue defaultName deck.toValue = .ok deck ↔ deck.Normal := by
  have hnotes : Note.ofValues 0 (deck.notes.map Note.toValue) = .ok deck.notes ↔
      ∀ note ∈ deck.notes, ∀ tag ∈ note.tags, Note.NormalTag tag := by
    simp only [Note.ofValues_ok_iff, List.forall₂_map_left_iff, List.forall₂_same,
      Note.isOf_toValue_iff]
  rw [toValue, ofValue, ofMembers_ok_iff]
  constructor
  · rintro ⟨hname, items, hitems, htype, hread⟩
    obtain ⟨s, hs, htrimmed, hne⟩ := nameOf_ok_iff.mp hname
    cases hs
    cases hitems
    exact ⟨hne, htrimmed.symm, NoteType.ofValue_toValue_iff.mp htype, hnotes.mp hread⟩
  · intro h
    exact ⟨nameOf_ok_iff.mpr ⟨_, rfl, h.stripped.symm, h.named⟩, _, rfl,
      NoteType.ofValue_toValue_iff.mpr h.fields, hnotes.mpr h.tags⟩

/-- **A deck that was read is normal.** -/
theorem normal_of_ofValue (h : ofValue defaultName v = .ok deck) : deck.Normal := by
  cases v with
  | obj members =>
      obtain ⟨hname, items, -, htype, hread⟩ := ofMembers_ok_iff.mp h
      obtain ⟨s, -, htrimmed, hne⟩ := nameOf_ok_iff.mp hname
      refine ⟨hne, ?_, ?_, fun note hnote tag htag => ?_⟩
      · rw [htrimmed, Text.trimmed_trimmed]
      · exact NoteType.nodup_of_ofValue htype
      · obtain ⟨item, -, _, -, -, tags, -, hnormal⟩ :=
          exists_of_mem_forall₂ (Note.ofValues_ok_iff.mp hread) hnote
        exact Note.normal_of_mem_normalTags (hnormal ▸ htag)
  | null | bool | int | float | str | arr => cases h

end Deck

/-! ## Decks as texts -/

theorem Json.Value.Proper.memberOr {members : Bindings String Value} {v : Value}
    (h : (Value.obj members).Proper) (key : String) (hdefault : v.Proper) :
    (Value.memberOr members key v).Proper := by
  cases h with
  | obj _ _ hmembers =>
      unfold Value.memberOr
      cases hfind : Bindings.find? key members with
      | none => exact hdefault
      | some given => exact hmembers _ (Bindings.mem_of_find? hfind)

/-- The keys of fields are those of the object they are read from, so they differ. -/
theorem Fields.nodup_keys_of_ofValue {v : Value} {fields : Fields} (hv : v.Proper)
    (h : ofValue v = .ok fields) : (Bindings.keys fields).Nodup := by
  rw [ofValue_ok_iff.mp h] at hv
  cases hv with
  | obj _ hkeys _ =>
      rw [Bindings.keys, List.map_map] at hkeys
      exact hkeys

theorem Fields.storable_toValue {fields : Fields} (h : (Bindings.keys fields).Nodup) :
    fields.toValue.Storable := by
  refine .obj _ ?_ fun member hmember => ?_
  · rw [Bindings.keys, List.map_map]
    exact h
  · obtain ⟨field, -, rfl⟩ := List.mem_map.mp hmember
    exact .str _

theorem CardTemplate.storable_toValue (template : CardTemplate) : template.toValue.Storable := by
  simp [toValue, Bindings.keys]

theorem NoteType.storable_toValue (noteType : NoteType) : noteType.toValue.Storable := by
  simp [toValue, Bindings.keys, CardTemplate.storable_toValue]

namespace Deck

variable {deck : Deck} {defaultName : String} {v : Value}

/-- No note has two fields of one name. -/
def Keyed (deck : Deck) : Prop := ∀ note ∈ deck.notes, (Bindings.keys note.fields).Nodup

/-- A deck that is read from a proper value has no field twice. -/
theorem keyed_of_ofValue (hv : v.Proper) (h : ofValue defaultName v = .ok deck) : deck.Keyed := by
  cases v with
  | obj members =>
      obtain ⟨-, items, hitems, -, hread⟩ := ofMembers_ok_iff.mp h
      have hgiven := hv.memberOr "notes" (v := .arr []) (.arr _ (by simp))
      rw [hitems] at hgiven
      cases hgiven with
      | arr _ hproper =>
          intro note hnote
          obtain ⟨item, hitem, given, rfl, hfields, -⟩ :=
            exists_of_mem_forall₂ (Note.ofValues_ok_iff.mp hread) hnote
          exact Fields.nodup_keys_of_ofValue
            ((hproper _ hitem).memberOr "fields" (.obj [] List.nodup_nil (by simp))) hfields
  | null | bool | int | float | str | arr => cases h

theorem storable_toValue (h : deck.Keyed) : deck.toValue.Storable := by
  have hnotes : ∀ note ∈ deck.notes, note.toValue.Storable := fun note hnote => by
    simp [Note.toValue, Bindings.keys, Fields.storable_toValue (h note hnote)]
  simpa [toValue, Bindings.keys, NoteType.storable_toValue] using hnotes

end Deck

/-! ## What a refusal shows -/

/-- Of a value that was read the fault shows what can be written. -/
def InputFault.ShowsProper : InputFault → Prop
  | .unknownKind shown => ∃ v : Value, v.Proper ∧ shown = v.literal
  | .noteFields _ cause => cause.ShowsProper
  | _ => True

theorem textMember_failsOnly (members : Bindings String Value) (place key : String)
    (default : Option String) :
    FailsOnly InputFault.ShowsProper (textMember members place key default) := by
  unfold textMember
  cases Bindings.find? key members with
  | none =>
      cases default with
      | none => exact failsOnly_error trivial
      | some text => exact failsOnly_ok text
  | some given =>
      cases given with
      | str s => exact failsOnly_ok s
      | null | bool | int | float | arr | obj => exact failsOnly_error trivial

theorem Fields.ofValue_failsOnly (v : Value) : FailsOnly InputFault.ShowsProper (ofValue v) := by
  cases v with
  | obj members =>
      induction members with
      | nil => exact failsOnly_ok []
      | cons member rest ih =>
          obtain ⟨name, v⟩ := member
          cases v with
          | str s => exact ih.map _
          | null | bool | int | float | arr | obj => exact failsOnly_error trivial
  | null | bool | int | float | str | arr => exact failsOnly_error trivial

namespace CardTemplate

theorem ofValue_failsOnly (index : Nat) (v : Value) :
    FailsOnly InputFault.ShowsProper (ofValue index v) := by
  cases v with
  | obj members =>
      have htext := textMember_failsOnly members (place index)
      exact (htext _ _).bind fun _ => (htext _ _).bind fun _ => (htext _ _).bind fun _ =>
        failsOnly_ok _
  | null | bool | int | float | str | arr => exact failsOnly_error trivial

theorem ofValues_failsOnly (index : Nat) (items : List Value) :
    FailsOnly InputFault.ShowsProper (ofValues index items) := by
  induction items generalizing index with
  | nil => exact failsOnly_ok []
  | cons item rest ih =>
      exact (ofValue_failsOnly index item).bind fun _ => (ih _).bind fun _ => failsOnly_ok _

end CardTemplate

namespace NoteType

/-- The kind that is refused is shown, whatever it is. -/
theorem kindOf_failsOnly {given : Value} (hgiven : given.Proper) :
    FailsOnly InputFault.ShowsProper (kindOf given) := by
  cases given with
  | str name =>
      rw [kindOf]
      split
      · exact failsOnly_ok _
      · exact failsOnly_error ⟨_, hgiven, rfl⟩
  | null | bool | int | float | arr | obj => exact failsOnly_error ⟨_, hgiven, rfl⟩

theorem fieldNamesOf_failsOnly (given : Value) :
    FailsOnly InputFault.ShowsProper (fieldNamesOf given) := by
  cases given with
  | arr items =>
      rw [fieldNamesOf]
      split
      · exact failsOnly_error trivial
      · split
        · exact failsOnly_ok _
        · exact failsOnly_error trivial
  | null | bool | int | float | str | obj => exact failsOnly_error trivial

theorem ofValue_failsOnly {v : Value} (hv : v.Proper) :
    FailsOnly InputFault.ShowsProper (ofValue v) := by
  cases v with
  | obj members =>
      refine (kindOf_failsOnly (hv.memberOr "kind" (.str _))).bind fun _ =>
        (fieldNamesOf_failsOnly _).bind fun _ => ?_
      split
      · have htext := textMember_failsOnly members "note_type"
        exact (htext _ _).bind fun _ => (CardTemplate.ofValue_failsOnly _ _).bind fun _ =>
          (CardTemplate.ofValues_failsOnly _ _).bind fun _ => (htext _ _).bind fun _ =>
            failsOnly_ok _
      · exact failsOnly_error trivial
  | null | bool | int | float | str | arr => exact failsOnly_error trivial

end NoteType

namespace Note

theorem ofValue_failsOnly (index : Nat) (v : Value) :
    FailsOnly InputFault.ShowsProper (ofValue index v) := by
  cases v with
  | obj members =>
      have hfields (given) : FailsOnly InputFault.ShowsProper
          ((Fields.ofValue given).mapError (.noteFields index)) :=
        (Fields.ofValue_failsOnly given).mapError fun _ h => h
      refine (hfields _).bind fun _ => ?_
      split
      · exact failsOnly_error trivial
      · exact failsOnly_ok _
  | null | bool | int | float | str | arr => exact failsOnly_error trivial

theorem ofValues_failsOnly (index : Nat) (items : List Value) :
    FailsOnly InputFault.ShowsProper (ofValues index items) := by
  induction items generalizing index with
  | nil => exact failsOnly_ok []
  | cons item rest ih =>
      exact (ofValue_failsOnly index item).bind fun _ => (ih _).bind fun _ => failsOnly_ok _

end Note

namespace Deck

variable {deck : Deck} {defaultName : String} {v : Value}

theorem ofValue_failsOnly (hv : v.Proper) :
    FailsOnly InputFault.ShowsProper (ofValue defaultName v) := by
  have hname : ∀ given, FailsOnly InputFault.ShowsProper (nameOf given) := by
    intro given
    unfold nameOf
    split
    · dsimp only
      split
      · exact failsOnly_error trivial
      · exact failsOnly_ok _
    · exact failsOnly_error trivial
  cases v with
  | obj members =>
      refine (hname _).bind fun _ => ?_
      split
      · exact (NoteType.ofValue_failsOnly (hv.memberOr "note_type" .null)).bind fun _ =>
          (Note.ofValues_failsOnly _ _).bind fun _ => failsOnly_ok _
      · exact failsOnly_error trivial
  | null | bool | int | float | str | arr => exact failsOnly_error trivial

/-- How a value is read as a deck. -/
structure ReadAsDescribed (defaultName : String) (v : Value) : Prop where
  /-- A deck is read exactly if the value describes one. -/
  accepts : (∃ deck, ofValue defaultName v = .ok deck) ↔ Describes defaultName v
  /-- All other values are refused. What the refusal shows of a value can be written if the numbers in
  that can. -/
  refuses : ¬ Describes defaultName v →
    ∃ fault, ofValue defaultName v = .error fault ∧ (v.Proper → fault.ShowsProper)
  /-- What is read is normal. -/
  normal : ∀ deck, ofValue defaultName v = .ok deck → deck.Normal
  /-- What is read is read again from its own value, under any default name. -/
  again : ∀ deck, ofValue defaultName v = .ok deck → ∀ other, ofValue other deck.toValue = .ok deck
  /-- If the value comes from a text, the deck has a text as well, in either layout. -/
  written : ∀ text deck, read text = .ok v → ofValue defaultName v = .ok deck →
    ∀ layout, read (deck.toValue.chars layout 0) = .ok deck.toValue
  /-- If the value comes from a text, the refusal shows nothing that cannot be written. -/
  shown : ∀ text fault, read text = .ok v → ofValue defaultName v = .error fault →
    fault.ShowsProper

/-- **Decks are read as they are described, and read again as they were read.** -/
theorem read_as_described (defaultName : String) (v : Value) : ReadAsDescribed defaultName v where
  accepts := exists_ofValue_iff
  refuses h := by
    cases hread : ofValue defaultName v with
    | ok deck => exact absurd (exists_ofValue_iff.mp ⟨deck, hread⟩) h
    | error fault => exact ⟨fault, rfl, fun hv => ofValue_failsOnly hv fault hread⟩
  normal _ := normal_of_ofValue
  again _ h _ := ofValue_toValue_iff.mpr (normal_of_ofValue h)
  written _ _ hv h layout :=
    (storable_toValue (keyed_of_ofValue (proper_of_read hv) h)).read_chars layout
  shown _ _ hv := ofValue_failsOnly (proper_of_read hv) _

/-- A deck with a name between blanks, without some members, and with tags of both spellings. -/
def roughValue : Value :=
  .obj [
    ("deck", .str " D\n"),
    ("note_type", .obj [("templates", .arr [.obj [("back", .str "B"), ("front", .str "F")]])]),
    ("notes", .arr [
      .obj [("tags", .str " a\u3000b ")],
      .obj [("fields", .obj [("F", .str "x")]), ("tags", .ofStrings [" c d\t", "\n"])]])]

/-- What is read from it. -/
def readSample : Deck where
  name := "D"
  noteType :=
    { name := "Basic", kind := .standard, fields := []
      template := ⟨"Card 1", "F", "B"⟩
      moreTemplates := [], css := "" }
  notes := [⟨[], ["a", "b"]⟩, ⟨[("F", "x")], ["c_d"]⟩]

/-- The sample is read, and read again with all its members. With a kind that is nothing, which is
not the same as without a kind, it would be refused. -/
theorem read_as_described_sample :
    (ofValue "Default" roughValue = .ok readSample ∧
      (∀ other, ofValue other readSample.toValue = .ok readSample) ∧
      ∀ layout, read (readSample.toValue.chars layout 0) = .ok readSample.toValue) ∧
    ∃ fault, ofValue "Default" (.obj [("note_type", .obj [("kind", .null)])]) = .error fault ∧
      fault.ShowsProper := by
  have hread : ofValue "Default" roughValue = .ok readSample := by rfl
  have hrough : roughValue.Storable := by simp [roughValue, Bindings.keys]
  have hwrong : (Value.obj [("note_type", .obj [("kind", .null)])]).Storable := by
    simp [Bindings.keys]
  have hrefused : ¬ Describes "Default" (.obj [("note_type", .obj [("kind", .null)])]) := by
    rintro ⟨_, hmembers, -, ⟨_, hgiven, _, hinner, htype⟩, -⟩
    cases hmembers
    cases hgiven
    cases hinner
    have := htype.kind .null rfl
    simp at this
  obtain ⟨fault, hfault, -⟩ := (read_as_described "Default" _).refuses hrefused
  have h := read_as_described "Default" roughValue
  exact ⟨⟨hread, h.again _ hread, h.written _ _ (hrough.read_chars .oneLine) hread⟩, fault, hfault,
    (read_as_described "Default" _).shown _ _ (hwrong.read_chars .oneLine) hfault⟩

end Deck

end Flashcards
