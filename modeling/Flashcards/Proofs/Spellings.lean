import Flashcards.Proofs.Rereading
import Flashcards.Proofs.Views

/-!
# The two spellings of tags

The tags of a note are given as a list or as the words of one text, and templates see them as such a
text. If this text is given for the list, the tags that are read are the words of those that were
read before (`Deck.ofValue_respell`). Cutting a text into words goes by all blanks, while only spaces
are taken out of the tags in a list. So a tag that holds another blank is cut in pieces on this way,
and it is the only thing that can happen to a tag.
-/

namespace Flashcards

open Json

/-! ## Tags that are words -/

namespace Note

variable {tag : String} {given : List String}

theorem normalTag_of_mem_words {s : String} (h : tag ∈ Text.words s) : NormalTag tag := by
  obtain ⟨hne, hsolid⟩ := Text.spec_of_mem_words h
  refine ⟨hne, ?_, fun hspace => ?_⟩
  · exact Text.trimmed_eq_self_iff.mpr (Text.tight_of_forall hsolid)
  · exact absurd (hsolid _ hspace) (by decide)

/-- Words are normal tags already. -/
theorem normalTags_words (s : String) : normalTags (Text.words s) = Text.words s :=
  normalTags_eq_self_iff.mpr fun _ => normalTag_of_mem_words

/-- A normal tag is cut in pieces wherever there is a blank in it. -/
theorem NormalTag.one_lt_length_words (h : NormalTag tag) {c : Char} (hmem : c ∈ tag.toList)
    (hc : Text.isBlank c = true) : 1 < (Text.words tag).length := by
  have := Text.one_lt_length_words (Text.trimmed_eq_self_iff.mp h.stripped) hmem hc
  rwa [String.ofList_toList] at this

/-- **Tags as notes carry them hold no blanks exactly if inside those that were given there are none
but spaces.** -/
theorem normalTags_solid_iff : (∀ tag ∈ normalTags given, ∀ c ∈ tag.toList, Text.isBlank c = false) ↔
    ∀ tag ∈ given, ∀ c ∈ Text.trim tag.toList, Text.isBlank c = true → c = ' ' := by
  constructor
  · intro h tag htag c hc hblank
    by_contra hspace
    have hkept : Text.trimmed tag ≠ "" := by
      rw [ne_eq, ← String.toList_eq_nil_iff, Text.toList_trimmed]
      exact List.ne_nil_of_mem hc
    have hmem : c ∈ (normalTag tag).toList := by
      rw [toList_normalTag]
      exact List.mem_map.mpr ⟨c, hc, if_neg hspace⟩
    have hsolid := h _ (List.mem_map_of_mem (List.mem_filter.mpr ⟨htag, decide_eq_true hkept⟩)) c hmem
    rw [hblank] at hsolid
    cases hsolid
  · intro h tag htag c hc
    obtain ⟨source, hsource, rfl⟩ := List.mem_map.mp htag
    rw [toList_normalTag] at hc
    obtain ⟨d, hd, rfl⟩ := List.mem_map.mp hc
    split
    · decide
    · rename_i hspace
      exact Bool.eq_false_iff.mpr fun hblank =>
        hspace (h source (List.mem_of_mem_filter hsource) d hd hblank)

end Note

/-! ## Giving tags as a text -/

theorem forall₂_modify {α β : Type} {R : α → β → Prop} {f : α → α} {g : β → β} {xs : List α}
    {ys : List β} (h : List.Forall₂ R xs ys) (hfg : ∀ x y, R x y → R (f x) (g y)) (index : Nat) :
    List.Forall₂ R (xs.modify index f) (ys.modify index g) := by
  induction h generalizing index with
  | nil =>
      rw [List.modify_nil, List.modify_nil]
      exact .nil
  | cons hfirst hrest ih =>
      cases index with
      | zero => exact .cons (hfg _ _ hfirst) hrest
      | succ index => exact .cons hfirst (ih index)

theorem Json.Value.memberOr_bind (members : Bindings String Value) (key other : String)
    (given default : Value) : memberOr (Bindings.bind key given members) other default
      = if key = other then given else memberOr members other default := by
  rw [memberOr, Bindings.find?_bind]
  split <;> rfl

/-- The value of a note with a text for its tags. -/
def Note.respell (text : String) : Value → Value
  | .obj members => .obj (Bindings.bind "tags" (.str text) members)
  | other => other

theorem Note.IsOf.respell {note : Note} {v : Value} (h : note.IsOf v) (text : String) :
    Note.IsOf { note with tags := Text.words text } (Note.respell text v) := by
  obtain ⟨members, rfl, hfields, -⟩ := h
  refine ⟨_, rfl, ?_, Text.words text, ?_, (normalTags_words text).symm⟩
  · rw [Value.memberOr_bind, if_neg (by decide)]
    exact hfields
  · rw [Value.memberOr_bind, if_pos rfl]
    rfl

namespace Deck

/-- The value of a deck with a text for the tags of one note. -/
def respell (index : Nat) (text : String) : Value → Value
  | .obj members =>
    match Value.memberOr members "notes" (.arr []) with
    | .arr items =>
      .obj (Bindings.bind "notes" (.arr (items.modify index (Note.respell text))) members)
    | _ => .obj members
  | other => other

/-- The value of a deck gives the note at the index such tags. -/
def TagsAt (v : Value) (index : Nat) (given : Value) : Prop :=
  ∃ members items noteMembers, v = .obj members ∧
    Value.memberOr members "notes" (.arr []) = .arr items ∧
    items[index]? = some (.obj noteMembers) ∧
    Value.memberOr noteMembers "tags" (.arr []) = given

variable {deck : Deck} {defaultName : String} {v given other : Value} {index : Nat} {note : Note}

theorem TagsAt.eq (h : TagsAt v index given) (hother : TagsAt v index other) : given = other := by
  obtain ⟨_, _, _, rfl, hitems, hitem, rfl⟩ := h
  obtain ⟨_, _, _, hmembers, hitems', hitem', rfl⟩ := hother
  cases hmembers
  cases hitems.symm.trans hitems'
  cases hitem.symm.trans hitem'
  rfl

/-- The tags of a note that was read are given somewhere. -/
theorem exists_tagsAt (h : ofValue defaultName v = .ok deck) (hnote : deck.notes[index]? = some note) :
    ∃ given tags, TagsAt v index given ∧ Note.givenTags? given = some tags ∧
      note.tags = Note.normalTags tags := by
  cases v with
  | obj members =>
      obtain ⟨-, items, hitems, -, hread⟩ := ofMembers_ok_iff.mp h
      obtain ⟨_, hitem, noteMembers, rfl, -, tags, htags, hnormal⟩ :=
        exists_getElem?_of_forall₂ (Note.ofValues_ok_iff.mp hread) hnote
      exact ⟨_, tags, ⟨members, items, noteMembers, rfl, hitems, hitem, rfl⟩, htags, hnormal⟩
  | null | bool | int | float | str | arr => cases h

/-- **With a text for the tags of a note, the same deck is read, but for the tags of this note: they
are the words of the text.** -/
theorem ofValue_respell (h : ofValue defaultName v = .ok deck) (index : Nat) (text : String) :
    ofValue defaultName (respell index text v) = .ok { deck with
      notes := deck.notes.modify index fun note => { note with tags := Text.words text } } := by
  cases v with
  | obj members =>
      obtain ⟨hname, items, hitems, htype, hread⟩ := ofMembers_ok_iff.mp h
      have hnotes := forall₂_modify (Note.ofValues_ok_iff.mp hread)
        (fun _ _ hnote => Note.IsOf.respell hnote text) index
      simp only [respell, hitems, ofValue]
      refine ofMembers_ok_iff.mpr ⟨?_, _, ?_, ?_, Note.ofValues_ok_iff.mpr hnotes⟩
      · rw [Value.memberOr_bind, if_neg (by decide)]
        exact hname
      · rw [Value.memberOr_bind, if_pos rfl]
      · rw [Value.memberOr_bind, if_neg (by decide)]
        exact htype
  | null | bool | int | float | str | arr => cases h

/-- What becomes of a note whose tags are given as the text that its cards show for them. -/
structure TagsRespelt (defaultName : String) (v : Value) (deck : Deck) (index : Nat) (note : Note)
    (cardName : String) : Prop where
  /-- The deck is read again, with the words of its tags for the tags of the note. -/
  again : ofValue defaultName (respell index ((deck.cardFields note cardName).value "Tags") v)
    = .ok { deck with
        notes := deck.notes.set index { note with tags := note.tags.flatMap Text.words } }
  /-- A tag is left as it is or cut in pieces. -/
  pieces : ∀ tag ∈ note.tags, Text.words tag = [tag] ∨ 1 < (Text.words tag).length
  /-- The tags of the note have been given as a text or as a list of texts. -/
  given : ∃ given, TagsAt v index given ∧ (given.IsText ∨ given.IsTexts)
  /-- Tags that have been given as a text are left as they are. -/
  ofText : ∀ s, TagsAt v index (.str s) → note.tags.flatMap Text.words = note.tags
  /-- Tags that have been given as a list are left as they are exactly if inside them, between the
  blanks around them, there are no blanks but spaces. -/
  ofList : ∀ texts, TagsAt v index (.ofStrings texts) →
    (note.tags.flatMap Text.words = note.tags ↔
      ∀ tag ∈ texts, ∀ c ∈ Text.trim tag.toList, Text.isBlank c = true → c = ' ')

/-- **The two spellings of tags agree unless a tag in a list has a blank inside it that is not a
space.** Such a tag is cut in pieces. -/
theorem tags_respelt (h : ofValue defaultName v = .ok deck) (hnote : deck.notes[index]? = some note)
    (cardName : String) : TagsRespelt defaultName v deck index note cardName := by
  have htags : ∀ tag ∈ note.tags, Note.NormalTag tag :=
    (normal_of_ofValue h).tags note (List.mem_of_getElem? hnote)
  have hagree := Text.flatMap_words_eq_self_iff fun tag htag => (htags tag htag).nonempty
  obtain ⟨given, tags, hgiven, hread, hnormal⟩ := exists_tagsAt h hnote
  refine ⟨?again, ?pieces, ⟨given, hgiven, Note.exists_givenTags?_iff.mp ⟨tags, hread⟩⟩, ?ofText,
    ?ofList⟩
  case again =>
    have hshown : (deck.cardFields note cardName).value "Tags" = " ".intercalate note.tags :=
      value_cardFields "Tags"
    rw [ofValue_respell h, hshown, Text.words_intercalate, List.modify_eq_set_getElem?, hnote]
    rfl
  case pieces =>
    intro tag htag
    by_cases hsolid : ∀ c ∈ tag.toList, Text.isBlank c = false
    · exact .inl (Text.words_eq_singleton (htags tag htag).nonempty hsolid)
    · simp only [not_forall] at hsolid
      obtain ⟨c, hc, hblank⟩ := hsolid
      exact .inr ((htags tag htag).one_lt_length_words hc (Bool.eq_true_of_not_eq_false hblank))
  case ofText =>
    intro s hs
    cases hgiven.eq hs
    cases hread
    rw [Note.normalTags_words] at hnormal
    exact hagree.mpr fun tag htag => (Text.spec_of_mem_words (hnormal ▸ htag)).2
  case ofList =>
    intro texts htexts
    cases hgiven.eq htexts
    cases hread.symm.trans (strings?_eq_some_iff.mpr rfl)
    rw [hagree, hnormal, Note.normalTags_solid_iff]

/-- A tag with a tab in it and one with a space, and a text of two tags. -/
def spelledValue : Value :=
  .obj [
    ("note_type", .obj [("templates", .arr [.obj [("front", .str "F"), ("back", .str "B")]])]),
    ("notes", .arr [
      .obj [("tags", .ofStrings ["a\tb", " c d "])],
      .obj [("tags", .str "e\u3000f")]])]

/-- What is read from it. -/
def spelledSample : Deck where
  name := "D"
  noteType :=
    { name := "Basic", kind := .standard, fields := []
      template := ⟨"Card 1", "F", "B"⟩
      moreTemplates := [], css := "" }
  notes := [⟨[], ["a\tb", "c_d"]⟩, ⟨[], ["e", "f"]⟩]

/-- The tab is taken for the end of a tag. The tags that were words before are left alone. -/
theorem tags_respelt_sample :
    (ofValue "D" (respell 0 "a\tb c_d" spelledValue) = .ok { spelledSample with
        notes := spelledSample.notes.set 0 ⟨[], ["a", "b", "c_d"]⟩ } ∧
      ["a\tb", "c_d"].flatMap Text.words ≠ ["a\tb", "c_d"]) ∧
    ["e", "f"].flatMap Text.words = ["e", "f"] := by
  have hread : ofValue "D" spelledValue = .ok spelledSample := rfl
  have hlist := tags_respelt hread (show spelledSample.notes[0]? = some _ from rfl) "C"
  have htext := tags_respelt hread (show spelledSample.notes[1]? = some _ from rfl) "C"
  refine ⟨⟨hlist.again, (hlist.ofList ["a\tb", " c d "] ⟨_, _, _, rfl, rfl, rfl, rfl⟩).not.mpr ?_⟩,
    htext.ofText "e\u3000f" ⟨_, _, _, rfl, rfl, rfl, rfl⟩⟩
  exact fun h => absurd (h "a\tb" List.mem_cons_self '\t' (by decide) (by decide)) (by decide)

end Deck

end Flashcards
