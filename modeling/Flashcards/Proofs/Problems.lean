import Flashcards.Deck.Problems
import Flashcards.Proofs.Bindings
import Flashcards.Proofs.Gathering
import Flashcards.Proofs.Overlong
import Flashcards.Proofs.Running

/-!
# What a deck without problems is like

The problems of a deck are meant to be all there is to find: templates that can be read, names that
are known, notes with declared fields only and, in a deck of cloze notes, a deletion in each of them.
`Deck.problems_eq_nil_iff` says what is looked at. The trees of the templates are kept by name and
side, so of templates with equal names the last one stands for all of them (`Deck.standing?`), and
nothing is known of the names the others use. The first template, by which cloze notes make their
cards, can be one of the others.

A deck in which each template stands for itself is clean once it has no problems, and then its notes
make cards and are exported (`Deck.clean_of_no_problems`). Names that are all different are enough
for that (`Deck.standing?_of_nodup`).
-/

namespace Flashcards

open Template

/-! ## Numbers of deletions -/

namespace Cloze

/-- A value has no numbers exactly if it has no deletions. -/
theorem ordinals_eq_nil_iff (value : String) :
    ordinals value = .ok [] ↔ ∀ gap, Part.deletion gap ∉ parts value.toList := by
  have hspans : ∀ ps start, spansFrom start ps = .ok [] ↔ ∀ gap, Part.deletion gap ∉ ps := by
    intro ps
    induction ps with
    | nil => simp [spansFrom]
    | cons part rest ih =>
        intro start
        cases part with
        | plain c => simpa [spansFrom] using ih (start + 1)
        | deletion gap =>
            constructor
            · intro h
              obtain ⟨ordinal, -, h⟩ := bind_eq_ok h
              obtain ⟨more, -, h⟩ := bind_eq_ok h
              cases h
            · intro h
              exact absurd (List.mem_cons_self ..) (h gap)
  have hsort : ∀ numbers, sortOrdinals numbers = [] ↔ numbers = [] := by
    intro numbers
    simp only [List.eq_nil_iff_forall_not_mem, mem_sortOrdinals]
  rw [← hspans _ 0, ordinals, spans]
  cases spansFrom 0 (parts value.toList) with
  | error fault => simp [Except.map]
  | ok spans => simp [Except.map, hsort]

end Cloze

/-- The note has a deletion in one of the fields. -/
def Note.Deletes (note : Note) (names : List String) : Prop :=
  ∃ name ∈ names, ∃ gap, Cloze.Part.deletion gap ∈ Cloze.parts (note.fields.value name).toList

/-- No field of these has a deletion whose number is too long. -/
def Note.Countable (note : Note) (names : List String) : Prop :=
  ∀ name ∈ names, ¬ Cloze.Overlong (note.fields.value name)

namespace Deck

variable {deck : Deck} {policy : Policy} {note : Note} {names : List String}

theorem noteOrdinals_cons_eq_nil_iff {name : String} :
    noteOrdinals note (name :: names) = .ok []
      ↔ Cloze.ordinals (note.fields.value name) = .ok [] ∧ noteOrdinals note names = .ok [] := by
  have hsort : ∀ found more : List Nat,
      Cloze.sortOrdinals (found ++ more) = [] ↔ found = [] ∧ more = [] := by
    intro found more
    simp only [List.eq_nil_iff_forall_not_mem, Cloze.mem_sortOrdinals, List.mem_append, not_or,
      forall_and]
  rw [noteOrdinals]
  cases Cloze.ordinals (note.fields.value name) with
  | error fault => simp [bind, Except.bind]
  | ok found =>
      cases noteOrdinals note names with
      | error fault => simp [bind, Except.bind]
      | ok more => simp [bind, Except.bind, hsort]

theorem noteOrdinals_eq_nil_iff : noteOrdinals note names = .ok [] ↔ ¬ note.Deletes names := by
  induction names with
  | nil => simp [noteOrdinals, Note.Deletes]
  | cons name rest ih =>
      rw [noteOrdinals_cons_eq_nil_iff, ih, Cloze.ordinals_eq_nil_iff]
      simp [Note.Deletes]

theorem countable_note_iff :
    note.Countable names ↔ ∃ ordinals, noteOrdinals note names = .ok ordinals := by
  simp only [Note.Countable, Cloze.not_overlong_iff, noteOrdinals_ok_iff]

/-- A note has numbers if it has deletions and all of them can be counted. -/
theorem noteOrdinals_ne_nil_iff :
    (∃ ordinals, noteOrdinals note names = .ok ordinals ∧ ordinals ≠ [])
      ↔ note.Deletes names ∧ note.Countable names := by
  have hdeletes : note.Deletes names ↔ ¬ noteOrdinals note names = .ok [] := by
    rw [noteOrdinals_eq_nil_iff, not_not]
  rw [countable_note_iff, hdeletes]
  cases noteOrdinals note names with
  | error fault => simp
  | ok ordinals => simp

/-! ## Templates by name -/

/-- The template that stands for a name: of templates with equal names, the last one. -/
def standing? (deck : Deck) (name : String) : Option CardTemplate :=
  deck.noteType.templates.reverse.find? fun template => template.name = name

theorem mem_of_standing? {name : String} {template : CardTemplate}
    (h : deck.standing? name = some template) :
    template ∈ deck.noteType.templates ∧ template.name = name :=
  ⟨List.mem_reverse.mp (List.mem_of_find?_eq_some h), by simpa using List.find?_some h⟩

/-- The name of a template always has one that stands for it. -/
theorem exists_standing? {template : CardTemplate} (h : template ∈ deck.noteType.templates) :
    ∃ last, deck.standing? template.name = some last := by
  cases hlast : deck.standing? template.name with
  | some last => exact ⟨last, rfl⟩
  | none =>
      have := List.find?_eq_none.mp hlast template (List.mem_reverse.mpr h)
      simp at this

/-- **Where all names are different, each template stands for itself.** -/
theorem standing?_of_nodup (h : (deck.noteType.templates.map CardTemplate.name).Nodup)
    {template : CardTemplate} (hmem : template ∈ deck.noteType.templates) :
    deck.standing? template.name = some template := by
  obtain ⟨last, hlast⟩ := exists_standing? hmem
  obtain ⟨hlastMem, hname⟩ := mem_of_standing? hlast
  rw [hlast, List.inj_on_of_nodup_map h hlastMem hmem hname]

/-- The trees of some templates, in order, with their names and sides. -/
def treesOf (policy : Policy) (templates : List CardTemplate) : List (TemplateKey × Nodes) :=
  (templates.flatMap fun template =>
    [((template.name, .front), template.front), ((template.name, .back), template.back)]).filterMap
      fun (key, text) => (parse policy text).toOption.map (key, ·)

theorem treesOf_cons {template : CardTemplate} {rest : List CardTemplate} {front back : Nodes}
    (hfront : parse policy template.front = .ok front)
    (hback : parse policy template.back = .ok back) :
    treesOf policy (template :: rest)
      = ((template.name, .front), front) :: ((template.name, .back), back)
        :: treesOf policy rest := by
  simp [treesOf, hfront, hback, Except.toOption]

/-- Where templates can be read, the trees bound last are found first. -/
theorem find?_bindAll_treesOf {templates : List CardTemplate}
    (h : ∀ template ∈ templates, ∀ face, ∃ nodes, parse policy (template.text face) = .ok nodes)
    (trees : Bindings TemplateKey Nodes) (name : String) (face : Face) :
    Bindings.find? (name, face) (trees.bindAll (treesOf policy templates))
      = ((templates.reverse.find? fun template => template.name = name).bind
          fun template => (parse policy (template.text face)).toOption).or
        (Bindings.find? (name, face) trees) := by
  induction templates generalizing trees with
  | nil => rfl
  | cons template rest ih =>
      obtain ⟨hfirst, hrest⟩ := List.forall_mem_cons.mp h
      obtain ⟨front, hfront⟩ := hfirst .front
      obtain ⟨back, hback⟩ := hfirst .back
      have hfrontTree : parse policy template.front = .ok front := hfront
      have hbackTree : parse policy template.back = .ok back := hback
      rw [treesOf_cons hfrontTree hbackTree, Bindings.bindAll_cons, Bindings.bindAll_cons, ih hrest,
        List.reverse_cons, List.find?_append]
      cases hlater : rest.reverse.find? fun template => template.name = name with
      | some last =>
          obtain ⟨nodes, hnodes⟩ := hrest last
            (List.mem_reverse.mp (List.mem_of_find?_eq_some hlater)) face
          simp [hnodes, Except.toOption]
      | none =>
          by_cases hname : template.name = name
          · cases face <;> simp [Bindings.find?_bind, hname, hfront, hback, Except.toOption]
          · simp [Bindings.find?_bind, hname]

/-- **The tree that is looked at for a name is that of the template that stands for it.** -/
theorem find?_readTemplates (h : deck.Readable policy) (name : String) (face : Face) :
    Bindings.find? (name, face) (readTemplates policy deck.templateTexts)
      = (deck.standing? name).bind fun template =>
        (parse policy (template.text face)).toOption := by
  have := find?_bindAll_treesOf h [] name face
  rwa [Bindings.find?, Option.or_none] at this

theorem mem_readTemplates (h : deck.Readable policy) {name : String} {face : Face}
    {nodes : Nodes} :
    ((name, face), nodes) ∈ readTemplates policy deck.templateTexts
      ↔ ∃ template, deck.standing? name = some template ∧
        parse policy (template.text face) = .ok nodes := by
  have hnone : (Bindings.keys ([] : Bindings TemplateKey Nodes)).Nodup := List.nodup_nil
  have hkeys : (Bindings.keys (readTemplates policy deck.templateTexts)).Nodup :=
    Bindings.nodup_keys_bindAll hnone _
  rw [← Bindings.find?_eq_some_iff hkeys, find?_readTemplates h, Option.bind_eq_some_iff]
  refine exists_congr fun template => and_congr_right fun _ => ?_
  cases parse policy (template.text face) <;> simp [Except.toOption]

/-! ## What is looked at -/

/-- A tree uses a name: as that of a field it shows, or of a section. -/
def Uses (nodes : Nodes) (name : String) : Prop :=
  (∃ ref ∈ nodes.fieldRefs, ref.name = name) ∨ name ∈ nodes.sectionNames

/-- All names that a template uses, on either side, are declared or special. Where a name is left
out, there is nothing to declare. -/
def Knows (policy : Policy) (deck : Deck) (template : CardTemplate) : Prop :=
  ∀ face nodes, parse policy (template.text face) = .ok nodes →
    ∀ name, Uses nodes name → name ≠ "" → name ∈ deck.noteType.fields ∨ name ∈ specialFields

/-- Every field of a note is declared. -/
def Declares (deck : Deck) (note : Note) : Prop :=
  ∀ name ∈ Bindings.keys note.fields, name ∈ deck.noteType.fields

/-- The front of a template passes fields through the cloze filter, and every note has a deletion in
one of them, with a number that can be read. -/
def Deleting (policy : Policy) (deck : Deck) (template : CardTemplate) : Prop :=
  ∃ front, parse policy template.front = .ok front ∧ front.clozeFields ≠ [] ∧
    ∀ note ∈ deck.notes, note.Deletes front.clozeFields ∧ note.Countable front.clozeFields

theorem templateProblems_eq_nil_iff :
    templateProblems policy deck.templateTexts = [] ↔ deck.Readable policy := by
  rw [templateProblems, List.filterMap_eq_nil_iff]
  constructor
  · intro h template hmem face
    have hnone := h _ (Job.mem_templateTexts.mpr ⟨template, hmem, face, rfl⟩)
    dsimp only at hnone
    cases hparse : parse policy (template.text face) with
    | ok nodes => exact ⟨nodes, rfl⟩
    | error error => rw [hparse] at hnone; cases hnone
  · intro h entry hentry
    obtain ⟨template, hmem, face, rfl⟩ := Job.mem_templateTexts.mp hentry
    obtain ⟨nodes, hnodes⟩ := h template hmem face
    dsimp only
    rw [hnodes]

theorem mem_usedNames {nodes : Nodes} {name : String} :
    name ∈ usedNames nodes ↔ Uses nodes name := by
  simp [usedNames, Uses]

/-- Of the names, those are looked at that the last template of each name uses. -/
theorem nameProblems_eq_nil_iff (h : deck.Readable policy) :
    deck.nameProblems (readTemplates policy deck.templateTexts) = []
      ↔ ∀ template ∈ deck.noteType.templates, deck.standing? template.name = some template →
        deck.Knows policy template := by
  have hentry : deck.nameProblems (readTemplates policy deck.templateTexts) = []
      ↔ ∀ name face nodes, ((name, face), nodes) ∈ readTemplates policy deck.templateTexts →
        ∀ field, Uses nodes field → field ≠ "" →
          field ∈ deck.noteType.fields ∨ field ∈ specialFields := by
    simp only [nameProblems, List.flatMap_eq_nil_iff, List.map_eq_nil_iff, List.filter_eq_nil_iff,
      mem_usedNames, Prod.forall, List.mem_append, decide_eq_true_eq, not_and, not_not]
  rw [hentry]
  constructor
  · intro hall template _ hstands face nodes hparse
    exact hall template.name face nodes ((mem_readTemplates h).mpr ⟨template, hstands, hparse⟩)
  · intro hall name face nodes hmem
    obtain ⟨template, hstands, hparse⟩ := (mem_readTemplates h).mp hmem
    obtain ⟨htemplate, hname⟩ := mem_of_standing? hstands
    exact hall template htemplate (hname ▸ hstands) face nodes hparse

theorem sortTexts_eq_nil_iff {texts : List String} : sortTexts texts = [] ↔ texts = [] := by
  rw [sortTexts, ← List.length_eq_zero_iff, List.length_mergeSort, List.length_eq_zero_iff]

/-- Of the notes, their fields are looked at and, if there are fields that need deletions, these. -/
theorem noteProblems_eq_nil_iff {clozeFields : List String} (index : Nat) (notes : List Note) :
    deck.noteProblems clozeFields index notes = .ok [] ↔ ∀ note ∈ notes, deck.Declares note ∧
      (clozeFields ≠ [] → note.Deletes clozeFields ∧ note.Countable clozeFields) := by
  induction notes generalizing index with
  | nil => simp [noteProblems]
  | cons note rest ih =>
      have hdeclared : sortTexts ((Bindings.keys note.fields).filter
          fun name => name ∉ deck.noteType.fields) = [] ↔ deck.Declares note := by
        simp [sortTexts_eq_nil_iff, Declares]
      rw [List.forall_mem_cons, ← ih (index + 1), ← hdeclared, ← noteOrdinals_ne_nil_iff,
        noteProblems]
      cases hrest : deck.noteProblems clozeFields (index + 1) rest with
      | error fault =>
          by_cases hempty : clozeFields = []
          · simp [hempty, bind, Except.bind]
          · cases noteOrdinals note clozeFields <;> simp [hempty, bind, Except.bind]
      | ok more =>
          by_cases hempty : clozeFields = []
          · simp [hempty, bind, Except.bind]
          · cases noteOrdinals note clozeFields <;> simp [hempty, bind, Except.bind, and_assoc]

/-- All that is looked at in a deck is as it should be. -/
structure Passes (policy : Policy) (deck : Deck) : Prop where
  readable : deck.Readable policy
  known : ∀ template ∈ deck.noteType.templates, deck.standing? template.name = some template →
    deck.Knows policy template
  declared : ∀ note ∈ deck.notes, deck.Declares note
  deleting : deck.noteType.kind = .cloze → ∀ template,
    deck.standing? deck.noteType.template.name = some template → deck.Deleting policy template

theorem clozeProblems_eq_nil_iff {clozeFields : List String} :
    clozeFields ≠ [] ∧ deck.noteProblems clozeFields 0 deck.notes = .ok []
      ↔ (∀ note ∈ deck.notes, deck.Declares note) ∧ clozeFields ≠ [] ∧
        ∀ note ∈ deck.notes, note.Deletes clozeFields ∧ note.Countable clozeFields := by
  rw [noteProblems_eq_nil_iff]
  constructor
  · rintro ⟨hne, hnotes⟩
    exact ⟨fun note hnote => (hnotes note hnote).1, hne,
      fun note hnote => (hnotes note hnote).2 hne⟩
  · rintro ⟨hdeclared, hne, hdeletes⟩
    exact ⟨hne, fun note hnote => ⟨hdeclared note hnote, fun _ => hdeletes note hnote⟩⟩

/-- The list of problems is put together from four lists. -/
theorem problems_eq_nil_iff_parts :
    deck.problems policy = .ok [] ↔
      templateProblems policy deck.templateTexts = [] ∧
      deck.nameProblems (readTemplates policy deck.templateTexts) = [] ∧
      deck.neededClozeFields? (readTemplates policy deck.templateTexts) ≠ some [] ∧
      deck.noteProblems
        ((deck.neededClozeFields? (readTemplates policy deck.templateTexts)).getD []) 0 deck.notes
        = .ok [] := by
  rw [problems]
  cases deck.noteProblems ((deck.neededClozeFields?
      (readTemplates policy deck.templateTexts)).getD []) 0 deck.notes with
  | error fault => simp [bind, Except.bind]
  | ok ofNotes => simp [bind, Except.bind]

theorem neededClozeFields?_cloze (h : deck.Readable policy) (hkind : deck.noteType.kind = .cloze)
    {template : CardTemplate} {front : Nodes}
    (hstands : deck.standing? deck.noteType.template.name = some template)
    (hfront : parse policy template.front = .ok front) :
    deck.neededClozeFields? (readTemplates policy deck.templateTexts)
      = some front.clozeFields := by
  have hfront : parse policy (template.text .front) = .ok front := hfront
  rw [neededClozeFields?, hkind]
  dsimp only
  rw [find?_readTemplates h, hstands, Option.bind_some, hfront]
  rfl

/-- **A deck has no problems exactly if all that is looked at is as it should be.** -/
theorem problems_eq_nil_iff : deck.problems policy = .ok [] ↔ deck.Passes policy := by
  rw [problems_eq_nil_iff_parts, templateProblems_eq_nil_iff]
  -- Once the templates can be read, it is known which trees the other problems come from.
  have hpasses : deck.Passes policy ↔ deck.Readable policy ∧ deck.Passes policy :=
    ⟨fun h => ⟨h.readable, h⟩, And.right⟩
  rw [hpasses]
  refine and_congr_right fun hreadable => ?_
  rw [nameProblems_eq_nil_iff hreadable]
  cases hkind : deck.noteType.kind with
  | standard =>
      have hneeded : deck.neededClozeFields? (readTemplates policy deck.templateTexts) = none := by
        rw [neededClozeFields?, hkind]
      rw [hneeded, noteProblems_eq_nil_iff]
      constructor
      · rintro ⟨hknown, -, hnotes⟩
        exact ⟨hreadable, hknown, fun note hnote => (hnotes note hnote).1, by simp [hkind]⟩
      · intro h
        exact ⟨h.known, by simp, fun note hnote => ⟨h.declared note hnote, by simp⟩⟩
  | cloze =>
      obtain ⟨last, hlast⟩ := exists_standing? (List.mem_cons_self .. :
        deck.noteType.template ∈ deck.noteType.templates)
      obtain ⟨front, hfront⟩ := hreadable last (mem_of_standing? hlast).1 .front
      have hfront : parse policy last.front = .ok front := hfront
      rw [neededClozeFields?_cloze hreadable hkind hlast hfront, Option.getD_some, ne_eq,
        Option.some.injEq, clozeProblems_eq_nil_iff]
      constructor
      · rintro ⟨hknown, hdeclared, hne, hnotes⟩
        refine ⟨hreadable, hknown, hdeclared, fun _ template htemplate => ?_⟩
        obtain rfl := Option.some.inj (hlast.symm.trans htemplate)
        exact ⟨front, hfront, hne, hnotes⟩
      · intro h
        obtain ⟨read, hread, hne, hnotes⟩ := h.deleting hkind last hlast
        obtain rfl := Except.ok.inj (hfront.symm.trans hread)
        exact ⟨h.known, h.declared, hne, hnotes⟩

/-! ## What follows for the notes -/

/-- A card of a cloze note is overlong. -/
def ShowsOverlong (policy : Policy) (deck : Deck) (note : Note) : Prop :=
  ∃ front back ordinals,
    parse policy deck.noteType.template.front = .ok front ∧
    parse policy deck.noteType.template.back = .ok back ∧
    noteOrdinals note front.clozeFields = .ok ordinals ∧ ∃ ordinal ∈ ordinals,
      Rendering.CardOverlong front back (deck.cardFields note s!"Cloze {ordinal}") ordinal

/-- Once the templates can be read, the card for a number is made unless it is overlong. -/
theorem exists_clozeCard_iff {front back : Nodes}
    (hfront : parse policy deck.noteType.template.front = .ok front)
    (hback : parse policy deck.noteType.template.back = .ok back) (index : Nat) {ordinal : Nat} :
    (∃ card, deck.ClozeCard policy index note ordinal card) ↔
      ¬ Rendering.CardOverlong front back (deck.cardFields note s!"Cloze {ordinal}") ordinal := by
  have hordinal : ¬ (ordinal : Int) < 0 := by omega
  rcases Rendering.renderCard_cases hfront hback hordinal with
    ⟨rendered, hrendered, hfits⟩ | ⟨failure, hfails, -, hover⟩
  · exact ⟨fun _ => hfits, fun _ => ⟨_, rendered, hrendered, rfl⟩⟩
  · refine ⟨?_, fun hfits => absurd hover hfits⟩
    rintro ⟨card, rendered, hrendered, -⟩
    rw [hfails] at hrendered
    cases hrendered

/-- **A cloze note makes its cards unless its deletions cannot be counted or a card is overlong.** -/
theorem exists_making_cloze_iff (hkind : deck.noteType.kind = .cloze) {front back : Nodes}
    (hfront : parse policy deck.noteType.template.front = .ok front)
    (hback : parse policy deck.noteType.template.back = .ok back) (index : Nat) :
    (∃ made, deck.making policy index note = .ok made) ↔
      ∃ ordinals, noteOrdinals note front.clozeFields = .ok ordinals ∧ ∀ ordinal ∈ ordinals,
        ¬ Rendering.CardOverlong front back (deck.cardFields note s!"Cloze {ordinal}") ordinal := by
  simp only [← exists_clozeCard_iff hfront hback index, ← exists_forall₂_iff]
  constructor
  · rintro ⟨made, h⟩
    obtain ⟨read, hread, ordinals, hordinals, cards, hcards, -⟩ :=
      (making_cloze_ok_iff hkind).mp h
    obtain rfl := Except.ok.inj (hfront.symm.trans hread)
    exact ⟨ordinals, hordinals, cards, hcards⟩
  · rintro ⟨ordinals, hordinals, cards, hcards⟩
    exact ⟨_, (making_cloze_ok_iff hkind).mpr
      ⟨front, hfront, ordinals, hordinals, cards, hcards, rfl⟩⟩

/-- A note with deletions makes cards, or one of them is overlong. -/
theorem making_of_front (hreadable : deck.Readable policy) (hkind : deck.noteType.kind = .cloze)
    {front : Nodes} (hfront : parse policy deck.noteType.template.front = .ok front)
    (h : note.Deletes front.clozeFields ∧ note.Countable front.clozeFields) (index : Nat) :
    (∃ made, deck.making policy index note = .ok made ∧ made.cards ≠ []) ∨
      deck.ShowsOverlong policy note := by
  obtain ⟨back, hback⟩ := hreadable _ (List.mem_cons_self ..) .back
  obtain ⟨ordinals, hordinals, hne⟩ := noteOrdinals_ne_nil_iff.mpr h
  by_cases hover : ∃ ordinal ∈ ordinals,
      Rendering.CardOverlong front back (deck.cardFields note s!"Cloze {ordinal}") ordinal
  · exact .inr ⟨front, back, ordinals, hfront, hback, hordinals, hover⟩
  · have hfits : ∀ ordinal ∈ ordinals, ¬ Rendering.CardOverlong front back
        (deck.cardFields note s!"Cloze {ordinal}") ordinal := by simpa using hover
    obtain ⟨made, hmade⟩ :=
      (exists_making_cloze_iff hkind hfront hback index).mpr ⟨ordinals, hordinals, hfits⟩
    -- without cards the note would be without deletions
    have hbalanced := making_balanced hmade
    refine .inl ⟨made, hmade, fun hempty => ?_⟩
    obtain ⟨-, read, hread, hnone⟩ :=
      hbalanced.withoutDeletions.mp ((hbalanced.cloze hkind).2.mp hempty)
    obtain rfl := Except.ok.inj (hfront.symm.trans hread)
    exact hne (Except.ok.inj (hordinals.symm.trans hnone))

theorem making_of_deletes (hreadable : deck.Readable policy)
    (hkind : deck.noteType.kind = .cloze) (h : deck.Deleting policy deck.noteType.template)
    (hnote : note ∈ deck.notes) (index : Nat) :
    (∃ made, deck.making policy index note = .ok made ∧ made.cards ≠ []) ∨
      deck.ShowsOverlong policy note := by
  obtain ⟨front, hfront, -, hnotes⟩ := h
  exact making_of_front hreadable hkind hfront (hnotes note hnote) index

/-- The check before an export asks the same of the templates as a run does. -/
theorem checkTemplates_ok_iff {templates : List CardTemplate} :
    Package.checkTemplates policy templates = .ok () ↔
      ∀ template ∈ templates, ∀ face, ∃ nodes, parse policy (template.text face) = .ok nodes := by
  induction templates with
  | nil => simp [Package.checkTemplates]
  | cons template rest ih =>
      have hfaces : (∀ face, ∃ nodes, parse policy (template.text face) = .ok nodes) ↔
          (∃ front, parse policy template.front = .ok front) ∧
            ∃ back, parse policy template.back = .ok back := by
        constructor
        · exact fun h => ⟨h .front, h .back⟩
        · rintro ⟨hfront, hback⟩ face
          cases face with
          | front => exact hfront
          | back => exact hback
      rw [List.forall_mem_cons, ← ih, hfaces, Package.checkTemplates]
      cases parse policy template.front with
      | error error => simp [Except.mapError, bind, Except.bind]
      | ok front =>
          cases parse policy template.back <;> simp [Except.mapError, bind, Except.bind]

/-- The fields that count are those of the front of the first template. -/
theorem clozeFieldsOf_cloze (hkind : deck.noteType.kind = .cloze) {front : Nodes}
    (hfront : parse policy deck.noteType.template.front = .ok front) :
    Package.clozeFieldsOf policy deck.noteType = .ok (some front.clozeFields) := by
  rw [Package.clozeFieldsOf, hkind]
  dsimp only
  rw [hfront]
  rfl

/-- No note stays out if all of them have deletions. -/
theorem gather_all {clozeFields : List String} {notes : List Note}
    (h : ∀ note ∈ notes, note.Deletes clozeFields ∧ note.Countable clozeFields) :
    ∃ gathered, Package.gather (some clozeFields) .start notes = .ok gathered ∧
      gathered.notes = notes ∧ gathered.exported = notes.length ∧ gathered.skipped = 0 := by
  have hnone : ∀ note ∈ notes,
      Package.staysOut (some clozeFields) note = .ok (decide False) := by
    intro note hnote
    obtain ⟨ordinals, hordinals, hne⟩ := noteOrdinals_ne_nil_iff.mpr (h note hnote)
    simp [Package.staysOut, hordinals, Except.map, hne]
  obtain ⟨gathered, hgather, hnotes, hbalanced, hseen⟩ := Package.gather_start hnone
  have hall : gathered.notes = notes := by simpa using hnotes
  have hexported := hbalanced.exported
  have hbalance := hbalanced.seen
  rw [hall] at hexported
  exact ⟨gathered, hgather, hall, hexported, by omega⟩

/-- A package of the deck has all its notes, and none is counted as left out. -/
def ExportsAll (policy : Policy) (deck : Deck) : Prop :=
  ∀ path name tags extra, Package.tagsOf tags = .ok extra → deck.notes ≠ [] →
    ∃ package stats, Package.ofDeck policy deck path name tags = .ok (package, stats) ∧
      package.notes = deck.notes.map (Package.noteOf deck.noteType extra) ∧
      stats.notesExported = deck.notes.length ∧ stats.notesSkippedNoCloze = 0

theorem exportsAll_of_deleting (hreadable : deck.Readable policy)
    (hkind : deck.noteType.kind = .cloze) (h : deck.Deleting policy deck.noteType.template) :
    deck.ExportsAll policy := by
  intro path name tags extra htags hnotes
  obtain ⟨front, hfront, -, hdeletes⟩ := h
  have hfields := clozeFieldsOf_cloze hkind hfront
  obtain ⟨gathered, hgather, hall, hexported, hskipped⟩ := gather_all hdeletes
  have hsome : gathered.exported ≠ 0 := by
    rw [hexported]
    exact mt List.length_eq_zero_iff.mp hnotes
  rw [Package.ofDeck, checkTemplates_ok_iff.mpr hreadable, htags, hfields]
  simp only [bind, Except.bind, Except.mapError, hgather, hsome, if_false]
  exact ⟨_, _, rfl, by rw [hall], hexported, hskipped⟩

/-- **A deck without problems is clean, as far as its templates stand for themselves.** All templates
can be read, and all fields of the notes are declared. A template that stands for its name uses no
names that are not known. And if the first one does and the notes are cloze notes, each of them has
a deletion by its front, so it makes cards, unless one is overlong, and no package leaves it out. -/
theorem clean_of_no_problems (h : deck.problems policy = .ok []) :
    deck.Readable policy ∧
    (∀ note ∈ deck.notes, deck.Declares note) ∧
    (∀ template ∈ deck.noteType.templates, deck.standing? template.name = some template →
      deck.Knows policy template) ∧
    (deck.noteType.kind = .cloze →
      deck.standing? deck.noteType.template.name = some deck.noteType.template →
      deck.Deleting policy deck.noteType.template ∧
      (∀ index, ∀ note ∈ deck.notes,
        (∃ made, deck.making policy index note = .ok made ∧ made.cards ≠ []) ∨
        deck.ShowsOverlong policy note) ∧
      deck.ExportsAll policy) := by
  have hpasses := problems_eq_nil_iff.mp h
  refine ⟨hpasses.readable, hpasses.declared, hpasses.known, fun hkind hstands => ?_⟩
  have hdeleting := hpasses.deleting hkind _ hstands
  exact ⟨hdeleting, fun index note hnote =>
      making_of_deletes hpasses.readable hkind hdeleting hnote index,
    exportsAll_of_deleting hpasses.readable hkind hdeleting⟩

/-- A deck of one cloze note, with two templates of different names. -/
def clozeSample : Deck where
  name := "D"
  noteType :=
    { name := "Cloze", kind := .cloze, fields := ["Text"]
      template := ⟨"A", shownTag "cloze:Text", shownTag "Text"⟩
      moreTemplates := [⟨"B", shownTag "Tags", ""⟩], css := "" }
  notes := [⟨[("Text", shownTag "c1::x")], []⟩]

theorem clean_of_no_problems_sample : clozeSample.problems .lenient = .ok [] ∧
    clozeSample.Deleting .lenient clozeSample.noteType.template ∧
    clozeSample.ExportsAll .lenient := by
  have hproblems : clozeSample.problems .lenient = .ok [] := by
    have hnone : (clozeSample.problems .lenient).toOption = some [] := by decide +kernel
    cases hread : clozeSample.problems .lenient with
    | error fault => rw [hread] at hnone; cases hnone
    | ok found => rw [hread] at hnone; rw [Option.some.inj hnone]
  obtain ⟨-, -, -, hcloze⟩ := clean_of_no_problems hproblems
  have hstands : clozeSample.standing? clozeSample.noteType.template.name
      = some clozeSample.noteType.template := standing?_of_nodup (by decide) List.mem_cons_self
  obtain ⟨hdeleting, -, hexports⟩ := hcloze rfl hstands
  exact ⟨hproblems, hdeleting, hexports⟩

/-- Where a later template has the same name, what an earlier one uses is not looked at. -/
def hidingSample : Deck where
  name := "D"
  noteType :=
    { name := "Basic", kind := .standard, fields := ["Front"]
      template := ⟨"C", shownTag "Nope", ""⟩
      moreTemplates := [⟨"C", shownTag "Front", ""⟩], css := "" }
  notes := []

example : (hidingSample.problems .lenient).toOption = some [] := by decide +kernel

end Deck

end Flashcards
