import Flashcards.Proofs.Books
import Flashcards.Proofs.Exports
import Flashcards.Proofs.Rereading

/-!
# What is in a package

An export does everything or nothing. All that can go wrong with a deck goes wrong before the
directory for the package is made, so an export that fails has touched nothing
(`Command.export_whole`). One that succeeds hands over one package, and the package has the notes of
the deck in order, less those without deletions, with their values put in the order of the declared
fields. The tags of a note are its own and the further ones, each where it comes first
(`ordered_eraseDups`).
-/

namespace Flashcards

open Files Json Template

/-! ## Tags -/

namespace Package

/-- What tags may be given as, and the texts that this gives. -/
inductive Gives : Value → List String → Prop
  | nothing : Gives .null []
  | text (s : String) : Gives (.str s) (Text.splitAt ',' s)
  | list (texts : List String) : Gives (.ofStrings texts) texts

variable {tags : Value} {texts : List String}

/-- Further tags are made of texts in the same way as the tags of a note. -/
theorem tagsFrom_texts (texts : List String) :
    tagsFrom (texts.map .str) = .ok (Note.normalTags texts) := by
  induction texts with
  | nil => rfl
  | cons text rest ih =>
      rw [List.map_cons, tagsFrom, ih]
      by_cases hblank : Text.trimmed text = ""
      · simp [hblank, Note.normalTags, bind, Except.bind]
      · simp [hblank, Note.normalTags, Note.normalTag, bind, Except.bind]

theorem Gives.tagsOf (h : Gives tags texts) :
    Package.tagsOf tags = .ok (Note.normalTags texts) := by
  cases h with
  | nothing => rfl
  | text s =>
      unfold Package.tagsOf
      split
      · rename_i hempty
        obtain rfl : s = "" := by simpa [Value.isGiven] using hempty
        rfl
      · exact tagsFrom_texts _
  | list texts =>
      unfold Package.tagsOf
      split
      · rename_i hempty
        obtain rfl : texts = [] := by simpa [Value.isGiven, Value.ofStrings] using hempty
        rfl
      · exact tagsFrom_texts texts

end Package

/-- What comes first among the texts that are kept comes first among all. -/
theorem idxOf_lt_of_filter {p : String → Bool} {texts : List String} {text later : String}
    (htext : p text = true) (hlater : p later = true)
    (h : (texts.filter p).idxOf text < (texts.filter p).idxOf later) :
    texts.idxOf text < texts.idxOf later := by
  induction texts with
  | nil => simp at h
  | cons first rest ih =>
      by_cases hfirst : p first = true
      · rw [List.filter_cons_of_pos hfirst] at h
        by_cases hlaterFirst : first = later
        · subst hlaterFirst
          simp at h
        · rw [List.idxOf_cons_ne _ hlaterFirst] at h ⊢
          by_cases htextFirst : first = text
          · subst htextFirst
            simp
          · rw [List.idxOf_cons_ne _ htextFirst] at h ⊢
            exact Nat.succ_lt_succ (ih (Nat.lt_of_succ_lt_succ h))
      · rw [List.filter_cons_of_neg hfirst] at h
        have hne : ∀ other, p other = true → first ≠ other := by
          rintro other hother rfl
          exact hfirst hother
        rw [List.idxOf_cons_ne _ (hne text htext), List.idxOf_cons_ne _ (hne later hlater)]
        exact Nat.succ_lt_succ (ih h)

/-- **Texts that are kept once stand in the order in which they come first.** -/
theorem ordered_eraseDups : (texts : List String) →
    texts.eraseDups.Pairwise fun text later => texts.idxOf text < texts.idxOf later
  | [] => .nil
  | text :: rest => by
      rw [List.eraseDups_cons, List.pairwise_cons]
      have hother : ∀ other ∈ (rest.filter fun other => !other == text).eraseDups,
          text ≠ other ∧ (!other == text) = true := by
        intro other hmem
        rw [List.mem_eraseDups, List.mem_filter] at hmem
        exact ⟨by simpa using Ne.symm (by simpa using hmem.2), hmem.2⟩
      refine ⟨fun other hmem => ?_, ?_⟩
      · rw [List.idxOf_cons_self, List.idxOf_cons_ne _ (hother other hmem).1]
        exact Nat.succ_pos _
      · refine (ordered_eraseDups (rest.filter fun other => !other == text)).imp_of_mem ?_
        intro one other hone hmem h
        rw [List.idxOf_cons_ne _ (hother one hone).1, List.idxOf_cons_ne _ (hother other hmem).1]
        exact Nat.succ_lt_succ (idxOf_lt_of_filter (hother one hone).2 (hother other hmem).2 h)
termination_by texts => texts.length
decreasing_by
  exact Nat.lt_succ_of_le (List.length_filter_le _ _)

/-- Texts of two lists, each of them once, in the order in which they come first, those of the first
list in front. -/
structure MergedFrom (own extra texts : List String) : Prop where
  nodup : texts.Nodup
  mem : ∀ text, text ∈ texts ↔ text ∈ own ∨ text ∈ extra
  ordered : texts.Pairwise fun text later =>
    (own ++ extra).idxOf text < (own ++ extra).idxOf later
  ownFirst : texts.Pairwise fun text later => later ∈ own → text ∈ own

theorem mergedFrom_eraseDups (own extra : List String) :
    MergedFrom own extra (own ++ extra).eraseDups where
  nodup := Job.nodup_eraseDups _
  mem text := by rw [List.mem_eraseDups, List.mem_append]
  ordered := ordered_eraseDups _
  ownFirst := by
    refine (ordered_eraseDups (own ++ extra)).imp fun {text later} hbefore hlater => ?_
    by_contra hnot
    rw [List.idxOf_append_of_mem hlater, List.idxOf_append_of_notMem hnot] at hbefore
    have := List.idxOf_lt_length_of_mem hlater
    omega

/-! ## Notes -/

/-- A note as it is in a package: a value for each declared field, its own or the empty one, and its
tags merged with further ones. -/
structure Note.PackedAs (names extra : List String) (note : Note) (packed : PackageNote) : Prop where
  values : List.Forall₂ (fun name value => Bindings.find? name note.fields = some value ∨
    Bindings.find? name note.fields = none ∧ value = "") names packed.values
  tags : MergedFrom note.tags extra packed.tags
  normal : ∀ tag ∈ packed.tags, tag ≠ "" ∧ ' ' ∉ tag.toList

theorem Note.packedAs_noteOf {noteType : NoteType} {note : Note} {texts : List String}
    (h : ∀ tag ∈ note.tags, Note.NormalTag tag) :
    note.PackedAs noteType.fields (Note.normalTags texts)
      (Package.noteOf noteType (Note.normalTags texts) note) where
  values := by
    rw [Package.noteOf, List.forall₂_map_right_iff, List.forall₂_same]
    intro name _
    rw [Fields.value]
    cases hfind : Bindings.find? name note.fields with
    | none => exact .inr ⟨rfl, rfl⟩
    | some value => exact .inl rfl
  tags := mergedFrom_eraseDups _ _
  normal tag htag := by
    rcases ((mergedFrom_eraseDups _ _).mem tag).mp htag with hown | hextra
    · exact ⟨(h tag hown).nonempty, (h tag hown).spaceless⟩
    · have hnormal := Note.normal_of_mem_normalTags hextra
      exact ⟨hnormal.nonempty, hnormal.spaceless⟩

/-! ## Packages -/

namespace Deck

variable {deck : Deck} {policy : Policy} {path : String} {name tags : Value} {extra : List String}
  {package : Package} {stats : PackageStats}

/-- A deck that can be exported: its templates can be read, the deletions in its notes can be counted
where the notes need them, and a note is left that goes into a package. -/
structure Exportable (policy : Policy) (deck : Deck) : Prop where
  readable : deck.Readable policy
  countable : deck.noteType.kind = .cloze → deck.Countable policy
  handsOver : deck.handedOver policy ≠ []

/-- What a package is made from can be exported, and the package has its note type. -/
theorem exportable_of_ofDeck (htags : Package.tagsOf tags = .ok extra)
    (h : Package.ofDeck policy deck path name tags = .ok (package, stats)) :
    deck.Exportable policy ∧ package.model = Package.modelOf deck.noteType := by
  have hmade := h
  obtain ⟨⟨⟩, hcheck, h⟩ := bind_eq_ok h
  obtain ⟨_, -, h⟩ := bind_eq_ok h
  obtain ⟨clozeFields?, hfields, h⟩ := bind_eq_ok h
  obtain ⟨gathered, hgather, h⟩ := bind_eq_ok h
  have hreadable : deck.Readable policy := checkTemplates_ok_iff.mp hcheck
  have hcount : deck.noteType.kind = .cloze → deck.Countable policy := by
    intro hkind front hfront
    rw [clozeFieldsOf_cloze hkind hfront] at hfields
    cases hfields
    intro note hnote
    obtain ⟨out, hout⟩ :=
      Package.staysOut_of_gather (mapError_eq_ok_iff.mp hgather) note hnote
    obtain ⟨ordinals, hordinals, -⟩ := map_eq_ok_iff.mp hout
    exact countable_note_iff.mpr ⟨ordinals, hordinals⟩
  refine ⟨⟨hreadable, hcount, fun hempty => ?_⟩, ?_⟩
  · rw [(ofDeck_handedOver hreadable hcount path name htags).1 hempty] at hmade
    cases hmade
  · split at h
    · cases h
    · cases h
      rfl

/-- A package that is as it should be: the fields and the templates of the note type, of which a cloze
type keeps the first one only, the notes that are not left out, and the counts. -/
structure Aligned (policy : Policy) (deck : Deck) (extra : List String) (package : Package)
    (stats : PackageStats) : Prop where
  fields : package.model.fields = deck.noteType.fields
  clozeTemplate : deck.noteType.kind = .cloze →
    package.model.templates = [deck.noteType.template]
  allTemplates : deck.noteType.kind = .standard →
    package.model.templates = deck.noteType.templates
  notes : List.Forall₂ (Note.PackedAs deck.noteType.fields extra) (deck.handedOver policy)
    package.notes
  seen : stats.notesSeen = deck.notes.length
  exported : stats.notesExported = package.notes.length
  balance : stats.notesSeen = stats.notesExported + stats.notesSkippedNoCloze
  nonempty : 1 ≤ stats.notesExported

theorem aligned_of_ofDeck (hnormal : deck.Normal) {texts : List String}
    (htags : Package.tagsOf tags = .ok (Note.normalTags texts))
    (h : Package.ofDeck policy deck path name tags = .ok (package, stats)) :
    deck.Aligned policy (Note.normalTags texts) package stats := by
  obtain ⟨hexportable, hmodel⟩ := exportable_of_ofDeck htags h
  obtain ⟨other, counts, hother, hpacked⟩ := (ofDeck_handedOver hexportable.readable
    hexportable.countable path name htags).2 hexportable.handsOver
  obtain ⟨rfl, rfl⟩ := Prod.mk.inj (Except.ok.inj (h.symm.trans hother))
  have hsome : 0 < (deck.handedOver policy).length :=
    List.length_pos_iff.mpr hexportable.handsOver
  refine ⟨?_, fun hkind => ?_, fun hkind => ?_, ?_, hpacked.seen, ?_, hpacked.skipped.symm, ?_⟩
  · rw [hmodel, Package.modelOf]
  · rw [hmodel, Package.modelOf, hkind]
  · rw [hmodel, Package.modelOf, hkind]
  · rw [hpacked.notes, List.forall₂_map_right_iff, List.forall₂_same]
    exact fun note hnote => Note.packedAs_noteOf (hnormal.tags note (mem_handedOver.mp hnote).1)
  · rw [hpacked.exported, hpacked.notes, List.length_map]
  · rw [hpacked.exported]
    exact hsome

end Deck

namespace Command

variable {policy : Policy} {deck : Deck} {session : Session} {out : String} {name tags : Value}
  {files : Tree}

/-- What an export comes to if the package can be made. -/
theorem makePackage_made
    (hfiles : session.files.makeDirectories (Path.ofText out).parent = .ok files)
    {package : Package} {stats : PackageStats}
    (h : Package.ofDeck policy deck (Path.ofText out).text name tags = .ok (package, stats)) :
    (makePackage policy deck out name tags).outcome session
      = (.ok stats, ⟨files, session.printed, session.packages ++ [package]⟩) := by
  have hparent : (Action.makeParent (Path.ofText out)).outcome session
      = (.ok (), { session with files }) := Action.outcome_changeFiles hfiles
  rw [makePackage_of_ok h, Action.outcome_bind_ok hparent]
  rfl

/--
**An export does everything or nothing.**

Take a deck that was read, tags of any spelling, and a directory for the package that can be made. An
export that fails leaves the session as it was. One that succeeds has made the directory and handed
over one package, which is as it should be. And it does succeed exactly if the templates can be read,
the deletions can be counted, and a note is left to go into the package.
-/
theorem export_whole {defaultName : String} {v : Value} {deck : Deck}
    (hdeck : Deck.ofValue defaultName v = .ok deck) {tags : Value} {texts : List String}
    (htags : Package.Gives tags texts) {session : Session} {out : String} {files : Tree}
    (hfiles : session.files.makeDirectories (Path.ofText out).parent = .ok files)
    (policy : Policy) (name : Value) :
    (∀ failure after,
      (makePackage policy deck out name tags).outcome session = (.error failure, after) →
        after = session) ∧
    (∀ stats after,
      (makePackage policy deck out name tags).outcome session = (.ok stats, after) →
        ∃ package, after = ⟨files, session.printed, session.packages ++ [package]⟩ ∧
          deck.Aligned policy (Note.normalTags texts) package stats) ∧
    ((∃ stats after,
      (makePackage policy deck out name tags).outcome session = (.ok stats, after)) ↔
        deck.Exportable policy) := by
  have hextra := htags.tagsOf
  refine ⟨fun failure after hrun => ?_, fun stats after hrun => ?_, ?_⟩
  · cases hmade : Package.ofDeck policy deck (Path.ofText out).text name tags with
    | error other =>
        rw [makePackage_of_error hmade] at hrun
        cases hrun
        rfl
    | ok made =>
        rw [makePackage_made hfiles hmade] at hrun
        cases hrun
  · obtain ⟨package, hmade, -⟩ := ofDeck_of_makePackage hrun
    rw [makePackage_made hfiles hmade] at hrun
    cases hrun
    exact ⟨package, rfl, Deck.aligned_of_ofDeck (Deck.normal_of_ofValue hdeck) hextra hmade⟩
  · constructor
    · rintro ⟨stats, after, hrun⟩
      obtain ⟨package, hmade, -⟩ := ofDeck_of_makePackage hrun
      exact (Deck.exportable_of_ofDeck hextra hmade).1
    · intro h
      obtain ⟨package, stats, hmade, -⟩ := (Deck.ofDeck_handedOver h.readable h.countable
        (Path.ofText out).text name hextra).2 h.handsOver
      exact ⟨stats, _, makePackage_made hfiles hmade⟩

/-- The value of a cloze deck with two templates and two notes, the second of which has no
deletions. -/
def packingValue : Value :=
  .obj [
    ("note_type", .obj [
      ("kind", .str "cloze"),
      ("fields", .ofStrings ["T", "X"]),
      ("templates", .arr [
        .obj [("front", .str (shownTag "cloze:T")), ("back", .str "")],
        .obj [("front", .str ""), ("back", .str "")]])]),
    ("notes", .arr [
      .obj [("fields", .obj [("T", .str (shownTag "c1::a"))]), ("tags", .str "x y")],
      .obj [("fields", .obj [("T", .str "plain")])]])]

/-- The deck of this value. -/
def packingDeck : Deck where
  name := "D"
  noteType :=
    { name := "Basic", kind := .cloze, fields := ["T", "X"]
      template := ⟨"Card 1", shownTag "cloze:T", ""⟩
      moreTemplates := [⟨"Card 2", "", ""⟩], css := "" }
  notes := [⟨[("T", shownTag "c1::a")], ["x", "y"]⟩, ⟨[("T", "plain")], []⟩]

theorem export_whole_sample : ∃ package stats after,
    (makePackage .strict packingDeck "out/d.apkg" .null (.str "y, z w,")).outcome
        ⟨.empty, "", []⟩ = (.ok stats, after) ∧
      after.packages = [package] ∧
      packingDeck.Aligned .strict ["y", "z_w"] package stats := by
  have hdeck : Deck.ofValue "D" packingValue = .ok packingDeck := by rfl
  have hreadable : packingDeck.Readable .strict :=
    Job.templateFaults_eq_nil.mp (by decide +kernel)
  have hexportable : packingDeck.Exportable .strict :=
    ⟨hreadable, fun _ => by decide +kernel, by decide +kernel⟩
  have hmakes :
      (Tree.empty.makeDirectories (Path.ofText "out/d.apkg").parent).toOption.isSome := by
    decide +kernel
  cases hfiles : Tree.empty.makeDirectories (Path.ofText "out/d.apkg").parent with
  | error fault =>
      rw [hfiles] at hmakes
      cases hmakes
  | ok files =>
      have hparent : (⟨.empty, "", []⟩ : Session).files.makeDirectories
          (Path.ofText "out/d.apkg").parent = .ok files := hfiles
      obtain ⟨-, hwhole, hruns⟩ := export_whole hdeck (.text "y, z w,") hparent .strict .null
      obtain ⟨stats, after, hrun⟩ := hruns.mpr hexportable
      obtain ⟨package, rfl, haligned⟩ := hwhole stats after hrun
      have htags : Note.normalTags (Text.splitAt ',' "y, z w,") = ["y", "z_w"] := by decide
      exact ⟨package, stats, _, hrun, rfl, htags ▸ haligned⟩

end Command

end Flashcards
