import Flashcards.Command
import Flashcards.Proofs.Books
import Flashcards.Proofs.Problems

/-!
# What is exported and what is rendered

A package leaves out the cloze notes that have no deletion where the front of the first template
looks for one, and rendering such a note makes no card. Each finds this out by itself, from a tree of
the front that it reads itself. Both come to `Deck.WithoutDeletions`, so `Deck.handedOver` says which
notes go into a package without a word about exporting.

What a note that goes into a package makes is cards, if it can be rendered at all. It cannot only if
a card shows a deletion whose number is too long, and such a deletion need not be in the note: the
filters behind the one for deletions can put it together (`Deck.export_renders`).
-/

namespace Flashcards

open Files Json Template

namespace Deck

variable {deck : Deck} {policy : Policy} {note : Note} {index : Nat}

/-! ## Notes without deletions -/

theorem withoutDeletions_iff : deck.WithoutDeletions policy note ↔
    deck.noteType.kind = .cloze ∧ (parse policy deck.noteType.template.front).toOption.bind
      (fun front => (noteOrdinals note front.clozeFields).toOption) = some [] := by
  rw [WithoutDeletions]
  refine and_congr_right fun _ => ?_
  cases parse policy deck.noteType.template.front with
  | error error => simp [Except.toOption]
  | ok front =>
      cases hordinals : noteOrdinals note front.clozeFields <;>
        simp [hordinals, Except.toOption]

instance (policy : Policy) (deck : Deck) (note : Note) :
    Decidable (deck.WithoutDeletions policy note) := decidable_of_iff' _ withoutDeletions_iff

theorem not_withoutDeletions_of_standard (hkind : deck.noteType.kind = .standard) :
    ¬ deck.WithoutDeletions policy note := by
  rintro ⟨hcloze, -⟩
  rw [hkind] at hcloze
  cases hcloze

theorem withoutDeletions_of_front (hkind : deck.noteType.kind = .cloze) {front : Nodes}
    (hfront : parse policy deck.noteType.template.front = .ok front) :
    deck.WithoutDeletions policy note ↔ ¬ note.Deletes front.clozeFields := by
  rw [← noteOrdinals_eq_nil_iff]
  simp [WithoutDeletions, hkind, hfront]

/-- The notes that go into a package: all but those without deletions. -/
def handedOver (policy : Policy) (deck : Deck) : List Note :=
  deck.notes.filter fun note => ¬ deck.WithoutDeletions policy note

theorem mem_handedOver : note ∈ deck.handedOver policy
    ↔ note ∈ deck.notes ∧ ¬ deck.WithoutDeletions policy note := by
  simp [handedOver]

theorem handedOver_standard (hkind : deck.noteType.kind = .standard) :
    deck.handedOver policy = deck.notes :=
  List.filter_eq_self.mpr fun note _ => by
    simpa using not_withoutDeletions_of_standard hkind

/-! ## What is rendered -/

/-- No field in which the front of the first template looks for deletions is overlong. -/
def Countable (policy : Policy) (deck : Deck) : Prop :=
  ∀ front, parse policy deck.noteType.template.front = .ok front →
    ∀ note ∈ deck.notes, note.Countable front.clozeFields

theorem countable_iff : deck.Countable policy ↔
    ∀ front ∈ (parse policy deck.noteType.template.front).toOption,
      ∀ note ∈ deck.notes, (noteOrdinals note front.clozeFields).toOption.isSome := by
  have hsome : ∀ {note : Note} {names}, (noteOrdinals note names).toOption.isSome ↔
      ∃ ordinals, noteOrdinals note names = .ok ordinals := by
    intro note names
    cases noteOrdinals note names <;> simp [Except.toOption]
  simp only [Countable, countable_note_iff, hsome]
  cases parse policy deck.noteType.template.front <;> simp [Except.toOption]

instance (policy : Policy) (deck : Deck) : Decidable (deck.Countable policy) :=
  decidable_of_iff' _ countable_iff

/-- A note that goes into a package makes cards, or a card of it is overlong. -/
theorem making_of_handedOver (hreadable : deck.Readable policy)
    (hkind : deck.noteType.kind = .cloze) (hcount : deck.Countable policy)
    (h : note ∈ deck.handedOver policy) (index : Nat) :
    (∃ made, deck.making policy index note = .ok made ∧ made.cards ≠ []) ∨
      deck.ShowsOverlong policy note := by
  obtain ⟨front, hfront⟩ := hreadable.front
  obtain ⟨hmem, hwith⟩ := mem_handedOver.mp h
  have hdeletes : note.Deletes front.clozeFields := by
    rwa [withoutDeletions_of_front hkind hfront, not_not] at hwith
  exact making_of_front hreadable hkind hfront ⟨hdeletes, hcount front hfront note hmem⟩ index

/-- A note without deletions makes no cards, and says so. -/
theorem making_of_withoutDeletions (h : deck.WithoutDeletions policy note) (index : Nat) :
    deck.making policy index note = .ok ⟨[], 0, 1⟩ := by
  obtain ⟨hkind, front, hfront, hnone⟩ := h
  simp only [making, renderNote, hkind, renderClozeNote]
  rw [Rendering.plain_parseFace_bind hfront, hnone]
  rfl

/-- **Where a note can be rendered, it makes cards exactly if it goes into a package.** -/
theorem cards_ne_nil_iff (hkind : deck.noteType.kind = .cloze) (hmem : note ∈ deck.notes)
    {made : NoteCards} (h : deck.making policy index note = .ok made) :
    (note ∈ deck.handedOver policy ↔ made.cards ≠ []) ∧
      (note ∈ deck.handedOver policy ↔ made.skippedNoCloze = 0) := by
  have hbalanced := making_balanced h
  have hmost := hbalanced.atMostOnce
  have hhanded : note ∈ deck.handedOver policy ↔ ¬ made.skippedNoCloze = 1 := by
    rw [hbalanced.withoutDeletions, mem_handedOver, and_iff_right hmem]
  rw [hhanded, Ne, (hbalanced.cloze hkind).2]
  exact ⟨Iff.rfl, by omega⟩

/-- Where it cannot, a card of it is overlong, and it goes into a package. -/
theorem handedOver_of_error (hreadable : deck.Readable policy)
    (hkind : deck.noteType.kind = .cloze) (hcount : deck.Countable policy)
    (hmem : note ∈ deck.notes) {failure : Failure}
    (h : deck.making policy index note = .error failure) :
    note ∈ deck.handedOver policy ∧ failure.IsTooLong ∧ deck.ShowsOverlong policy note := by
  have hhanded : note ∈ deck.handedOver policy := by
    refine mem_handedOver.mpr ⟨hmem, fun hwithout => ?_⟩
    rw [making_of_withoutDeletions hwithout index] at h
    cases h
  refine ⟨hhanded, making_failsOnly hreadable index note failure h, ?_⟩
  rcases making_of_handedOver hreadable hkind hcount hhanded index with
    ⟨made, hmade, -⟩ | hover
  · rw [hmade] at h
    cases h
  · exact hover

/-- The counts of a run say how many notes do not go into a package. -/
theorem sum_skippedNoCloze {notes : List Note} {mades : List NoteCards}
    (h : deck.makings policy index notes = .ok mades) :
    (mades.map NoteCards.skippedNoCloze).sum
      + (notes.filter fun note => ¬ deck.WithoutDeletions policy note).length = notes.length := by
  induction notes generalizing index mades with
  | nil => cases h; rfl
  | cons note rest ih =>
      obtain ⟨made, more, hmade, hmore, rfl⟩ := makings_cons_ok h
      have hbalanced := making_balanced hmade
      have hmost := hbalanced.atMostOnce
      have hrest := ih hmore
      rw [List.map_cons, List.sum_cons, List.filter_cons, List.length_cons]
      by_cases hwithout : deck.WithoutDeletions policy note
      · have hone := hbalanced.withoutDeletions.mpr hwithout
        simp only [hwithout, not_true_eq_false, decide_false, Bool.false_eq_true, if_false]
        omega
      · have hnone := mt hbalanced.withoutDeletions.mp hwithout
        simp only [hwithout, not_false_eq_true, decide_true, if_true, List.length_cons]
        omega

/-! ## What is exported -/

/-- It can be told of each note whether it stays out: of a standard note always, of a cloze note if it
can be counted. -/
theorem staysOut_eq (hreadable : deck.Readable policy)
    (hcount : deck.noteType.kind = .cloze → deck.Countable policy) :
    ∃ clozeFields?, Package.clozeFieldsOf policy deck.noteType = .ok clozeFields? ∧
      ∀ note ∈ deck.notes,
        Package.staysOut clozeFields? note = .ok (decide (deck.WithoutDeletions policy note)) := by
  cases hkind : deck.noteType.kind with
  | standard =>
      refine ⟨none, by rw [Package.clozeFieldsOf, hkind], fun note _ => ?_⟩
      simp [Package.staysOut, not_withoutDeletions_of_standard hkind]
  | cloze =>
      obtain ⟨front, hfront⟩ := hreadable.front
      refine ⟨some front.clozeFields, clozeFieldsOf_cloze hkind hfront, fun note hnote => ?_⟩
      obtain ⟨ordinals, hordinals⟩ := countable_note_iff.mp (hcount hkind front hfront note hnote)
      have hwithout : deck.WithoutDeletions policy note ↔ ordinals = [] := by
        simp [WithoutDeletions, hkind, hfront, hordinals]
      cases ordinals <;> simp [Package.staysOut, hordinals, Except.map, hwithout]

/-- Which notes go into a package follows from the templates. -/
theorem gather_handedOver (hreadable : deck.Readable policy)
    (hcount : deck.noteType.kind = .cloze → deck.Countable policy) :
    ∃ clozeFields? gathered, Package.clozeFieldsOf policy deck.noteType = .ok clozeFields? ∧
      Package.gather clozeFields? .start deck.notes = .ok gathered ∧
      gathered.notes = deck.handedOver policy ∧ gathered.Balanced ∧
      gathered.seen = deck.notes.length := by
  obtain ⟨clozeFields?, hfields, hout⟩ := staysOut_eq hreadable hcount
  obtain ⟨gathered, hgather⟩ := Package.gather_start hout
  exact ⟨clozeFields?, gathered, hfields, hgather⟩

/-- A package holds the notes that go into it, with further tags, and the counts say so. -/
structure Packed (policy : Policy) (deck : Deck) (extra : List String) (package : Package)
    (stats : PackageStats) : Prop where
  notes : package.notes = (deck.handedOver policy).map (Package.noteOf deck.noteType extra)
  seen : stats.notesSeen = deck.notes.length
  exported : stats.notesExported = (deck.handedOver policy).length
  skipped : stats.notesExported + stats.notesSkippedNoCloze = stats.notesSeen

/-- **A package has the notes that go into it, and one without notes is not made.** -/
theorem ofDeck_handedOver (hreadable : deck.Readable policy)
    (hcount : deck.noteType.kind = .cloze → deck.Countable policy) (path : String) (name : Value)
    {tags : Value} {extra : List String} (htags : Package.tagsOf tags = .ok extra) :
    (deck.handedOver policy = [] →
      Package.ofDeck policy deck path name tags = .error .nothingExported) ∧
    (deck.handedOver policy ≠ [] → ∃ package stats,
      Package.ofDeck policy deck path name tags = .ok (package, stats) ∧
        deck.Packed policy extra package stats) := by
  obtain ⟨clozeFields?, gathered, hfields, hgather, hnotes, hbalanced, hseen⟩ :=
    gather_handedOver hreadable hcount
  have hexported : gathered.exported = (deck.handedOver policy).length := by
    rw [hbalanced.exported, hnotes]
  rw [Package.ofDeck, checkTemplates_ok_iff.mpr hreadable, htags, hfields]
  simp only [bind, Except.bind, Except.mapError, hgather]
  constructor
  · intro hempty
    rw [hempty, List.length_nil] at hexported
    rw [if_pos hexported]
  · intro hne
    have hsome : gathered.exported ≠ 0 := by
      rw [hexported]
      exact mt List.length_eq_zero_iff.mp hne
    rw [if_neg hsome]
    exact ⟨_, _, rfl, by rw [hnotes], hseen, hexported, hbalanced.seen.symm⟩

end Deck

/-! ## Packages that are handed over -/

namespace Command

variable {policy : Policy} {deck : Deck} {session after : Session} {out : String}
  {name tags : Value}

theorem makePackage_of_error {failure : Failure}
    (h : Package.ofDeck policy deck (Path.ofText out).text name tags = .error failure) :
    (makePackage policy deck out name tags).outcome session = (.error failure, session) := by
  refine Action.outcome_bind_error ?_ _
  rw [h, Action.outcome_ofExcept]

/-- A package that can be made is handed over once the directory for it is there. -/
theorem makePackage_of_ok {package : Package} {stats : PackageStats}
    (h : Package.ofDeck policy deck (Path.ofText out).text name tags = .ok (package, stats)) :
    (makePackage policy deck out name tags).outcome session
      = (do
          Action.makeParent (Path.ofText out)
          Action.handOver package
          pure stats : Action PackageStats).outcome session := by
  rw [makePackage, h]
  rfl

/-- An export that succeeds has handed over one package and nothing else. -/
theorem ofDeck_of_makePackage {stats : PackageStats}
    (h : (makePackage policy deck out name tags).outcome session = (.ok stats, after)) :
    ∃ package, Package.ofDeck policy deck (Path.ofText out).text name tags = .ok (package, stats) ∧
      after.packages = session.packages ++ [package] := by
  cases hdeck : Package.ofDeck policy deck (Path.ofText out).text name tags with
  | error failure =>
      rw [makePackage_of_error hdeck] at h
      cases h
  | ok made =>
      obtain ⟨package, counted⟩ := made
      rw [makePackage_of_ok hdeck] at h
      obtain ⟨_, between, hparent, h⟩ := Action.outcome_bind_eq_ok h
      obtain ⟨files, -, rfl⟩ := Action.outcome_changeFiles_eq_ok hparent
      cases h
      exact ⟨package, rfl, rfl⟩

end Command

/-! ## Both together -/

namespace Deck

variable {deck : Deck} {policy : Policy} {note : Note}

/-- Whether a note goes into a package agrees with what comes of rendering it: it does if it makes
cards, and if it fails over the length of a numeral in one of them. -/
structure AgreesOn (policy : Policy) (deck : Deck) (note : Note)
    (outcome : Except Failure NoteCards) : Prop where
  cards : ∀ made, outcome = .ok made →
    (note ∈ deck.handedOver policy ↔ made.cards ≠ []) ∧
      (note ∈ deck.handedOver policy ↔ made.skippedNoCloze = 0)
  failure : ∀ failure, outcome = .error failure →
    note ∈ deck.handedOver policy ∧ failure.IsTooLong ∧ deck.ShowsOverlong policy note

theorem agreesOn_making (hreadable : deck.Readable policy) (hkind : deck.noteType.kind = .cloze)
    (hcount : deck.Countable policy) (hmem : note ∈ deck.notes) (index : Nat) :
    deck.AgreesOn policy note (deck.making policy index note) :=
  ⟨fun _ hmade => cards_ne_nil_iff hkind hmem hmade,
    fun _ hfails => handedOver_of_error hreadable hkind hcount hmem hfails⟩

/-- No note goes into a package exactly if all of them can be rendered and none makes a card. -/
theorem handedOver_eq_nil_iff (hkind : deck.noteType.kind = .cloze) :
    deck.handedOver policy = [] ↔ ∀ note ∈ deck.notes, ∀ index, ∃ made,
      deck.making policy index note = .ok made ∧ made.cards = [] := by
  constructor
  · intro hempty note hmem index
    have hnot : note ∉ deck.handedOver policy := hempty ▸ List.not_mem_nil
    have hwithout : deck.WithoutDeletions policy note := by
      rwa [mem_handedOver, and_iff_right hmem, not_not] at hnot
    exact ⟨_, making_of_withoutDeletions hwithout index, rfl⟩
  · intro h
    refine List.eq_nil_iff_forall_not_mem.mpr fun note hnote => ?_
    have hmem := (mem_handedOver.mp hnote).1
    obtain ⟨made, hmade, hcards⟩ := h note hmem 0
    exact (cards_ne_nil_iff hkind hmem hmade).1.mp hnote hcards

/-- A job that came to its end has counted the notes that do not go into a package. -/
theorem notesWithoutCloze_add_handedOver (job : Job.Completed)
    (hreadable : job.deck.Readable job.config.policy) :
    job.metrics.tally.notesRendered = job.deck.notes.length ∧
      job.metrics.tally.notesWithoutCloze + (job.deck.handedOver job.config.policy).length
        = job.deck.notes.length := by
  obtain ⟨told, -, hreport, hmetrics, -⟩ := job.exists_report
  rw [Job.report_readable hreadable] at hreport
  cases hmakings : job.deck.makings job.config.policy 0 job.deck.notes with
  | error failure => rw [hmakings] at hreport; cases hreport
  | ok mades =>
      rw [hmakings, Except.map, Job.renderedReport_eq] at hreport
      cases hreport
      rw [hmetrics]
      exact ⟨makings_length hmakings, sum_skippedNoCloze hmakings⟩

/--
**What is exported is what makes cards.**

Take a deck whose templates can be read, and whose notes have no deletion with too long a number in
the fields that count. A standard deck is exported with all its notes. A cloze note is exported
exactly if it makes a card, however it is rendered; that it makes none is counted. If it cannot be
rendered, it is exported, and one of its cards shows a numeral that is too long. An export is refused
if no note is exported, which means that every note can be rendered to no cards, and otherwise makes
one package of the exported notes. Its counts agree with those of a job over the same deck.
-/
theorem export_renders (hreadable : deck.Readable policy)
    (hcount : deck.noteType.kind = .cloze → deck.Countable policy) :
    (deck.noteType.kind = .standard → deck.handedOver policy = deck.notes) ∧
    (deck.noteType.kind = .cloze →
      (∀ note ∈ deck.notes, ∀ index renderer, renderer.Sound → renderer.policy = policy →
        deck.AgreesOn policy note ((deck.renderNote index note).outcome renderer).1) ∧
      (deck.handedOver policy = [] ↔ ∀ note ∈ deck.notes, ∀ index, ∃ made,
        deck.making policy index note = .ok made ∧ made.cards = [])) ∧
    (∀ session out name tags extra, Package.tagsOf tags = .ok extra →
      (deck.handedOver policy = [] →
        (Command.makePackage policy deck out name tags).outcome session
          = (.error .nothingExported, session)) ∧
      (deck.handedOver policy ≠ [] → ∃ package stats, deck.Packed policy extra package stats ∧
        (Command.makePackage policy deck out name tags).outcome session
          = (do
              Action.makeParent (Path.ofText out)
              Action.handOver package
              pure stats : Action PackageStats).outcome session)) ∧
    (∀ job : Job.Completed, job.deck = deck → job.config.policy = policy →
      ∀ session out name tags extra stats after, Package.tagsOf tags = .ok extra →
        (Command.makePackage policy deck out name tags).outcome session = (.ok stats, after) →
        stats.notesSkippedNoCloze = job.metrics.tally.notesWithoutCloze ∧
        stats.notesExported + job.metrics.tally.notesWithoutCloze
          = job.metrics.tally.notesRendered) := by
  refine ⟨handedOver_standard, fun hkind => ⟨?_, ?_⟩, ?_, ?_⟩
  · intro note hmem index renderer hsound hpolicy
    obtain ⟨last, hrun, -, -⟩ := (transparent_renderNote deck index note).outcome_eq hsound
    rw [hrun, hpolicy]
    exact agreesOn_making hreadable hkind (hcount hkind) hmem index
  · exact handedOver_eq_nil_iff hkind
  · intro session out name tags extra htags
    obtain ⟨hnone, hsome⟩ :=
      ofDeck_handedOver hreadable hcount (Path.ofText out).text name htags
    refine ⟨fun hempty => Command.makePackage_of_error (hnone hempty), fun hne => ?_⟩
    obtain ⟨package, stats, hmade, hpacked⟩ := hsome hne
    exact ⟨package, stats, hpacked, Command.makePackage_of_ok hmade⟩
  · rintro job rfl rfl session out name tags extra stats after htags hrun
    obtain ⟨package, hmade, -⟩ := Command.ofDeck_of_makePackage hrun
    obtain ⟨hnone, hsome⟩ :=
      ofDeck_handedOver hreadable hcount (Path.ofText out).text name htags
    obtain ⟨hrendered, hcounted⟩ := notesWithoutCloze_add_handedOver job hreadable
    have hne : job.deck.handedOver job.config.policy ≠ [] := by
      intro hempty
      rw [hnone hempty] at hmade
      cases hmade
    obtain ⟨other, counts, hother, hpacked⟩ := hsome hne
    obtain ⟨-, rfl⟩ := Prod.mk.inj (Except.ok.inj (hmade.symm.trans hother))
    have hexported := hpacked.exported
    have hskipped := hpacked.skipped
    rw [hpacked.seen] at hskipped
    omega

/-- Of the two notes of the sample one makes cards. It is exported, and the other one is counted by
the export and by the job. -/
theorem export_renders_sample : ∃ package stats after,
    (Command.makePackage .strict Job.sampleDeck "out.apkg" .null .null).outcome
        ⟨.empty, "", []⟩ = (.ok stats, after) ∧
      Job.sampleDeck.Packed .strict [] package stats ∧
      stats.notesSkippedNoCloze = Job.Completed.sample.metrics.tally.notesWithoutCloze := by
  have hreadable : Job.sampleDeck.Readable .strict :=
    Job.templateFaults_eq_nil.mp (by decide +kernel)
  obtain ⟨-, -, hpackage, hjob⟩ := export_renders hreadable fun _ => by decide +kernel
  have htags : Package.tagsOf .null = .ok [] := rfl
  obtain ⟨package, stats, hpacked, hrun⟩ :=
    (hpackage ⟨.empty, "", []⟩ "out.apkg" .null .null [] htags).2 (by decide +kernel)
  have hparent : (Action.makeParent (Path.ofText "out.apkg")).outcome ⟨.empty, "", []⟩
      = (.ok (), _) := Job.outcome_of_toOption (by decide +kernel)
  rw [Action.outcome_bind_ok hparent] at hrun
  have hcounts := hjob Job.Completed.sample rfl rfl _ _ _ _ _ _ _ htags hrun
  exact ⟨package, stats, _, hrun, hpacked, hcounts.1⟩

end Deck

end Flashcards
