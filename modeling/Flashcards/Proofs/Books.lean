import Flashcards.Proofs.Running
import Mathlib.Algebra.BigOperators.Group.List.Lemmas

/-!
# The books of a job

A run counts in three places: what a note makes says how many cards it skipped and whether it had
deletions, the run adds this up note by note, and the cards are counted by template once more when
the results are written. That all of this agrees is a statement about sums over the notes. The sums
are known from what each note makes by itself (`Deck.makings_standard`, `Deck.makings_cloze`), and
the tally of a run is these sums (`foldl_addNote`).

What the files have is told by name: the members of an object that describes a card
(`DescribesCard`), and the metrics (`Metrics.NamedIn`).

The results of a run depend on nothing else, so they are those of the cards of the deck, and the
cards of a note are the same whatever the other notes are.
-/

namespace Flashcards.Job

open Files Json Template

/-! ## What the files have by name -/

/-- The file has the text of an object with these members. -/
def Holds (session : Session) (path : Path) (members : List (String × Value)) : Prop :=
  session.files.readContent path.text = .ok (.text (Value.obj members).indented)

/-- These members describe a card: its id, where it comes from, and what it shows. -/
structure DescribesCard (members : List (String × Value)) (card : Card) : Prop where
  id : Bindings.find? "card_id" members = some (.str card.id)
  noteIndex : Bindings.find? "note_index" members = some (.int card.noteIndex)
  template : Bindings.find? "template" members = some (.str card.template)
  ordinal : Bindings.find? "ordinal" members = some (.int card.ordinal)
  question : Bindings.find? "question" members = some (.str card.question)
  answer : Bindings.find? "answer" members = some (.str card.answer)
  tags : Bindings.find? "tags" members = some (.arr (card.tags.map .str))

theorem describesCard_members (card : Card) : DescribesCard card.members card := by
  constructor <;> simp [Card.members, Value.ofStrings, Bindings.find?]

/-- The metrics stand among these members, each under its name. -/
structure Metrics.NamedIn (metrics : Metrics) (members : List (String × Value)) : Prop where
  createdAt : Bindings.find? "created_at" members = some (.str metrics.createdAt)
  notesTotal : Bindings.find? "notes_total" members = some (.int metrics.tally.notesTotal)
  notesRendered :
    Bindings.find? "notes_rendered" members = some (.int metrics.tally.notesRendered)
  notesFailed : Bindings.find? "notes_failed" members = some (.int metrics.tally.notesFailed)
  cardsTotal : Bindings.find? "cards_total" members = some (.int metrics.tally.cardsTotal)
  cardsSkippedEmptyFront : Bindings.find? "cards_skipped_empty_front" members
    = some (.int metrics.tally.cardsSkippedEmptyFront)
  notesWithoutCloze :
    Bindings.find? "notes_without_cloze" members = some (.int metrics.tally.notesWithoutCloze)

/-- Whatever is behind them, the metrics are found first. -/
theorem namedIn_append (metrics : Metrics) (more : List (String × Value)) :
    metrics.NamedIn (metrics.members ++ more) := by
  constructor <;> simp [Metrics.members, Tally.members, Bindings.find?]

/-! ## Cards by template -/

/-- Each template that made a card is there once, with the number of its cards. -/
structure CountedByTemplate (cards : List Card) (counts : List (String × Nat)) : Prop where
  distinct : (counts.map Prod.fst).Nodup
  mem_iff : ∀ name count, (name, count) ∈ counts ↔
    count ≠ 0 ∧ count = cards.countP fun card => card.template = name
  total : (counts.map Prod.snd).sum = cards.length

/-- The counts as they are written. -/
def countMembers (counts : List (String × Nat)) : List (String × Value) :=
  counts.map fun (name, count) => (name, .int count)

theorem nodup_eraseDups : (texts : List String) → texts.eraseDups.Nodup
  | [] => List.nodup_nil
  | text :: rest => by
      rw [List.eraseDups_cons, List.nodup_cons]
      exact ⟨by simp, nodup_eraseDups _⟩
termination_by texts => texts.length
decreasing_by
  exact Nat.lt_succ_of_le (List.length_filter_le _ _)

/-- A card counts for the template that its members name. -/
theorem map_template_members (cards : List Card) :
    (cards.map Card.members).map (fun card => (Value.memberOr card "template" (.str "")).text)
      = cards.map Card.template := by
  rw [List.map_map]
  refine List.map_congr_left fun card _ => ?_
  rw [Function.comp_apply, Value.memberOr, (describesCard_members card).template]
  rfl

/-- **The cards are counted by template**, none twice and none left out. -/
theorem countedByTemplate (cards : List Card) :
    ∃ counts, cardsByTemplate (cards.map Card.members) = countMembers counts ∧
      CountedByTemplate cards counts := by
  let names := cards.map Card.template
  let sorted := sortTexts names.eraseDups
  have hperm : sorted.Perm names.eraseDups := List.mergeSort_perm _ _
  have hnodup : sorted.Nodup := hperm.nodup_iff.mpr (nodup_eraseDups names)
  have hmem : ∀ name, name ∈ sorted ↔ name ∈ names := by
    intro name
    rw [hperm.mem_iff, List.mem_eraseDups]
  have hcount : ∀ name, names.count name = cards.countP fun card => card.template = name := by
    intro name
    rw [List.count, List.countP_map]
    rfl
  refine ⟨sorted.map fun name => (name, names.count name), ?_, ?_, ?_, ?_⟩
  · rw [cardsByTemplate, map_template_members]
    simp [countMembers, sorted, names]
  · simpa [Function.comp_def] using hnodup
  · intro name count
    simp only [List.mem_map, Prod.mk.injEq]
    constructor
    · rintro ⟨_, hname, rfl, rfl⟩
      exact ⟨Nat.ne_of_gt (List.count_pos_iff.mpr ((hmem _).mp hname)), hcount _⟩
    · rintro ⟨hne, rfl⟩
      rw [← hcount] at hne ⊢
      exact ⟨name, (hmem _).mpr (List.count_pos_iff.mp (Nat.pos_of_ne_zero hne)), rfl, rfl⟩
  · -- Sorted or not, each name is there once, as in the library's statement.
    have hdedup : sorted.Perm names.dedup :=
      (List.perm_ext_iff_of_nodup hnodup names.nodup_dedup).mpr fun name => by
        rw [hmem, List.mem_dedup]
    rw [List.map_map, (hdedup.map _).sum_eq]
    have htotal := List.sum_map_count_dedup_eq_length names
    simpa [Function.comp_def, names] using htotal

/-! ## The tally of a run -/

/-- The tally of a run is the sums over what its notes make. -/
theorem foldl_addNote (mades : List NoteCards) (progress : Progress) :
    mades.foldl Progress.addNote progress =
      { tally := { progress.tally with
          notesRendered := progress.tally.notesRendered + mades.length
          cardsSkippedEmptyFront := progress.tally.cardsSkippedEmptyFront
            + (mades.map NoteCards.skippedEmptyFront).sum
          notesWithoutCloze := progress.tally.notesWithoutCloze
            + (mades.map NoteCards.skippedNoCloze).sum }
        cards := progress.cards ++ mades.flatMap NoteCards.cards } := by
  induction mades generalizing progress with
  | nil => simp
  | cons made more ih =>
      rw [List.foldl_cons, ih]
      simp [Progress.addNote]
      omega

section

variable {policy : Policy} {deck : Deck} {index : Nat} {notes : List Note}
  {mades : List NoteCards}

/-- A note is counted as one without deletions as often as it is noted: once or not at all. -/
theorem length_withoutDeletions (h : deck.makings policy index notes = .ok mades) :
    (withoutDeletions index mades).length = (mades.map NoteCards.skippedNoCloze).sum := by
  induction notes generalizing index mades with
  | nil => cases h; rfl
  | cons note rest ih =>
      obtain ⟨made, more, hmade, hmore, rfl⟩ := Deck.makings_cons_ok h
      have hmost := (Deck.making_balanced hmade).atMostOnce
      rw [withoutDeletions, List.map_cons, List.sum_cons, ← ih hmore]
      split
      · rw [List.length_cons]
        omega
      · omega

theorem mem_withoutDeletions (h : deck.makings policy index notes = .ok mades) {number : Nat} :
    number ∈ withoutDeletions index mades ↔
      ∃ offset note, notes[offset]? = some note ∧ deck.WithoutDeletions policy note ∧
        number = index + offset := by
  induction notes generalizing index mades with
  | nil => cases h; simp [withoutDeletions]
  | cons first rest ih =>
      obtain ⟨made, more, hmade, hmore, rfl⟩ := Deck.makings_cons_ok h
      have hbalanced := Deck.making_balanced hmade
      have hmost := hbalanced.atMostOnce
      have hfirst : number ∈ withoutDeletions index [made] ↔
          deck.WithoutDeletions policy first ∧ number = index := by
        rw [← hbalanced.withoutDeletions]
        by_cases hzero : made.skippedNoCloze = 0
        · simp [withoutDeletions, hzero]
        · have hone : made.skippedNoCloze = 1 := by omega
          simp [withoutDeletions, hone]
      rw [withoutDeletions_cons, List.mem_append, hfirst, ih hmore]
      constructor
      · rintro (⟨hwithout, rfl⟩ | ⟨offset, note, hnote, hwithout, rfl⟩)
        · exact ⟨0, first, rfl, hwithout, rfl⟩
        · exact ⟨offset + 1, note, hnote, hwithout, by omega⟩
      · rintro ⟨offset, note, hnote, hwithout, rfl⟩
        cases offset with
        | zero =>
            cases hnote
            exact .inl ⟨hwithout, rfl⟩
        | succ offset => exact .inr ⟨offset, note, hnote, hwithout, by omega⟩

theorem pairwise_withoutDeletions (h : deck.makings policy index notes = .ok mades) :
    (withoutDeletions index mades).Pairwise (· < ·) := by
  induction notes generalizing index mades with
  | nil => cases h; exact .nil
  | cons note rest ih =>
      obtain ⟨made, more, hmade, hmore, rfl⟩ := Deck.makings_cons_ok h
      have hlater : ∀ number ∈ withoutDeletions (index + 1) more, index < number := by
        intro number hnumber
        obtain ⟨offset, -, -, -, rfl⟩ := (mem_withoutDeletions hmore).mp hnumber
        omega
      rw [withoutDeletions]
      split
      · exact .cons hlater (ih hmore)
      · exact ih hmore

end

/-! ## The books balance -/

/-- The counts of a run, its cards and its records agree with each other and with the deck. -/
structure Balance (policy : Policy) (deck : Deck) (tally : Tally) (cards : List Card)
    (counts : List (String × Nat)) (records : List Record) : Prop where
  notes : tally.notesTotal = deck.notes.length ∧
    tally.notesTotal = tally.notesRendered + tally.notesFailed
  /-- One record for each side of a template that cannot be read, and no cards. -/
  unreadable : ¬ deck.Readable policy →
    tally.notesFailed = tally.notesTotal ∧ cards = [] ∧
      records = templateFaults policy deck.templateTexts
  /-- One record for each note without deletions, in the order of the notes. -/
  readable : deck.Readable policy → tally.notesFailed = 0 ∧
    ∃ numbers : List Nat, records = numbers.map Record.noDeletions ∧
      numbers.length = tally.notesWithoutCloze ∧ numbers.Pairwise (· < ·) ∧
      ∀ number, number ∈ numbers ↔
        ∃ note, deck.notes[number]? = some note ∧ deck.WithoutDeletions policy note
  cardsTotal : tally.cardsTotal = cards.length
  byTemplate : CountedByTemplate cards counts
  ordered : (cards.map Card.noteIndex).Pairwise (· ≤ ·)
  standard : deck.Readable policy → deck.noteType.kind = .standard →
    tally.cardsTotal + tally.cardsSkippedEmptyFront
        = tally.notesTotal * deck.noteType.templates.length ∧
      tally.notesWithoutCloze = 0
  cloze : deck.Readable policy → deck.noteType.kind = .cloze →
    tally.cardsSkippedEmptyFront = 0 ∧
      tally.notesTotal ≤ tally.cardsTotal + tally.notesWithoutCloze

/-- What is counted note by note are the sums over the notes. -/
theorem renderedReport_eq (deck : Deck) (mades : List NoteCards) :
    renderedReport deck mades =
      { records := (withoutDeletions 0 mades).map Record.noDeletions
        cards := mades.flatMap NoteCards.cards
        tally := { Tally.start deck.notes.length with
          notesRendered := mades.length
          cardsTotal := (mades.flatMap NoteCards.cards).length
          cardsSkippedEmptyFront := (mades.map NoteCards.skippedEmptyFront).sum
          notesWithoutCloze := (mades.map NoteCards.skippedNoCloze).sum } } := by
  simp [renderedReport, foldl_addNote, Tally.start]

/-- **The books of a report balance.** -/
theorem report_balance {policy : Policy} {deck : Deck} {told : Report}
    (h : report policy deck = .ok told) {counts : List (String × Nat)}
    (hcounts : CountedByTemplate told.cards counts) :
    Balance policy deck told.tally told.cards counts told.records := by
  by_cases hreadable : deck.Readable policy
  · rw [report_readable hreadable] at h
    cases hmakings : deck.makings policy 0 deck.notes with
    | error failure => rw [hmakings] at h; cases h
    | ok mades =>
        rw [hmakings, Except.map, renderedReport_eq] at h
        cases h
        have hlength := Deck.makings_length hmakings
        refine ⟨⟨rfl, by simp [Tally.start, hlength]⟩, fun hnot => absurd hreadable hnot, ?_, rfl,
          hcounts, Deck.makings_ordered hmakings, ?_, ?_⟩
        · intro _
          refine ⟨rfl, _, rfl, length_withoutDeletions hmakings,
            pairwise_withoutDeletions hmakings, ?_⟩
          intro number
          simp [mem_withoutDeletions hmakings]
        · exact fun _ hkind => Deck.makings_standard hkind hmakings
        · exact fun _ hkind => Deck.makings_cloze hkind hmakings
  · rw [report_unreadable hreadable] at h
    cases h
    exact ⟨⟨rfl, by simp [unreadableReport, Tally.start]⟩, fun _ => ⟨rfl, rfl, rfl⟩,
      fun hread => absurd hread hreadable, rfl, hcounts, .nil,
      fun hread => absurd hread hreadable, fun hread => absurd hread hreadable⟩

/-! ## Runs that come to their end -/

/-- A run of a job that has just been made, over a deck file that could be read, that came to its
end. -/
structure Completed where
  paths : Paths
  session : Session
  config : Config
  options : Options
  jobId : String
  clock : Clock
  deck : Deck
  metrics : Metrics
  after : Session
  fresh : Fresh paths session
  accepted : (Action.readDeck options.deckPath).outcome session = (.ok deck, session)
  returned : (run paths config options jobId clock).outcome session = (.ok metrics, after)

namespace Completed

variable (job : Completed)

/-- These are the cards in the result: it lists the members of each, and these describe the card. -/
structure HasCards (cards : List Card) : Prop where
  written : job.after.files.readContent job.paths.result.text = .ok (.text
    (resultValue (describe job.jobId job.deck job.options job.clock.begun) cards
      job.clock.done).indented)
  described : ∀ card ∈ cards, DescribesCard card.members card

/-- The result has these cards, the metrics are those the run gave back, with these numbers of cards
by template, and the lines of the error file are these records. -/
structure Filed (cards : List Card) (counts : List (String × Nat)) (records : List Record) :
    Prop where
  result : job.HasCards cards
  metrics : ∃ members, Holds job.after job.paths.metrics members ∧ job.metrics.NamedIn members ∧
    Bindings.find? "cards_by_template" members = some (.obj (countMembers counts))
  errors : job.after.files.readContent job.paths.errors.text = .ok (.text (journal records))
  lines : Text.lines (journal records).toList
    = records.map (fun record => record.line.toList) ++ [[]]

/-- A run that came to its end has a report, and its files tell of it. -/
theorem exists_report : ∃ told counts, report job.config.policy job.deck = .ok told ∧
    job.metrics = ⟨job.clock.begun, told.tally⟩ ∧ CountedByTemplate told.cards counts ∧
    job.Filed told.cards counts told.records := by
  have hreturned := job.returned
  obtain ⟨renderer, between, hof, -⟩ := Action.outcome_bind_eq_ok hreturned
  rw [Action.outcome_ofExcept] at hof
  obtain ⟨home, hready, herrors⟩ := job.fresh.ready
  obtain ⟨after, hrun, hfinished, -⟩ :=
    run_outcome hready (congrArg Prod.fst hof) job.accepted job.jobId job.clock
  rw [hrun] at hreturned
  cases hreport : report job.config.policy job.deck with
  | error failure => rw [hreport] at hreturned; cases hreturned
  | ok told =>
      rw [hreport] at hreturned
      obtain ⟨hmetrics, hafter⟩ := Prod.mk.inj hreturned
      obtain ⟨hlater, hresult, hmembers, hnoted⟩ := hfinished told hreport
      have hmetrics : ⟨job.clock.begun, told.tally⟩ = job.metrics := Except.ok.inj hmetrics
      have hjournal := hnoted "" herrors
      rw [hafter] at hlater hresult hmembers hjournal
      rw [hmetrics] at hmembers
      rw [String.empty_append] at hjournal
      obtain ⟨counts, hwritten, hcounted⟩ := countedByTemplate told.cards
      have hresult := hlater.readContent hresult
      have hmembers := hlater.readContent hmembers
      have hjournal := hlater.readContent hjournal
      refine ⟨told, counts, rfl, hmetrics.symm, hcounted,
        ⟨hresult, fun card _ => describesCard_members card⟩,
        ⟨_, hmembers, namedIn_append _ _, ?_⟩, hjournal, lines_journal told.records⟩
      simp [Metrics.members, Tally.members, Bindings.find?, hwritten]

/-- Once the templates can be read, the cards in the result are what the notes make. -/
theorem exists_makings (hreadable : job.deck.Readable job.config.policy) :
    ∃ mades, job.deck.makings job.config.policy 0 job.deck.notes = .ok mades ∧
      job.HasCards (mades.flatMap NoteCards.cards) := by
  obtain ⟨told, counts, hreport, -, -, hfiled⟩ := job.exists_report
  rw [report_readable hreadable] at hreport
  cases hmakings : job.deck.makings job.config.policy 0 job.deck.notes with
  | error failure => rw [hmakings] at hreport; cases hreport
  | ok mades =>
      rw [hmakings, Except.map, renderedReport_eq] at hreport
      cases hreport
      exact ⟨mades, rfl, hfiled.result⟩

/--
**The books of a job balance.**

Whenever a run comes to its end, its counts, the cards in the result and the records in the error
file agree with each other and with the deck.
-/
theorem books_balance : ∃ cards counts records, job.Filed cards counts records ∧
    Balance job.config.policy job.deck job.metrics.tally cards counts records := by
  obtain ⟨told, counts, hreport, hmetrics, hcounted, hfiled⟩ := job.exists_report
  rw [hmetrics]
  exact ⟨told.cards, counts, told.records, hfiled, report_balance hreport hcounted⟩

/-- A run over two notes, of which one makes two cards and the other none. -/
def sample : Completed where
  paths := samplePaths
  session := sampleSession
  config := sampleConfig
  options := sampleOptions
  jobId := "J"
  clock := sampleClock
  deck := sampleDeck
  metrics := ⟨"now", ⟨2, 2, 0, 2, 0, 1⟩⟩
  after := ((run samplePaths sampleConfig sampleOptions "J" sampleClock).outcome sampleSession).2
  fresh := fresh_sample
  accepted := readDeck_sample
  returned := by
    obtain ⟨after, hrun⟩ := returned_sample
    rw [hrun]

/-- The books of this run: two notes, two cards, and one note without deletions. -/
theorem books_balance_sample : ∃ cards counts records, sample.Filed cards counts records ∧
    Balance .strict sampleDeck ⟨2, 2, 0, 2, 0, 1⟩ cards counts records :=
  sample.books_balance

/--
**A job renders each note by itself.**

The cards in the result are the cards of the deck, as a renderer that keeps nothing renders them.
Where two decks of the same name and type have a note in common, under the same number, both results
have the same cards of this note, whatever the other notes are and however many templates are kept.
-/
theorem cards_alone (hreadable : job.deck.Readable job.config.policy) :
    ∃ cards, job.HasCards cards ∧
      (job.deck.cards.outcome (.uncached job.config.policy)).1 = .ok cards ∧
      ∀ other : Completed, other.deck.name = job.deck.name →
        other.deck.noteType = job.deck.noteType → other.config.policy = job.config.policy →
        ∃ others, other.HasCards others ∧
          ∀ number note, job.deck.notes[number]? = some note →
            other.deck.notes[number]? = some note →
            (others.filter fun card => card.noteIndex = number)
              = cards.filter fun card => card.noteIndex = number := by
  obtain ⟨mades, hmakings, hcards⟩ := job.exists_makings hreadable
  refine ⟨mades.flatMap NoteCards.cards, hcards, ?_, ?_⟩
  · rw [← Rendering.plain, Deck.plain_cards, hmakings]
    rfl
  · intro other hname htype hpolicy
    have hother : other.deck.Readable other.config.policy := by
      rw [hpolicy, Deck.Readable, htype]
      exact hreadable
    obtain ⟨others, hotherMakings, hotherCards⟩ := other.exists_makings hother
    refine ⟨others.flatMap NoteCards.cards, hotherCards, ?_⟩
    intro number note hnote hotherNote
    obtain ⟨made, hmade, hfilter⟩ := Deck.makings_filter hmakings hnote
    obtain ⟨otherMade, hotherMade, hotherFilter⟩ :=
      Deck.makings_filter hotherMakings hotherNote
    rw [hpolicy, Deck.making_congr hname htype, hmade] at hotherMade
    cases hotherMade
    rw [Nat.zero_add] at hfilter hotherFilter
    rw [hfilter, hotherFilter]

/-- The two deletions of the first note make its cards, in the order of their numbers. -/
theorem cards_alone_sample : ∃ cards, sample.HasCards cards ∧
    (sampleDeck.cards.outcome (.uncached .strict)).1 = .ok cards ∧
    cards.map (fun card => (card.noteIndex, card.ordinal)) = [(0, 1), (0, 2)] := by
  have hreadable : sampleDeck.Readable .strict :=
    templateFaults_eq_nil.mp (by decide +kernel)
  obtain ⟨cards, hcards, hplain, -⟩ := sample.cards_alone hreadable
  have hplain : (sampleDeck.cards.outcome (.uncached .strict)).1 = .ok cards := hplain
  have hnumbers : (sampleDeck.cards.outcome (.uncached .strict)).1.toOption.map
      (fun cards => cards.map fun card => (card.noteIndex, card.ordinal))
        = some [(0, 1), (0, 2)] := by decide +kernel
  rw [hplain] at hnumbers
  exact ⟨cards, hcards, hplain, Option.some.inj hnumbers⟩

end Completed

end Flashcards.Job
