import Flashcards.Proofs.Books

/-!
# Whether a job is done

Two files tell what came of a job, and each of them tells whether it is done. A run writes them
last, one right after the other, and by then nothing is left that can fail. So a run that comes to
its end leaves both saying so, and one that fails leaves both as they were (`run_finishes`).

Which of the two happened can be told from either file alone: no text that a run writes into one of
them is the text it was initialised with (`resultValue_ne_unstarted`, `metricsValue_ne_unstarted`).
-/

namespace Flashcards.Job

open Files Json Template

variable {paths : Paths} {home : Location} {session after : Session} {made : String} {clock : Clock}

/-- The job was made, its files were initialised at a time, and nothing has happened since. Whatever
its directory held before, no directory stands in the place of a file of the job. -/
def Begun (paths : Paths) (made : String) (session : Session) : Prop :=
  ∃ workspace jobId before empty,
    (create workspace jobId).outcome before = (.ok paths, empty) ∧
    (∀ file, empty.files.entry? (paths.file file).text ≠ some .directory) ∧
    (initialise paths made).outcome empty = (.ok (), session)

theorem Begun.ready (h : Begun paths made session) :
    ∃ home, Ready paths home session ∧
      contents home session .result = some (.text unstartedResult.indented) ∧
      contents home session .metrics = some (.text (unstartedMetrics made).indented) := by
  obtain ⟨workspace, jobId, before, empty, hcreate, hfree, hinitialise⟩ := h
  obtain ⟨home, -, hready, hresult, hmetrics, -⟩ := ready_of_initialise hcreate hfree hinitialise
  exact ⟨home, hready, hresult, hmetrics⟩

/-! ## What the files say -/

theorem Ready.holds {file : File} {members : List (String × Value)}
    (h : Ready paths home session)
    (hcontent : contents home session file = some (.text (Value.obj members).indented)) :
    Holds session (paths.file file) members :=
  h.readContent hcontent

/-- The files say that the job is not done: it has no cards, and was completed at no time. -/
structure Unfinished (paths : Paths) (made : String) (session : Session) : Prop where
  result : Holds session paths.result [("job", .obj []), ("cards", .arr [])]
  metrics : ∃ members, Holds session paths.metrics members ∧
    Bindings.find? "created_at" members = some (.str made) ∧
    Bindings.find? "finished" members = some (.bool false) ∧
    Bindings.find? "completed_at" members = some .null

/-- The files say that the job is done: both that it was completed when the results were written,
the one with these cards and the other with these metrics, which have the time when the run began. -/
structure Done (paths : Paths) (metrics : Metrics) (cards : List Card) (clock : Clock)
    (session : Session) : Prop where
  result : ∃ about,
    Holds session paths.result [("job", .obj about), ("cards", .arr (cards.map Card.toValue))] ∧
    Bindings.find? "created_at" about = some (.str clock.begun) ∧
    Bindings.find? "finished" about = some (.bool true) ∧
    Bindings.find? "completed_at" about = some (.str clock.done)
  described : ∀ card ∈ cards, DescribesCard card.members card
  metrics : ∃ members, Holds session paths.metrics members ∧ metrics.NamedIn members ∧
    Bindings.find? "created_at" members = some (.str clock.begun) ∧
    Bindings.find? "finished" members = some (.bool true) ∧
    Bindings.find? "completed_at" members = some (.str clock.done) ∧
    ∀ key value, (key, value) ∈ metrics.members → Bindings.find? key members = some value

theorem Ready.unfinished (h : Ready paths home session)
    (hresult : contents home session .result = some (.text unstartedResult.indented))
    (hmetrics : contents home session .metrics = some (.text (unstartedMetrics made).indented)) :
    Unfinished paths made session where
  result := show Holds session (paths.file .result) _ from h.holds hresult
  metrics := by
    have hholds := h.holds hmetrics
    refine ⟨_, hholds, ?_, ?_, ?_⟩ <;> simp [Bindings.find?]

/-- What is found by name are all the metrics there are. -/
theorem Metrics.NamedIn.find? {metrics : Metrics} {members : List (String × Value)}
    (h : metrics.NamedIn members) {key : String} {value : Value}
    (hmem : (key, value) ∈ metrics.members) : Bindings.find? key members = some value := by
  simp only [Metrics.members, Tally.members, List.mem_cons, Prod.mk.injEq, List.not_mem_nil,
    or_false] at hmem
  rcases hmem with ⟨rfl, rfl⟩ | ⟨rfl, rfl⟩ | ⟨rfl, rfl⟩ | ⟨rfl, rfl⟩ | ⟨rfl, rfl⟩ | ⟨rfl, rfl⟩ |
    ⟨rfl, rfl⟩
  · exact h.createdAt
  · exact h.notesTotal
  · exact h.notesRendered
  · exact h.notesFailed
  · exact h.cardsTotal
  · exact h.cardsSkippedEmptyFront
  · exact h.notesWithoutCloze

theorem Finished.done {jobId : String} {deck : Deck} {options : Options} {told : Report}
    (h : Finished paths home session after (describe jobId deck options clock.begun) clock told) :
    Done paths ⟨clock.begun, told.tally⟩ told.cards clock after where
  result := by
    have hholds := h.ready.holds h.result
    refine ⟨_, hholds, ?_, ?_, ?_⟩ <;> simp [describe, Bindings.find?]
  described := fun card _ => describesCard_members card
  metrics := by
    have hholds := h.ready.holds h.metrics
    have hnamed := namedIn_append ⟨clock.begun, told.tally⟩
      (("cards_by_template", .obj (cardsByTemplate (told.cards.map Card.members)))
        :: [("finished", .bool true), ("completed_at", .str clock.done)])
    refine ⟨_, hholds, hnamed, hnamed.createdAt, ?_, ?_, fun _ _ => hnamed.find?⟩ <;>
      simp [Metrics.members, Tally.members, Bindings.find?]

/-! ## Texts that cannot be mistaken -/

theorem resultValue_ne_unstarted (about : List (String × Value)) (cards : List Card)
    (done : String) : (resultValue about cards done).indented ≠ unstartedResult.indented := by
  intro h
  have hchars := String.ofList_injective h
  obtain ⟨member, rest, hcons⟩ : ∃ member rest,
      about ++ [("finished", .bool true), ("completed_at", .str done)] = member :: rest :=
    List.exists_cons_of_ne_nil (by simp)
  rw [resultValue, hcons] at hchars
  -- Behind the first key stands the brace of an object, which a line end follows in one text only.
  simp [unstartedResult, Value.chars, memberChars, Layout.edge, lineBreak] at hchars

theorem moreMembers_append (layout : Layout) (depth : Nat) (members more : List (String × Value)) :
    moreMembers layout depth (members ++ more)
      = moreMembers layout depth members ++ moreMembers layout depth more := by
  induction members with
  | nil => rfl
  | cons member rest ih => simp [moreMembers, ih]

/-- The text of an object ends with its last value and the brace. -/
theorem suffix_chars_obj (members : List (String × Value)) (key : String) (value : Value) :
    value.chars .indented 1 ++ ['\n', '}']
      <:+ Value.chars .indented 0 (.obj (members ++ [(key, value)])) := by
  cases members with
  | nil =>
      refine ⟨'{' :: lineBreak 1 ++ stringChars key ++ [':', ' '], ?_⟩
      simp [Value.chars, moreMembers, memberChars, Layout.edge, lineBreak]
  | cons member rest =>
      refine ⟨'{' :: lineBreak 1 ++ memberChars .indented 1 member ++ moreMembers .indented 1 rest
        ++ ',' :: lineBreak 1 ++ stringChars key ++ [':', ' '], ?_⟩
      simp [Value.chars, moreMembers_append, moreMembers, memberChars, Layout.edge,
        Layout.between, lineBreak]

theorem metricsValue_ne_unstarted (metrics : Metrics) (cards : List Card) (done made : String) :
    (metricsValue metrics cards done).indented ≠ (unstartedMetrics made).indented := by
  intro h
  have hchars := String.ofList_injective h
  -- One text ends with a time in quotes, the other with an object that is empty.
  have hdone : ['"', '\n', '}'] <:+ Value.chars .indented 0 (metricsValue metrics cards done) := by
    have hlast := suffix_chars_obj (metrics.members ++ [("cards_by_template",
      .obj (cardsByTemplate (cards.map Card.members))), ("finished", .bool true)])
      "completed_at" (.str done)
    have hquote : ['"', '\n', '}'] <:+ Value.chars .indented 1 (.str done) ++ ['\n', '}'] :=
      ⟨'"' :: done.toList.flatMap stringChar, by simp [Value.chars, stringChars]⟩
    simpa [metricsValue] using hquote.trans hlast
  have hopen : ['}', '\n', '}'] <:+ Value.chars .indented 0 (unstartedMetrics made) :=
    (List.suffix_cons '{' _).trans (suffix_chars_obj _ "cards_by_template" (.obj []))
  rw [hchars] at hdone
  have heq := (List.suffix_of_suffix_length_le hdone hopen (Nat.le_refl 3)).eq_of_length rfl
  exact absurd heq (by decide)

/-! ## How a run leaves the files -/

/-- Both files are what they were. -/
structure Untouched (paths : Paths) (session after : Session) : Prop where
  result : after.files.readContent paths.result.text
    = session.files.readContent paths.result.text
  metrics : after.files.readContent paths.metrics.text
    = session.files.readContent paths.metrics.text

/-- Both files are others than they were. -/
structure Rewritten (paths : Paths) (session after : Session) : Prop where
  result : after.files.readContent paths.result.text
    ≠ session.files.readContent paths.result.text
  metrics : after.files.readContent paths.metrics.text
    ≠ session.files.readContent paths.metrics.text

/-- The cards are all cards of the deck; there are none if a template cannot be read. -/
structure AllCards (policy : Policy) (deck : Deck) (cards : List Card) : Prop where
  readable : deck.Readable policy → (deck.cards.outcome (.uncached policy)).1 = .ok cards
  unreadable : ¬ deck.Readable policy → cards = []

theorem report_allCards {policy : Policy} {deck : Deck} {told : Report}
    (h : report policy deck = .ok told) :
    AllCards policy deck told.cards ∧ told.tally.cardsTotal = told.cards.length := by
  obtain ⟨counts, -, hcounts⟩ := countedByTemplate told.cards
  have hbalance := report_balance h hcounts
  refine ⟨⟨?_, ?_⟩, hbalance.cardsTotal⟩
  · intro hreadable
    rw [report_readable hreadable] at h
    have hplain : (deck.cards.outcome (.uncached policy)).1
      = (deck.makings policy 0 deck.notes).map fun mades => mades.flatMap NoteCards.cards :=
      Deck.plain_cards policy deck
    cases hmakings : deck.makings policy 0 deck.notes with
    | error failure => rw [hmakings] at h; cases h
    | ok mades =>
        rw [hmakings, Except.map, renderedReport_eq] at h
        cases h
        rw [hplain, hmakings]
        rfl
  · exact fun hunreadable => (hbalance.unreadable hunreadable).2.1

theorem Finished.rewritten {about : List (String × Value)} {told : Report}
    (h : Finished paths home session after about clock told) (hready : Ready paths home session)
    (hresult : contents home session .result = some (.text unstartedResult.indented))
    (hmetrics : contents home session .metrics = some (.text (unstartedMetrics made).indented)) :
    Rewritten paths session after where
  result := by
    have hbefore := hready.readContent hresult
    have hafter := h.ready.readContent h.result
    intro heq
    have htexts := hafter.symm.trans (heq.trans hbefore)
    simp only [Except.ok.injEq, Content.text.injEq] at htexts
    exact resultValue_ne_unstarted _ _ _ htexts
  metrics := by
    have hbefore := hready.readContent hmetrics
    have hafter := h.ready.readContent h.metrics
    intro heq
    have htexts := hafter.symm.trans (heq.trans hbefore)
    simp only [Except.ok.injEq, Content.text.injEq] at htexts
    exact metricsValue_ne_unstarted _ _ _ _ htexts

/--
**Both files are rewritten by a run, or neither is.**

Whatever the deck file holds and whatever the configuration, a run of a job that has just been made
either fails, and leaves both files saying that the job is not done, to the letter as they were; or
it comes to its end, and leaves both saying that the job is done, and when. The metrics are then the
ones it gives back, and the cards are all cards of the deck.
-/
theorem run_finishes (hbegun : Begun paths clock.made session) (config : Config)
    (options : Options) (jobId : String) :
    (∃ failure after,
      (run paths config options jobId clock).outcome session = (.error failure, after) ∧
      Untouched paths session after ∧ Unfinished paths clock.made after) ∨
    (∃ deck metrics cards after,
      (run paths config options jobId clock).outcome session = (.ok metrics, after) ∧
      Rewritten paths session after ∧ Done paths metrics cards clock after ∧
      (Action.readDeck options.deckPath).outcome session = (.ok deck, session) ∧
      AllCards config.policy deck cards ∧ metrics.tally.cardsTotal = cards.length) := by
  obtain ⟨home, hready, hresult, hmetrics⟩ := hbegun.ready
  have hunfinished := hready.unfinished hresult hmetrics
  cases hrenderer : config.renderer with
  | error failure =>
      refine .inl ⟨failure, session, ?_, ⟨rfl, rfl⟩, hunfinished⟩
      rw [run, hrenderer]
      exact Action.outcome_bind_error (Action.outcome_ofExcept _) _
  | ok renderer =>
      rcases hdeck : (Action.readDeck options.deckPath).outcome session with ⟨outcome, kept⟩
      obtain rfl := (Action.looks_readDeck options.deckPath).after_eq hdeck
      cases outcome with
      | error failure =>
          refine .inl ⟨failure, kept, ?_, ⟨rfl, rfl⟩, hunfinished⟩
          exact (Action.outcome_bind_ok (Action.outcome_ofExcept_eq hrenderer) _).trans
            (Action.outcome_bind_error hdeck _)
      | ok deck =>
          obtain ⟨after, hrun, hfinished, hfailed⟩ :=
            run_outcome hready hrenderer hdeck jobId clock
          cases hreport : report config.policy deck with
          | error failure =>
              obtain ⟨hafter, hothers⟩ := hfailed failure hreport
              have hsame := hothers .result (by decide)
              have hsameMetrics := hothers .metrics (by decide)
              have hread := hready.readContent_congr hafter hsame
              have hreadMetrics := hready.readContent_congr hafter hsameMetrics
              have hstill := hafter.unfinished (hsame.trans hresult) (hsameMetrics.trans hmetrics)
              rw [hreport] at hrun
              exact .inl ⟨failure, after, hrun, ⟨hread, hreadMetrics⟩, hstill⟩
          | ok told =>
              have hfiles := hfinished told hreport
              obtain ⟨hall, htotal⟩ := report_allCards hreport
              rw [hreport] at hrun
              exact .inr ⟨deck, _, told.cards, after, hrun,
                hfiles.rewritten hready hresult hmetrics, hfiles.done, rfl, hall, htotal⟩

theorem begun_sample : Begun samplePaths sampleClock.made sampleSession :=
  ⟨".", "J", _, sampleMade, outcome_of_toOption (by decide +kernel),
    fun file => by cases file <;> decide +kernel, outcome_of_toOption (by decide +kernel)⟩

/-- A run over a deck file that is missing leaves the job undone, and one over a deck whose notes can
be rendered leaves it done. -/
theorem run_finishes_sample :
    (∃ after, Unfinished samplePaths "then" after ∧ after =
      ((run samplePaths sampleConfig ⟨"none.json", true⟩ "J" sampleClock).outcome sampleSession).2) ∧
    (∃ cards after, Done samplePaths ⟨"now", ⟨2, 2, 0, 2, 0, 1⟩⟩ cards sampleClock after ∧ after =
      ((run samplePaths sampleConfig sampleOptions "J" sampleClock).outcome sampleSession).2) := by
  refine ⟨?_, ?_⟩
  · have hfails : ((run samplePaths sampleConfig ⟨"none.json", true⟩ "J" sampleClock).outcome
        sampleSession).1.toOption.isNone = true := by decide +kernel
    rcases run_finishes begun_sample sampleConfig ⟨"none.json", true⟩ "J" with
      ⟨failure, after, hrun, -, hunfinished⟩ | ⟨_, metrics, _, after, hrun, -⟩
    · exact ⟨after, hunfinished, by rw [hrun]⟩
    · rw [hrun] at hfails
      cases hfails
  · obtain ⟨last, hreturned⟩ := returned_sample
    rcases run_finishes begun_sample sampleConfig sampleOptions "J" with
      ⟨failure, after, hrun, -⟩ | ⟨_, metrics, cards, after, hrun, -, hdone, -⟩
    · rw [hrun] at hreturned
      cases hreturned
    · obtain rfl : metrics = ⟨"now", ⟨2, 2, 0, 2, 0, 1⟩⟩ := by
        rw [hrun] at hreturned
        exact Except.ok.inj (Prod.mk.inj hreturned).1
      exact ⟨cards, after, hdone, by rw [hrun]⟩

end Flashcards.Job
