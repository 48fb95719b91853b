import Flashcards.Job.Run
import Flashcards.Proofs.Journal
import Flashcards.Proofs.Making

/-!
# What a run comes to

A run reads a deck, checks its templates, renders its notes one after the other with one renderer,
and writes the results last. What comes of it can be told from what each note makes by itself
(`report`), since one note leaves nothing behind that the next one would see: the cache of the
renderer does not show, and the files only grow by records. `renderDeck_outcome` says that this is
what is done with the deck, once it was read. It follows by induction on the notes from what one of
them does (`renderNotes_cons_ok`, `renderNotes_cons_error`).

A run passes over notes whose failure is of one family. Once all templates can be read, no note fails
in this way (`Deck.making_failsOnly`), so nothing is ever passed over: a note is rendered, or it ends
the run.
-/

namespace Flashcards.Job

open Files Json Template

variable {paths : Paths} {home : Location} {session : Session} {renderer : Renderer}

/-! ## Templates -/

/-- The record of a template that cannot be read. -/
def templateFault? (policy : Policy) : Deck.TemplateKey × String → Option Record
  | ((name, face), text) =>
    match parse policy text with
    | .ok _ => none
    | .error error =>
      some ⟨none, "template", s!"{name}: {(Failure.template (some face) error).message}"⟩

/-- The records of the templates that cannot be read, in order. -/
def templateFaults (policy : Policy) (texts : List (Deck.TemplateKey × String)) : List Record :=
  texts.filterMap (templateFault? policy)

theorem templateFault?_eq_none {policy : Policy} {key : Deck.TemplateKey} {text : String} :
    templateFault? policy (key, text) = none ↔ ∃ nodes, parse policy text = .ok nodes := by
  cases hparse : parse policy text <;> simp [templateFault?, hparse]

theorem mem_templateTexts {deck : Deck} {entry : Deck.TemplateKey × String} :
    entry ∈ deck.templateTexts ↔ ∃ template ∈ deck.noteType.templates, ∃ face : Face,
      entry = ((template.name, face), template.text face) := by
  have hface : ∀ template : CardTemplate,
      (∃ face : Face, entry = ((template.name, face), template.text face))
        ↔ entry = ((template.name, .front), template.front)
          ∨ entry = ((template.name, .back), template.back) := by
    intro template
    constructor
    · rintro ⟨face, h⟩
      cases face with
      | front => exact .inl h
      | back => exact .inr h
    · rintro (h | h)
      · exact ⟨.front, h⟩
      · exact ⟨.back, h⟩
  simp only [Deck.templateTexts, List.mem_flatMap, List.mem_cons, List.not_mem_nil, or_false,
    hface]

/-- No template has a record exactly if all of them can be read. -/
theorem templateFaults_eq_nil {policy : Policy} {deck : Deck} :
    templateFaults policy deck.templateTexts = [] ↔ deck.Readable policy := by
  rw [templateFaults, List.filterMap_eq_nil_iff]
  constructor
  · intro h template hmem face
    exact templateFault?_eq_none.mp (h _ (mem_templateTexts.mpr ⟨template, hmem, face, rfl⟩))
  · intro h entry hentry
    obtain ⟨template, hmem, face, rfl⟩ := mem_templateTexts.mp hentry
    exact templateFault?_eq_none.mpr (h template hmem face)

/-- The templates are checked as if each was read anew, and those that cannot be read are noted. -/
theorem checkTemplates_outcome (hsound : renderer.Sound) (hready : Ready paths home session)
    (texts : List (Deck.TemplateKey × String)) :
    ∃ after last,
      (checkTemplates paths renderer texts).outcome session
        = (.ok ((templateFaults renderer.policy texts).isEmpty, last), after) ∧
      last.Sound ∧ last.policy = renderer.policy ∧
      Noted paths home session after (templateFaults renderer.policy texts) := by
  induction texts generalizing renderer session with
  | nil => exact ⟨session, renderer, rfl, hsound, rfl, hready.noted⟩
  | cons head rest ih =>
      obtain ⟨⟨name, face⟩, text⟩ := head
      obtain ⟨read, hread, hsound, hpolicy⟩ := hsound.parseCached text
      simp only [checkTemplates, hread, templateFaults, List.filterMap_cons, templateFault?]
      cases parse renderer.policy text with
      | ok nodes =>
          rw [← hpolicy]
          exact ih hsound hready
      | error error =>
          -- The record is written before the rest is read, so the records keep the order.
          obtain ⟨between, hrecord, hnoted⟩ := hready.recordError
            ⟨none, "template", s!"{name}: {(Failure.template (some face) error).message}"⟩
          obtain ⟨after, last, hrest, hlast, hlastPolicy, hmore⟩ := ih hsound hnoted.ready
          rw [hpolicy] at hmore hlastPolicy
          refine ⟨after, last, ?_, hlast, hlastPolicy, hnoted.trans hmore⟩
          refine (Action.outcome_bind_ok hrecord _).trans ?_
          exact Action.outcome_bind_ok hrest _

/-! ## Notes -/

/-- The numbers of the notes that have no deletions, where the first one has the number `index`. -/
def withoutDeletions (index : Nat) : List NoteCards → List Nat
  | [] => []
  | made :: more =>
    if made.skippedNoCloze ≠ 0 then index :: withoutDeletions (index + 1) more
    else withoutDeletions (index + 1) more

theorem withoutDeletions_cons (index : Nat) (made : NoteCards) (more : List NoteCards) :
    withoutDeletions index (made :: more)
      = withoutDeletions index [made] ++ withoutDeletions (index + 1) more := by
  by_cases hzero : made.skippedNoCloze = 0 <;> simp [withoutDeletions, hzero]

/-- The record of a note that has no deletions. -/
def Record.noDeletions (index : Nat) : Record := ⟨some index, "cloze", "no_cloze_ordinals"⟩

/-- A numeral that is too long is no failure that a run passes over. -/
theorem family_of_isTooLong {failure : Failure} (h : failure.IsTooLong) :
    failure.family = .value := by
  obtain ⟨digits, rfl, -⟩ := h
  rfl

section

variable {deck : Deck} {index : Nat} {note : Note}

/-- A note that makes cards is counted. It is noted if it has no deletions. -/
theorem renderNotes_cons_ok (hsound : renderer.Sound) (hready : Ready paths home session)
    (progress : Progress) (rest : List Note) {made : NoteCards}
    (hmade : deck.making renderer.policy index note = .ok made) :
    ∃ last between,
      (renderNotes paths deck renderer progress index (note :: rest)).outcome session
        = (renderNotes paths deck last (progress.addNote made) (index + 1) rest).outcome between ∧
      last.Sound ∧ last.policy = renderer.policy ∧
      Noted paths home session between
        ((withoutDeletions index [made]).map Record.noDeletions) := by
  obtain ⟨last, hnote, hlast, hpolicy⟩ :=
    (Deck.transparent_renderNote deck index note).outcome_eq hsound
  rw [← Deck.making, hmade] at hnote
  simp only [renderNotes, hnote]
  by_cases hzero : made.skippedNoCloze = 0
  · refine ⟨last, session, by rw [if_neg (by simpa using hzero)], hlast, hpolicy, ?_⟩
    simpa [withoutDeletions, hzero] using hready.noted
  · obtain ⟨between, hrecord, hnoted⟩ := hready.recordError (.noDeletions index)
    refine ⟨last, between, ?_, hlast, hpolicy, by simpa [withoutDeletions, hzero] using hnoted⟩
    rw [if_pos hzero]
    exact Action.outcome_bind_ok hrecord _

/-- A note that fails ends the run, since its failure is none that is passed over. -/
theorem renderNotes_cons_error (hreadable : deck.Readable renderer.policy)
    (hsound : renderer.Sound) (progress : Progress) (rest : List Note) {failure : Failure}
    (hmade : deck.making renderer.policy index note = .error failure) :
    (renderNotes paths deck renderer progress index (note :: rest)).outcome session
      = (.error failure, session) := by
  obtain ⟨last, hnote, -, -⟩ := (Deck.transparent_renderNote deck index note).outcome_eq hsound
  rw [← Deck.making, hmade] at hnote
  have hfamily : failure.family ≠ .rendering := by
    rw [family_of_isTooLong (Deck.making_failsOnly hreadable index note failure hmade)]
    decide
  simp only [renderNotes, hnote]
  rw [if_neg hfamily]
  rfl

end

/-- **The notes are rendered as if each was rendered by itself.** The first one that fails ends the
run; all that was done to the files until then is that notes without deletions were noted. -/
theorem renderNotes_outcome {deck : Deck} (hreadable : deck.Readable renderer.policy)
    (hsound : renderer.Sound) (hready : Ready paths home session) (progress : Progress)
    (index : Nat) (notes : List Note) :
    ∃ after, ∃ numbers : List Nat,
      (renderNotes paths deck renderer progress index notes).outcome session
        = ((deck.makings renderer.policy index notes).map (·.foldl Progress.addNote progress),
          after) ∧
      Noted paths home session after (numbers.map Record.noDeletions) ∧
      ∀ mades, deck.makings renderer.policy index notes = .ok mades →
        numbers = withoutDeletions index mades := by
  induction notes generalizing renderer session progress index with
  | nil =>
      refine ⟨session, [], rfl, hready.noted, ?_⟩
      intro mades h
      cases h
      rfl
  | cons note rest ih =>
      cases hmade : deck.making renderer.policy index note with
      | error failure =>
          -- Nothing is written for this note, and the later ones are not looked at.
          have hmakings : deck.makings renderer.policy index (note :: rest) = .error failure := by
            rw [Deck.makings, hmade]
            rfl
          refine ⟨session, [], ?_, hready.noted, by simp [hmakings]⟩
          rw [renderNotes_cons_error hreadable hsound progress rest hmade, hmakings]
          rfl
      | ok made =>
          obtain ⟨last, between, hfirst, hlast, hpolicy, hnoted⟩ :=
            renderNotes_cons_ok hsound hready progress rest hmade
          rw [← hpolicy] at hreadable
          obtain ⟨after, numbers, hrest, hmore, hnumbers⟩ :=
            ih hreadable hlast hnoted.ready (progress.addNote made) (index + 1)
          rw [hpolicy] at hrest hnumbers
          refine ⟨after, withoutDeletions index [made] ++ numbers, ?_, ?_, ?_⟩
          · rw [hfirst, hrest, Deck.makings, hmade]
            cases deck.makings renderer.policy (index + 1) rest with
            | error failure => rfl
            | ok more => rfl
          · rw [List.map_append]
            exact hnoted.trans hmore
          · intro mades hmades
            obtain ⟨_, more, hmade', hmore, rfl⟩ := Deck.makings_cons_ok hmades
            obtain rfl := Except.ok.inj (hmade.symm.trans hmade')
            rw [hnumbers more hmore, ← withoutDeletions_cons]

/-! ## Results -/

theorem joined_ofStrings (separator : String) (texts : List String) :
    (Value.ofStrings texts).joined separator = .ok (separator.intercalate texts) := by
  have htexts : ∀ index, Value.textsFrom index (texts.map Value.str) = .ok texts := by
    induction texts with
    | nil => exact fun _ => rfl
    | cons text rest ih => exact fun index => by simp [Value.textsFrom, ih, Except.map]
  simp [Value.joined, Value.ofStrings, Value.items?, htexts, Except.map]

theorem tagsText_ok {members : Settings} {tags : List String}
    (h : Value.memberOr members "tags" .null = .ofStrings tags) :
    ∃ text, Preview.tagsText members = .ok text := by
  rw [Preview.tagsText, h, joined_ofStrings]
  split
  · exact ⟨_, rfl⟩
  · exact ⟨_, rfl⟩

/-- The tags of a card are texts, so there is nothing about a card that cannot be shown. -/
theorem cardBlock_ok (nightMode : Bool) (card : Card) :
    ∃ members block, card.toValue = .obj members ∧
      Preview.cardBlock nightMode members = .ok block := by
  obtain ⟨members, hmembers, htags⟩ : ∃ members, card.toValue = .obj members ∧
      Value.memberOr members "tags" .null = .ofStrings card.tags := ⟨_, rfl, rfl⟩
  obtain ⟨tags, htags⟩ := tagsText_ok htags
  refine ⟨members, ?_⟩
  cases hblock : Preview.cardBlock nightMode members with
  | ok block => exact ⟨block, hmembers, rfl⟩
  | error fault =>
      rw [Preview.cardBlock, Preview.metaText, htags] at hblock
      cases hblock

/-- **A page can be rendered from any cards.** -/
theorem render_cards (page : Preview.Page) (cards : List Card) :
    ∃ text, page.render (cards.map Card.toValue) = .ok text := by
  have hblocks : ∃ blocks,
      Preview.cardBlocks page.appearance.nightMode (cards.map Card.toValue) = .ok blocks := by
    induction cards with
    | nil => exact ⟨[], rfl⟩
    | cons card rest ih =>
        obtain ⟨more, hmore⟩ := ih
        obtain ⟨members, block, hvalue, hblock⟩ := cardBlock_ok page.appearance.nightMode card
        refine ⟨block :: more, ?_⟩
        rw [List.map_cons, hvalue, Preview.cardBlocks, hblock, hmore]
        rfl
  obtain ⟨blocks, hblocks⟩ := hblocks
  cases hrender : page.render (cards.map Card.toValue) with
  | ok text => exact ⟨text, rfl⟩
  | error fault =>
      rw [Preview.Page.render, hblocks] at hrender
      cases hrender

theorem Ready.writePreview (h : Ready paths home session) (page : Preview.Page)
    (cards : List Card) :
    ∃ after text, page.render (cards.map Card.toValue) = .ok text ∧
      (writePreview paths.preview page (cards.map Card.toValue)).outcome session
        = (.ok (), after) ∧
      Wrote paths home session after .preview text := by
  obtain ⟨text, htext⟩ := render_cards page cards
  refine ⟨_, text, htext, ?_, h.wrote .preview text⟩
  refine (Action.outcome_bind_ok
    (Action.outcome_makeParent (h .preview).inDirectory) _).trans ?_
  have hrender : (Action.ofExcept ((page.render (cards.map Card.toValue)).mapError
      Failure.shape)).outcome session = (.ok text, session) := by
    rw [htext]
    exact Action.outcome_ofExcept _
  exact (Action.outcome_bind_ok hrender _).trans (Action.outcome_edit (h .preview) _)

/-- Whether or not a preview is asked for, nothing stands in the way of what comes next. If one is,
its page is there. -/
theorem Ready.mayPreview (h : Ready paths home session) (preview : Bool) (page : Preview.Page)
    (cards : List Card) :
    ∃ after, Ready paths home after ∧
      (∀ file, file ≠ .preview → contents home after file = contents home session file) ∧
      (preview = true → ∃ text, page.render (cards.map Card.toValue) = .ok text ∧
        contents home after .preview = some (.text text)) ∧
      ∀ rest : Action Metrics,
        (if preview then do
          Job.writePreview paths.preview page (cards.map Card.toValue)
          rest
        else rest).outcome session = rest.outcome after := by
  cases preview with
  | false => exact ⟨session, h, fun _ _ => rfl, by simp, fun _ => rfl⟩
  | true =>
      obtain ⟨after, text, htext, hrun, hwrote⟩ := h.writePreview page cards
      exact ⟨after, hwrote.ready, hwrote.others, fun _ => ⟨text, htext, hwrote.here⟩,
        fun rest => Action.outcome_bind_ok hrun _⟩

/-- The result of a job that is done. -/
def resultValue (about : List (String × Value)) (cards : List Card) (done : String) : Value :=
  .obj [
    ("job", .obj (about ++ [("finished", .bool true), ("completed_at", .str done)])),
    ("cards", .arr (cards.map Card.toValue))]

/-- The metrics of a job that is done. -/
def metricsValue (metrics : Metrics) (cards : List Card) (done : String) : Value :=
  .obj (metrics.members ++ ("cards_by_template", .obj (cardsByTemplate (cards.map Card.members)))
    :: [("finished", .bool true), ("completed_at", .str done)])

theorem map_obj_members (cards : List Card) :
    (cards.map Card.members).map Value.obj = cards.map Card.toValue :=
  List.map_map

theorem Ready.writeResults (h : Ready paths home session) (about : List (String × Value))
    (metrics : Metrics) (cards : List Card) (done : String) :
    ∃ after,
      (writeResults paths about metrics (cards.map Card.members) done).outcome session
        = (.ok (), after) ∧
      Ready paths home after ∧
      contents home after .result = some (.text (resultValue about cards done).indented) ∧
      contents home after .metrics = some (.text (metricsValue metrics cards done).indented) ∧
      contents home after .errors = contents home session .errors ∧
      contents home after .preview = contents home session .preview := by
  obtain ⟨between, hresult, hbetween⟩ := h.writeJson .result (resultValue about cards done)
  obtain ⟨after, hmetrics, hafter⟩ :=
    hbetween.ready.writeJson .metrics (metricsValue metrics cards done)
  refine ⟨after, ?_, hafter.ready, ?_, hafter.here, ?_, ?_⟩
  · rw [Job.writeResults, map_obj_members]
    exact (Action.outcome_bind_ok hresult _).trans hmetrics
  · rw [hafter.others _ (by decide), hbetween.here]
  · rw [hafter.others _ (by decide), hbetween.others _ (by decide)]
  · rw [hafter.others _ (by decide), hbetween.others _ (by decide)]

/-! ## A run -/

/-- What a run comes to: the records of what went wrong, the cards, and the counts. -/
structure Report where
  records : List Record
  cards : List Card
  tally : Tally
  deriving DecidableEq, Repr

/-- Where templates cannot be read, there are no cards and every note counts as failed. -/
def unreadableReport (policy : Policy) (deck : Deck) : Report where
  records := templateFaults policy deck.templateTexts
  cards := []
  tally := { Tally.start deck.notes.length with notesFailed := deck.notes.length }

/-- Where the notes make these cards, they are counted one after the other. -/
def renderedReport (deck : Deck) (mades : List NoteCards) : Report :=
  let progress := mades.foldl Progress.addNote ⟨Tally.start deck.notes.length, []⟩
  { records := (withoutDeletions 0 mades).map Record.noDeletions
    cards := progress.cards
    tally := { progress.tally with cardsTotal := progress.cards.length } }

/-- What a run over a deck comes to, told from what each note makes by itself. -/
def report (policy : Policy) (deck : Deck) : Except Failure Report :=
  if templateFaults policy deck.templateTexts ≠ [] then .ok (unreadableReport policy deck)
  else (deck.makings policy 0 deck.notes).map (renderedReport deck)

theorem report_unreadable {policy : Policy} {deck : Deck} (h : ¬ deck.Readable policy) :
    report policy deck = .ok (unreadableReport policy deck) :=
  if_pos fun hfaults => h (templateFaults_eq_nil.mp hfaults)

theorem report_readable {policy : Policy} {deck : Deck} (h : deck.Readable policy) :
    report policy deck = (deck.makings policy 0 deck.notes).map (renderedReport deck) :=
  if_neg (not_not.mpr (templateFaults_eq_nil.mpr h))

theorem renderer_ok {config : Config} (h : config.renderer = .ok renderer) :
    renderer.Sound ∧ renderer.policy = config.policy := by
  obtain ⟨capacity, -, h⟩ := bind_eq_ok h
  obtain ⟨cache, hcache, h⟩ := bind_eq_ok h
  cases h
  refine ⟨?_, rfl⟩
  intro other hother
  cases hother
  unfold Cache.ofCapacity at hcache
  split at hcache
  · cases hcache
  · cases hcache
    exact Cache.inv_empty _

/-- The files tell of the report of a run that came to its end. -/
structure Finished (paths : Paths) (home : Location) (session after : Session)
    (about : List (String × Value)) (clock : Clock) (report : Report) : Prop where
  ready : Ready paths home after
  result : contents home after .result
    = some (.text (resultValue about report.cards clock.done).indented)
  metrics : contents home after .metrics
    = some (.text (metricsValue ⟨clock.begun, report.tally⟩ report.cards clock.done).indented)
  errors : ∀ old, contents home session .errors = some (.text old) →
    contents home after .errors = some (.text (old ++ journal report.records))

section

variable {config : Config} {options : Options} {deck : Deck} {jobId : String} {clock : Clock}

section

variable (hready : Ready paths home session) (hrenderer : config.renderer = .ok renderer)

include hready hrenderer

/-- The templates of a deck are checked first, whatever is done then. -/
theorem check_outcome (deck : Deck) :
    ∃ checked last, last.Sound ∧ last.policy = config.policy ∧
      Noted paths home session checked (templateFaults config.policy deck.templateTexts) ∧
      (checkTemplates paths renderer deck.templateTexts).outcome session
        = (.ok ((templateFaults config.policy deck.templateTexts).isEmpty, last), checked) := by
  obtain ⟨hsound, hpolicy⟩ := renderer_ok hrenderer
  obtain ⟨checked, last, hcheck, hlast, hlastPolicy, hnoted⟩ :=
    checkTemplates_outcome hsound hready deck.templateTexts
  rw [hpolicy] at hcheck hlastPolicy hnoted
  exact ⟨checked, last, hlast, hlastPolicy, hnoted, hcheck⟩

/-- Where templates cannot be read, the run comes to its end without a note being rendered. No
preview is written. -/
theorem renderDeck_unreadable (hunreadable : ¬ deck.Readable config.policy) :
    ∃ after,
      (renderDeck paths config options jobId clock renderer deck).outcome session
        = (.ok ⟨clock.begun, (unreadableReport config.policy deck).tally⟩, after) ∧
      Finished paths home session after (describe jobId deck options clock.begun) clock
        (unreadableReport config.policy deck) ∧
      contents home after .preview = contents home session .preview := by
  obtain ⟨checked, last, -, -, hnoted, hcheck⟩ := check_outcome hready hrenderer deck
  have hfaults : templateFaults config.policy deck.templateTexts ≠ [] :=
    fun hnone => hunreadable (templateFaults_eq_nil.mp hnone)
  rw [List.isEmpty_eq_false_iff.mpr hfaults] at hcheck
  obtain ⟨after, hwrite, hafter, hresult, hmetrics, herrors, hpage⟩ :=
    hnoted.ready.writeResults (describe jobId deck options clock.begun)
      ⟨clock.begun, (unreadableReport config.policy deck).tally⟩ [] clock.done
  refine ⟨after, ?_, ⟨hafter, hresult, hmetrics, ?_⟩, ?_⟩
  · exact (Action.outcome_bind_ok hcheck _).trans (Action.outcome_bind_ok hwrite _)
  · intro old hold
    rw [herrors, hnoted.errors old hold]
    rfl
  · rw [hpage, hnoted.others _ (by decide)]

/-- Where a note fails, the run fails, and all it has written is that notes have no deletions. -/
theorem renderDeck_failed (hreadable : deck.Readable config.policy) {failure : Failure}
    (hmakings : deck.makings config.policy 0 deck.notes = .error failure) :
    ∃ after, ∃ numbers : List Nat,
      (renderDeck paths config options jobId clock renderer deck).outcome session
        = (.error failure, after) ∧
      Noted paths home session after (numbers.map Record.noDeletions) := by
  obtain ⟨checked, last, hlast, hpolicy, hnoted, hcheck⟩ := check_outcome hready hrenderer deck
  rw [templateFaults_eq_nil.mpr hreadable] at hcheck hnoted
  rw [← hpolicy] at hreadable hmakings
  obtain ⟨after, numbers, hnotes, hmore, -⟩ := renderNotes_outcome hreadable hlast hnoted.ready
    ⟨Tally.start deck.notes.length, []⟩ 0 deck.notes
  rw [hmakings] at hnotes
  refine ⟨after, numbers, ?_, hnoted.trans hmore⟩
  exact (Action.outcome_bind_ok hcheck _).trans (Action.outcome_bind_error hnotes _)

/-- Where every note can be rendered, the run comes to its end, with a preview of all cards if one
is asked for. -/
theorem renderDeck_rendered (hreadable : deck.Readable config.policy) {mades : List NoteCards}
    (hmakings : deck.makings config.policy 0 deck.notes = .ok mades) :
    ∃ after,
      (renderDeck paths config options jobId clock renderer deck).outcome session
        = (.ok ⟨clock.begun, (renderedReport deck mades).tally⟩, after) ∧
      Finished paths home session after (describe jobId deck options clock.begun) clock
        (renderedReport deck mades) ∧
      (options.preview = true → ∃ page,
        Preview.Page.render ⟨deck.name, deck.noteType.css, config.appearance⟩
          ((renderedReport deck mades).cards.map Card.toValue) = .ok page ∧
        contents home after .preview = some (.text page)) := by
  obtain ⟨checked, last, hlast, hpolicy, hnoted, hcheck⟩ := check_outcome hready hrenderer deck
  rw [templateFaults_eq_nil.mpr hreadable] at hcheck hnoted
  rw [← hpolicy] at hreadable hmakings
  obtain ⟨rendered, numbers, hnotes, hmore, hnumbers⟩ := renderNotes_outcome hreadable hlast
    hnoted.ready ⟨Tally.start deck.notes.length, []⟩ 0 deck.notes
  obtain rfl := hnumbers mades hmakings
  rw [hmakings] at hnotes
  have hall := hnoted.trans hmore
  obtain ⟨shown, hshown, hkept, hpage, hpreview⟩ := hall.ready.mayPreview options.preview
    ⟨deck.name, deck.noteType.css, config.appearance⟩ (renderedReport deck mades).cards
  obtain ⟨after, hwrite, hafter, hresult, hmetrics, herrors, hshownPage⟩ := hshown.writeResults
    (describe jobId deck options clock.begun) ⟨clock.begun, (renderedReport deck mades).tally⟩
    (renderedReport deck mades).cards clock.done
  refine ⟨after, ?_, ⟨hafter, hresult, hmetrics, ?_⟩, ?_⟩
  · refine (Action.outcome_bind_ok hcheck _).trans ((Action.outcome_bind_ok hnotes _).trans ?_)
    simp only [List.length_map, map_obj_members]
    exact (hpreview _).trans (Action.outcome_bind_ok hwrite _)
  · intro old hold
    rw [herrors, hkept _ (by decide), hall.errors old hold]
    rfl
  · -- the results are other files, so the page is still there
    intro hasked
    obtain ⟨page, hrender, hcontent⟩ := hpage hasked
    exact ⟨page, hrender, hshownPage.trans hcontent⟩

/-- **What a run does with a deck.**

It gives what the report of the deck gives. If it comes to an end, the files tell of the report; if
it fails, results and metrics are left as they were. -/
theorem renderDeck_outcome (options : Options) (deck : Deck) (jobId : String) (clock : Clock) :
    ∃ after,
      (renderDeck paths config options jobId clock renderer deck).outcome session
        = ((report config.policy deck).map fun report => ⟨clock.begun, report.tally⟩, after) ∧
      (∀ told, report config.policy deck = .ok told →
        Finished paths home session after (describe jobId deck options clock.begun) clock told) ∧
      (∀ failure, report config.policy deck = .error failure → Ready paths home after ∧
        ∀ file, file ≠ .errors → contents home after file = contents home session file) := by
  by_cases hreadable : deck.Readable config.policy
  · rw [report_readable hreadable]
    cases hmakings : deck.makings config.policy 0 deck.notes with
    | error failure =>
        obtain ⟨after, numbers, hrun, hnoted⟩ :=
          renderDeck_failed hready hrenderer hreadable hmakings
        refine ⟨after, hrun, ?_, fun _ _ => ⟨hnoted.ready, hnoted.others⟩⟩
        intro told htold
        cases htold
    | ok mades =>
        obtain ⟨after, hrun, hfinished, -⟩ :=
          renderDeck_rendered hready hrenderer hreadable hmakings
        refine ⟨after, hrun, ?_, ?_⟩
        · intro told htold
          cases htold
          exact hfinished
        · intro failure hfailure
          cases hfailure
  · obtain ⟨after, hrun, hfinished, -⟩ := renderDeck_unreadable hready hrenderer hreadable
    rw [report_unreadable hreadable]
    refine ⟨after, hrun, ?_, ?_⟩
    · intro told htold
      cases htold
      exact hfinished
    · intro failure hfailure
      cases hfailure

end

/-- A run reads its deck, and that is all it does before. -/
theorem outcome_run (hrenderer : config.renderer = .ok renderer)
    (hdeck : (Action.readDeck options.deckPath).outcome session = (.ok deck, session))
    (jobId : String) (clock : Clock) :
    (run paths config options jobId clock).outcome session
      = (renderDeck paths config options jobId clock renderer deck).outcome session :=
  (Action.outcome_bind_ok (Action.outcome_ofExcept_eq hrenderer) _).trans
    (Action.outcome_bind_ok hdeck _)

/-- So a run over a deck file does what is done with the deck. -/
theorem run_outcome (hready : Ready paths home session)
    (hrenderer : config.renderer = .ok renderer)
    (hdeck : (Action.readDeck options.deckPath).outcome session = (.ok deck, session))
    (jobId : String) (clock : Clock) :
    ∃ after,
      (run paths config options jobId clock).outcome session
        = ((report config.policy deck).map fun report => ⟨clock.begun, report.tally⟩, after) ∧
      (∀ told, report config.policy deck = .ok told →
        Finished paths home session after (describe jobId deck options clock.begun) clock told) ∧
      (∀ failure, report config.policy deck = .error failure → Ready paths home after ∧
        ∀ file, file ≠ .errors → contents home after file = contents home session file) := by
  rw [outcome_run hrenderer hdeck]
  exact renderDeck_outcome hready hrenderer options deck jobId clock

/-- There is a report unless a note fails by itself while all templates can be read. It is the first
such note that tells why. -/
theorem report_cases (policy : Policy) (deck : Deck) :
    (∃ told, report policy deck = .ok told ∧
      (deck.Readable policy → ∀ index note, deck.notes[index]? = some note →
        ∃ made, deck.making policy index note = .ok made)) ∨
    (∃ failure index note, report policy deck = .error failure ∧ deck.Readable policy ∧
      deck.notes[index]? = some note ∧ deck.making policy index note = .error failure ∧
      failure.IsTooLong ∧
      ∀ earlier before, earlier < index → deck.notes[earlier]? = some before →
        ∃ made, deck.making policy earlier before = .ok made) := by
  by_cases hreadable : deck.Readable policy
  · rw [report_readable hreadable]
    cases hmakings : deck.makings policy 0 deck.notes with
    | ok mades =>
        refine .inl ⟨_, rfl, ?_⟩
        intro _ index note hnote
        obtain ⟨made, hmade, -⟩ := Deck.makings_filter hmakings hnote
        rw [Nat.zero_add] at hmade
        exact ⟨made, hmade⟩
    | error failure =>
        obtain ⟨index, note, hnote, hmade, hearlier⟩ := Deck.makings_error hmakings
        simp only [Nat.zero_add] at hmade hearlier
        exact .inr ⟨failure, index, note, rfl, hreadable, hnote, hmade,
          Deck.making_failsOnly hreadable index note failure hmade, hearlier⟩
  · exact .inl ⟨_, report_unreadable hreadable, fun hread => absurd hread hreadable⟩

/-- **A numeral that is too long takes a run down.** One note of a cloze deck is enough, whatever
the others are. -/
theorem run_fails_of_long (hfresh : Fresh paths session)
    (hrenderer : config.renderer = .ok renderer)
    (hdeck : (Action.readDeck options.deckPath).outcome session = (.ok deck, session))
    (hreadable : deck.Readable config.policy) (hkind : deck.noteType.kind = .cloze)
    {front : Nodes} (hfront : parse config.policy deck.noteType.template.front = .ok front)
    {name : String} (hname : name ∈ front.clozeFields) {index : Nat} {note : Note}
    (hnote : deck.notes[index]? = some note) {gap : Cloze.Deletion}
    (hgap : Cloze.Part.deletion gap ∈ Cloze.parts (note.fields.value name).toList)
    (hlong : Numeral.digitLimit < gap.digits.length) :
    ∃ failure after, (run paths config options jobId clock).outcome session = (.error failure, after)
      ∧ failure.IsTooLong := by
  obtain ⟨home, hready, -⟩ := hfresh.ready
  obtain ⟨after, hrun, -, -⟩ := run_outcome hready hrenderer hdeck jobId clock
  obtain ⟨failure, hfails, -⟩ := Deck.making_fails hreadable hkind hfront hname hgap hlong index
  rcases report_cases config.policy deck with ⟨_, _, hall⟩ | ⟨failure, _, _, hreport, _, _, _, hlong, _⟩
  · obtain ⟨made, hmade⟩ := hall hreadable index note hnote
    rw [hmade] at hfails
    cases hfails
  · rw [hreport] at hrun
    exact ⟨failure, after, hrun, hlong⟩

end

/-! ## A job to look at -/

/-- The file of a cloze deck whose notes have these texts in the field that counts. -/
def sampleFile (texts : List String) : Content :=
  .bytes (((Value.obj [
    ("note_type", .obj [
      ("kind", .str "cloze"),
      ("templates", .arr [.obj [
        ("name", .str "C"), ("front", .str (shownTag "cloze:T")), ("back", .str "")]])]),
    ("notes", .arr (texts.map fun text => .obj [("fields", .obj [("T", .str text)])]))]).chars
      .oneLine 0).map fun c => UInt8.ofNat c.toNat)

/-- Two notes, the first of which makes two cards and the second none. -/
def sampleTexts : List String := [shownTag "c2::b" ++ shownTag "c1::a", "plain"]

def samplePaths : Paths := .inDirectory ⟨"", ["jobs", "J"]⟩

/-- The session after the directory of the job was made. -/
def sampleMade : Session :=
  ((create "." "J").outcome
    ⟨Tree.empty.put ["deck.json"] (.file (sampleFile sampleTexts)), "", []⟩).2

/-- The session after the files of the job were initialised. -/
def sampleSession : Session := ((initialise samplePaths "then").outcome sampleMade).2

/-- A configuration that has room for one template at a time. -/
def sampleConfig : Config where
  filters := Config.builtInFilters
  cache := [("max_entries", .int 1)]
  preview := Config.builtInPreview
  packages := Config.builtInPackages
  policy := .strict

def sampleOptions : Options := ⟨"deck.json", true⟩

def sampleClock : Clock := ⟨"then", "now", "later"⟩

def sampleDeck : Deck where
  name := "deck"
  noteType :=
    { name := "Basic", kind := .cloze, fields := []
      template := ⟨"C", shownTag "cloze:T", ""⟩, moreTemplates := [], css := "" }
  notes := sampleTexts.map fun text => ⟨[("T", text)], []⟩

theorem outcome_of_toOption {α : Type} {action : Action α} {x : α}
    (h : (action.outcome session).1.toOption = some x) :
    action.outcome session = (.ok x, (action.outcome session).2) := by
  rcases hrun : action.outcome session with ⟨outcome, after⟩
  rw [hrun] at h
  cases outcome with
  | ok y => rw [Option.some.inj h]
  | error failure => cases h

theorem fresh_sample : Fresh samplePaths sampleSession :=
  ⟨".", "J", "then", _, sampleMade, outcome_of_toOption (by decide +kernel),
    fun file => by cases file <;> decide +kernel, outcome_of_toOption (by decide +kernel)⟩

theorem readDeck_sample :
    (Action.readDeck sampleOptions.deckPath).outcome sampleSession
      = (.ok sampleDeck, sampleSession) := by
  have hread : ((Action.readDeck sampleOptions.deckPath).outcome sampleSession).1.toOption
      = some sampleDeck := by decide +kernel
  rw [outcome_of_toOption hread, Action.looks_readDeck]

theorem renderer_sample :
    sampleConfig.renderer = .ok ⟨.strict, some (Cache.empty 1)⟩ := rfl

/-- The tally of that run: two notes, two cards, and one note without deletions. -/
theorem returned_sample : ∃ after,
    (run samplePaths sampleConfig sampleOptions "J" sampleClock).outcome sampleSession
      = (.ok ⟨"now", ⟨2, 2, 0, 2, 0, 1⟩⟩, after) := by
  obtain ⟨home, hready, -⟩ := fresh_sample.ready
  obtain ⟨after, hrun, -⟩ := run_outcome hready renderer_sample readDeck_sample "J" sampleClock
  have htally : (report .strict sampleDeck).toOption.map Report.tally
      = some ⟨2, 2, 0, 2, 0, 1⟩ := by decide +kernel
  have hrun : (run samplePaths sampleConfig sampleOptions "J" sampleClock).outcome sampleSession
      = ((report .strict sampleDeck).map fun report => ⟨"now", report.tally⟩, after) := hrun
  refine ⟨after, ?_⟩
  cases hreport : report .strict sampleDeck with
  | error failure => rw [hreport] at htally; cases htally
  | ok told =>
      rw [hreport] at htally hrun
      have htally : told.tally = ⟨2, 2, 0, 2, 0, 1⟩ := Option.some.inj htally
      rw [hrun, ← htally]
      rfl

end Flashcards.Job
