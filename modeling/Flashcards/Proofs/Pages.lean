import Flashcards.Proofs.Escapes
import Flashcards.Proofs.Identities
import Flashcards.Proofs.Masking
import Flashcards.Proofs.Rereading
import Flashcards.Proofs.Stored

/-!
# The page of a run and the page of its result

A page with the cards of a job is written twice: by the run itself, from what it has at hand, and
later on request, from the result that the run has stored. The name of the deck and the cards reach
the later page through the text of the result. Nothing is lost on this way: the numbers in a card
are those of a note and of a deletion, both short enough to be read again (`Job.storable_report`),
so the result is read as it was written (`Command.readsResult_of_content`).

The styles of the note type are not in the result. A page shows its style sheet as it is, and styles
make a sheet longer, so wherever there are some the two pages differ (`Preview.render_eq_iff`). That
is all in which they can differ (`Command.preview_after_run`).
-/

namespace Flashcards

open Files Json Template

/-! ## A page shows its style sheet -/

namespace Style

theorem length_intercalate_concat (sheets : List String) (sheet : String) :
    ("\n".intercalate (sheets ++ [sheet])).length
      = ("\n".intercalate sheets).length + (if sheets = [] then 0 else 1) + sheet.length := by
  cases sheets with
  | nil => simp
  | cons first rest =>
      have hbreak : "\n".length = 1 := rfl
      rw [String.intercalate_append_of_ne_nil (List.cons_ne_nil _ _) (List.cons_ne_nil _ _)]
      simp [hbreak]

/-- A longer sheet makes the sheet of the page longer. -/
theorem length_css_lt (appearance : Appearance) {sheet longer : String}
    (h : sheet.length < longer.length) :
    (css { appearance with css := sheet }).length
      < (css { appearance with css := longer }).length := by
  have hlonger : longer ≠ "" := by
    rintro rfl
    cases h
  unfold css
  generalize (if appearance.defaultStyles then [defaultSheet] else [])
    ++ (if appearance.nightMode then [nightSheet] else []) = sheets
  dsimp only
  rw [if_neg hlonger, length_intercalate_concat]
  by_cases hsheet : sheet = ""
  · rw [if_pos hsheet, List.append_nil]
    omega
  · rw [if_neg hsheet, length_intercalate_concat]
    omega

end Style

namespace Preview

/-- The styles of a note type are part of the style sheet of its page. -/
theorem css_eq_iff {page : Page} :
    ({ page with noteCss := "" } : Page).css = page.css ↔ page.noteCss = "" := by
  constructor
  · intro heq
    by_contra hne
    have hnote : 0 < page.noteCss.length := by
      rw [Nat.pos_iff_ne_zero, ne_eq, String.length_eq_zero_iff]
      exact hne
    have hlonger : ("\n".intercalate (["", page.appearance.css].filter (· ≠ ""))).length
        < ("\n".intercalate ([page.noteCss, page.appearance.css].filter (· ≠ ""))).length := by
      by_cases hcss : page.appearance.css = "" <;> simp [hne, hcss] <;> omega
    -- equal sheets would have the same length
    have hlt := Style.length_css_lt page.appearance hlonger
    have hsame : Style.css _ = Style.css _ := heq
    rw [hsame] at hlt
    exact Nat.lt_irrefl _ hlt
  · intro hnone
    obtain ⟨title, noteCss, appearance⟩ := page
    cases hnone
    rfl

/-- A page shows its style sheet, so two pages that differ in nothing else are equal only if their
style sheets are. -/
theorem render_eq_iff {page : Page} {cards : List Value} {text again : String}
    (htext : page.render cards = .ok text)
    (hagain : ({ page with noteCss := "" } : Page).render cards = .ok again) :
    again = text ↔ page.noteCss = "" := by
  unfold Page.render at htext hagain
  cases hblocks : cardBlocks page.appearance.nightMode cards with
  | error fault => rw [hblocks] at htext; cases htext
  | ok blocks =>
      -- the title and the cards are the same, which leaves the two sheets
      simp only [hblocks, bind, Except.bind, Except.ok.injEq] at htext hagain
      rw [← htext, ← hagain, ← css_eq_iff]
      simp only [String.intercalate_cons_cons, String.append_right_inj, String.append_left_inj]

end Preview

/-! ## What a result keeps -/

namespace Numeral

/-- A number below the limit can be stored. -/
theorem storable_natCast {n : Nat} (h : n < 10 ^ digitLimit) : (Value.int n).Storable := by
  refine .int _ ?_
  rw [Int.natAbs_natCast]
  exact (Nat.length_toDigits_le_iff (by decide) (by decide)).mpr h

end Numeral

namespace Cloze

theorem Deletion.ordinal_lt {gap : Deletion} {n : Nat} (hdigits : Numeral.Written gap.digits)
    (h : gap.ordinal = .ok n) : n < 10 ^ Numeral.digitLimit := by
  have hvalue := Numeral.value_lt hdigits.digit
  unfold ordinal Numeral.ofDigits at h
  split at h
  · cases h
  · rename_i hfits
    cases h
    exact hvalue.trans_le (Nat.pow_le_pow_right (by decide) (Nat.le_of_not_lt hfits))

theorem spansFrom_ordinal_lt {start : Nat} {ps : List Part} {found : List Span}
    (h : spansFrom start ps = .ok found)
    (hparts : ∀ gap, Part.deletion gap ∈ ps → Numeral.Written gap.digits) :
    ∀ span ∈ found, span.ordinal < 10 ^ Numeral.digitLimit := by
  induction ps generalizing start found with
  | nil => cases h; simp
  | cons part rest ih =>
      have hrest := fun gap hgap => hparts gap (List.mem_cons_of_mem part hgap)
      cases part with
      | plain c => exact ih h hrest
      | deletion gap =>
          obtain ⟨ordinal, hordinal, h⟩ := bind_eq_ok h
          obtain ⟨more, hmore, h⟩ := bind_eq_ok h
          cases h
          refine List.forall_mem_cons.mpr ⟨?_, ih hmore hrest⟩
          exact Deletion.ordinal_lt (hparts gap (List.mem_cons_self ..)) hordinal

/-- A number that is read from a value has no more digits than the limit allows. -/
theorem ordinals_lt {value : String} {numbers : List Nat} (h : ordinals value = .ok numbers) :
    ∀ n ∈ numbers, n < 10 ^ Numeral.digitLimit := by
  unfold ordinals at h
  cases hspans : spans value with
  | error fault => rw [hspans] at h; cases h
  | ok found =>
      rw [hspans] at h
      cases h
      intro n hn
      obtain ⟨span, hspan, rfl⟩ := List.mem_map.mp (mem_sortOrdinals.mp hn)
      exact spansFrom_ordinal_lt hspans (fun _ => written_of_mem_parts) span hspan

end Cloze

namespace Deck

variable {deck : Deck} {policy : Policy} {index : Nat} {note : Note}

theorem noteOrdinals_lt {names : List String} {numbers : List Nat}
    (h : noteOrdinals note names = .ok numbers) : ∀ n ∈ numbers, n < 10 ^ Numeral.digitLimit := by
  induction names generalizing numbers with
  | nil => cases h; simp
  | cons name rest ih =>
      obtain ⟨found, hfound, h⟩ := bind_eq_ok h
      obtain ⟨more, hmore, h⟩ := bind_eq_ok h
      cases h
      intro n hn
      rcases List.mem_append.mp (Cloze.mem_sortOrdinals.mp hn) with hhere | hlater
      · exact Cloze.ordinals_lt hfound n hhere
      · exact ih hmore n hlater

/-- The number of a card is that of a deletion, or zero. -/
theorem making_ordinal_lt {made : NoteCards} (h : deck.making policy index note = .ok made) :
    ∀ card ∈ made.cards, card.ordinal < 10 ^ Numeral.digitLimit := by
  cases hkind : deck.noteType.kind with
  | standard =>
      intro card hcard
      rw [(making_carried h).ordinal hkind card hcard]
      exact Nat.pow_pos (by decide)
  | cloze =>
      obtain ⟨front, -, numbers, hnumbers, cards, hcards, rfl⟩ :=
        (making_cloze_ok_iff hkind).mp h
      -- the cards are numbered by the deletions that were found
      intro card hcard
      refine noteOrdinals_lt hnumbers _ ?_
      rw [← ClozeCard.ordinals_eq hcards]
      exact List.mem_map_of_mem hcard

/-- Cards carry the number of a note that there is. -/
theorem makings_numbered_lt {notes : List Note} {mades : List NoteCards}
    (h : deck.makings policy index notes = .ok mades) :
    ∀ card ∈ mades.flatMap NoteCards.cards, card.noteIndex < index + notes.length := by
  induction notes generalizing index mades with
  | nil => cases h; simp
  | cons note rest ih =>
      obtain ⟨made, more, hmade, hmore, rfl⟩ := makings_cons_ok h
      rw [List.flatMap_cons, List.length_cons]
      refine List.forall_mem_append.mpr ⟨fun card hcard => ?_, fun card hcard => ?_⟩
      · rw [(making_balanced hmade).numbered card hcard]
        omega
      · have := ih hmore card hcard
        omega

end Deck

/-- The numbers in a card can be stored. -/
theorem Card.storable_toValue {card : Card} (hindex : card.noteIndex < 10 ^ Numeral.digitLimit)
    (hordinal : card.ordinal < 10 ^ Numeral.digitLimit) : card.toValue.Storable := by
  simp [toValue, members, Value.ofStrings, Bindings.keys, Numeral.storable_natCast hindex,
    Numeral.storable_natCast hordinal]

namespace Job

variable {deck : Deck} {cards : List Card}

theorem storable_resultValue (jobId begun done : String) (deck : Deck) (options : Options)
    (h : ∀ card ∈ cards, card.toValue.Storable) :
    (resultValue (describe jobId deck options begun) cards done).Storable := by
  simpa [resultValue, describe, Bindings.keys] using h

/-- The cards of a report can be stored, unless there are more notes than there are numbers that can
be read again. -/
theorem storable_report {policy : Policy} {mades : List NoteCards}
    (h : deck.makings policy 0 deck.notes = .ok mades)
    (hnotes : deck.notes.length ≤ 10 ^ Numeral.digitLimit) :
    ∀ card ∈ (renderedReport deck mades).cards, card.toValue.Storable := by
  rw [renderedReport_eq]
  intro card hcard
  have hindex := Deck.makings_numbered_lt h card hcard
  rw [Nat.zero_add] at hindex
  have hordinal := Deck.makings_forall h
    (fun _ _ _ hmade => Deck.making_ordinal_lt hmade) card hcard
  exact Card.storable_toValue (hindex.trans_le hnotes) hordinal

end Job

namespace Command

open Flashcards.Action Flashcards.Job

variable {paths : Paths} {home : Location} {session after later : Session} {settings : Config}
  {options : Options} {deck : Deck} {cards : List Card} {metrics : Metrics}
  {made jobId config directory : String} {clock : Clock}

/-! ## The page from a result -/

/-- A deck that is read has a name. -/
theorem name_ne_of_reads {path : String} (h : Reads session path deck) : deck.name ≠ "" := by
  obtain ⟨tree, opened, -, h⟩ := outcome_bind_eq_ok h
  split at h
  · -- no deck comes from a file that cannot be opened
    split at h <;> cases h
  · obtain ⟨chars, _, -, h⟩ := outcome_bind_eq_ok h
    obtain ⟨v, _, -, h⟩ := outcome_bind_eq_ok h
    obtain ⟨h, -⟩ := outcome_mapError_ok_iff.mp h
    exact (Deck.normal_of_ofValue h).named

/-- The name of the deck and the cards are found in the result. -/
theorem resultParts_resultValue (jobId begun done : String) (deck : Deck) (options : Options)
    (cards : List Card) :
    resultParts (resultValue (describe jobId deck options begun) cards done)
      = .ok (.str deck.name, cards.map Card.toValue) :=
  rfl

theorem filter_isObject (cards : List Card) :
    (cards.map Card.toValue).filter isObject = cards.map Card.toValue := by
  rw [List.filter_eq_self]
  intro value hvalue
  obtain ⟨card, -, rfl⟩ := List.mem_map.mp hvalue
  rfl

theorem pageOf_str {name : String} (h : name ≠ "") :
    pageOf settings (.str name) false = ⟨name, "", settings.appearance⟩ := by
  simp [pageOf, Value.isGiven, Value.text, h]

/-- A value that is stored as a result is read from there. -/
theorem readsResult_of_content {v : Value} (hv : v.Storable)
    (h : session.files.readContent ((Path.ofText directory).join "result.json").text
      = .ok (.text v.indented)) : ReadsResult session directory v := by
  have hchars : v.indented.toList = v.chars .indented 0 := String.toList_ofList
  have hreturn : ∀ c ∈ v.indented.toList, c ≠ '\r' := hchars ▸ (hv.spares .indented 0).ne_return
  refine outcome_readJson (Tree.readText_eq h ((Content.Spells.text _).chars hreturn)) ?_
  rw [hchars, hv.read_chars]

/-- Writes a page of cards and tells where it is. -/
def showPage (path : Path) (page : Preview.Page) (cards : List Card) : Action Nat := do
  Job.writePreview path page (cards.map Card.toValue)
  Action.printLine s!"cards={cards.length}"
  Action.printLine path.text
  pure 0

/-- **A preview shows the cards of the result under the name of the deck**, with the styles of the
configuration alone. -/
theorem preview_outcome (hload : Loads session config settings)
    (hresult : ReadsResult session directory
      (resultValue (describe jobId deck options clock.begun) cards clock.done))
    (hname : deck.name ≠ "") (out : Option String) :
    (preview (.word config) (.word directory) (out.map .word) false).outcome session
      = (showPage (pagePath directory out) ⟨deck.name, "", settings.appearance⟩ cards).outcome
          session := by
  unfold preview
  rw [pathText_bind]
  refine (outcome_report_ok ((outcome_bind_ok hload _).trans (outcome_bind_ok hresult _))).trans ?_
  have hparts : (ofExcept ((resultParts (resultValue (describe jobId deck options clock.begun) cards
      clock.done)).mapError .shape)).outcome session
        = (.ok (.str deck.name, cards.map Card.toValue), session) :=
    outcome_mapError_ok_iff.mpr ⟨resultParts_resultValue jobId _ _ deck options cards, rfl⟩
  refine (outcome_bind_ok hparts _).trans ?_
  -- what is done with the parts of the result, told with the names for its page and its place
  show (do
    Job.writePreview (pagePath directory out) (pageOf settings (.str deck.name) false)
      ((cards.map Card.toValue).filter isObject)
    Action.printLine s!"cards={(cards.map Card.toValue).length}"
    Action.printLine (pagePath directory out).text
    pure 0 : Action Nat).outcome session = _
  rw [pageOf_str hname, filter_isObject, List.length_map]
  rfl

/-- So it does whenever the result is what a job has stored. -/
theorem preview_of_stored (hload : Loads later config settings)
    (hstored : later.files.readContent ((Path.ofText directory).join "result.json").text
      = .ok (.text
        (resultValue (describe jobId deck options clock.begun) cards clock.done).indented))
    (hcards : ∀ card ∈ cards, card.toValue.Storable) (hname : deck.name ≠ "")
    (out : Option String) :
    (preview (.word config) (.word directory) (out.map .word) false).outcome later
      = (showPage (pagePath directory out) ⟨deck.name, "", settings.appearance⟩ cards).outcome
          later :=
  preview_outcome hload (readsResult_of_content
    (storable_resultValue jobId clock.begun clock.done deck options hcards) hstored) hname out

theorem outcome_showPage (h : Ready paths home session) (page : Preview.Page)
    (cards : List Card) :
    ∃ after text, page.render (cards.map Card.toValue) = .ok text ∧
      (showPage paths.preview page cards).outcome session = (.ok 0, after) ∧
      after.files.readContent paths.preview.text = .ok (.text text) := by
  obtain ⟨written, text, htext, hwrite, hwrote⟩ := h.writePreview page cards
  have hread : written.files.readContent (paths.file .preview).text = .ok (.text text) :=
    hwrote.ready.readContent hwrote.here
  -- only lines are printed behind the page
  exact ⟨_, text, htext, outcome_bind_ok hwrite _, hread⟩

/-! ## Two pages -/

/-- Two pages of the same cards: that of the run, and one that is made from its result. -/
structure TwoPages (settings : Config) (deck : Deck) (cards : List Card) (page again : String) :
    Prop where
  first : Preview.Page.render ⟨deck.name, deck.noteType.css, settings.appearance⟩
    (cards.map Card.toValue) = .ok page
  second : Preview.Page.render ⟨deck.name, "", settings.appearance⟩ (cards.map Card.toValue)
    = .ok again
  same_iff : again = page ↔ deck.noteType.css = ""

theorem twoPages_of_render (cards : List Card) {page : String}
    (h : Preview.Page.render ⟨deck.name, deck.noteType.css, settings.appearance⟩
      (cards.map Card.toValue) = .ok page) : ∃ again, TwoPages settings deck cards page again := by
  obtain ⟨again, hagain⟩ := render_cards ⟨deck.name, "", settings.appearance⟩ cards
  exact ⟨again, h, hagain, Preview.render_eq_iff h hagain⟩

/-- The files of a job are in its directory. -/
theorem inDirectory_of_begun (h : Begun paths made session) :
    paths = .inDirectory paths.directory := by
  obtain ⟨workspace, jobId, before, empty, hcreate, -⟩ := h
  obtain ⟨directory, rfl, -⟩ := create_ok hcreate
  rfl

section

variable (hready : Ready paths home session) (hread : Reads session options.deckPath deck)
  (hrun : (Job.run paths settings options jobId clock).outcome session = (.ok metrics, after))

include hready hread hrun

/-- Where all templates can be read, a run that was asked for a page has written it, beside the
result that it was made with. -/
theorem page_of_run (hasked : options.preview = true) (hreadable : deck.Readable settings.policy) :
    ∃ mades page, deck.makings settings.policy 0 deck.notes = .ok mades ∧
      Finished paths home session after (describe jobId deck options clock.begun) clock
        (renderedReport deck mades) ∧
      Preview.Page.render ⟨deck.name, deck.noteType.css, settings.appearance⟩
        ((renderedReport deck mades).cards.map Card.toValue) = .ok page ∧
      contents home after .preview = some (.text page) := by
  obtain ⟨renderer, _, hrenderer, -⟩ := outcome_bind_eq_ok hrun
  rw [outcome_ofExcept] at hrenderer
  have hrenderer := congrArg Prod.fst hrenderer
  rw [outcome_run hrenderer hread] at hrun
  cases hmakings : deck.makings settings.policy 0 deck.notes with
  | error failure =>
      -- the note that fails would have ended the run
      obtain ⟨_, _, hfailed, -⟩ := renderDeck_failed hready hrenderer hreadable hmakings
      rw [hfailed] at hrun
      cases hrun
  | ok mades =>
      obtain ⟨last, hdone, hfinished, hpage⟩ :=
        renderDeck_rendered hready hrenderer hreadable hmakings
      rw [hdone] at hrun
      cases hrun
      obtain ⟨page, hrender, hcontent⟩ := hpage hasked
      exact ⟨mades, page, rfl, hfinished, hrender, hcontent⟩

/-- Where a template cannot be read, a run writes no page, asked or not. -/
theorem no_page_of_run (hunreadable : ¬ deck.Readable settings.policy) :
    after.files.readContent paths.preview.text
      = session.files.readContent paths.preview.text := by
  obtain ⟨renderer, _, hrenderer, -⟩ := outcome_bind_eq_ok hrun
  rw [outcome_ofExcept] at hrenderer
  have hrenderer := congrArg Prod.fst hrenderer
  obtain ⟨last, hdone, hfinished, hkept⟩ := renderDeck_unreadable hready hrenderer hunreadable
  rw [outcome_run hrenderer hread, hdone] at hrun
  cases hrun
  have hsame := hready.readContent_congr hfinished.ready hkept
  exact hsame

end

/--
**The page of a run and the page of its result.**

A run that was asked for a page shows all cards of the deck under its name, with the styles of the
note type and of the configuration. The page that is made later from the result shows the same cards
under the same name, with the styles of the configuration. It does so for every configuration file
with these settings, wherever the page goes and whatever else has happened, as long as the result is
what it was; if nothing is said about the place, the page of the run is replaced. The two are the
same exactly if the note type has no styles of its own.

Where a template cannot be read, the run writes no page.
-/
theorem preview_after_run (hbegun : Begun paths made session)
    (hread : Reads session options.deckPath deck)
    (hrun : (Job.run paths settings options jobId clock).outcome session = (.ok metrics, after))
    (hasked : options.preview = true) (hnotes : deck.notes.length ≤ 10 ^ Numeral.digitLimit)
    (hplace : Path.ofText directory = paths.directory) :
    (deck.Readable settings.policy → ∃ cards page again,
      AllCards settings.policy deck cards ∧ TwoPages settings deck cards page again ∧
      after.files.readContent paths.preview.text = .ok (.text page) ∧
      (∀ config, Loads after config settings → ∃ final,
        (preview (.word config) (.word directory) none false).outcome after = (.ok 0, final) ∧
        final.files.readContent paths.preview.text = .ok (.text again)) ∧
      ∀ later config out, Loads later config settings →
        later.files.readContent paths.result.text = after.files.readContent paths.result.text →
        (preview (.word config) (.word directory) (out.map .word) false).outcome later
          = (showPage (pagePath directory out) ⟨deck.name, "", settings.appearance⟩
            cards).outcome later) ∧
    (¬ deck.Readable settings.policy →
      after.files.readContent paths.preview.text
        = session.files.readContent paths.preview.text) := by
  -- so the paths of the command are those of the job
  obtain rfl := (inDirectory_of_begun hbegun).trans (congrArg Paths.inDirectory hplace.symm)
  obtain ⟨home, hready, -, -⟩ := hbegun.ready
  refine ⟨fun hreadable => ?_, no_page_of_run hready hread hrun⟩
  obtain ⟨mades, page, hmakings, hfinished, hrender, hpage⟩ :=
    page_of_run hready hread hrun hasked hreadable
  have hreport : Job.report settings.policy deck = .ok (renderedReport deck mades) := by
    rw [report_readable hreadable, hmakings]
    rfl
  have hall := (report_allCards hreport).1
  have hstorable := storable_report hmakings hnotes
  obtain ⟨again, hpages⟩ := twoPages_of_render _ hrender
  have hstored := hfinished.ready.readContent hfinished.result
  have hname := name_ne_of_reads hread
  have hshown := hfinished.ready.readContent hpage
  refine ⟨(renderedReport deck mades).cards, page, again, hall, hpages, hshown, ?_, ?_⟩
  · intro config hload
    obtain ⟨final, text, htext, hwrite, hfinal⟩ := outcome_showPage hfinished.ready
      ⟨deck.name, "", settings.appearance⟩ (renderedReport deck mades).cards
    obtain rfl := Except.ok.inj (hpages.second.symm.trans htext)
    have hcommand := preview_of_stored hload hstored hstorable hname none
    exact ⟨final, hcommand.trans hwrite, hfinal⟩
  · intro later config out hload hsame
    exact preview_of_stored hload (hsame.trans hstored) hstorable hname out

/-! ## A deck with a style sheet -/

/-- Where there is no file for it, the configuration is the built-in one. -/
theorem loads_of_missing (h : session.files.contains (Path.ofText config) = .ok false)
    (hsettings : Config.ofMembers [] = .ok settings) : Loads session config settings := by
  unfold Loads loadConfig
  rw [pathText_bind]
  have hfiles : Action.files.outcome session = (.ok session.files, session) := rfl
  have hcontains : (ofExcept ((session.files.contains (Path.ofText config)).mapError
      Failure.file)).outcome session = (.ok false, session) :=
    outcome_mapError_ok_iff.mpr ⟨h, rfl⟩
  refine (outcome_bind_ok hfiles _).trans ((outcome_bind_ok hcontains _).trans ?_)
  exact outcome_ofExcept_eq hsettings

/-- Nothing is below the null device, whatever else there is. -/
theorem contains_below_null (tree : Tree) :
    tree.contains (Path.ofText "/dev/null/none.json") = .ok false := by
  have htext : (Path.ofText "/dev/null/none.json").text = "/dev/null/none.json" := by
    decide +kernel
  have hnames : Text.splitAt '/' "/dev/null/none.json" = ["", "dev", "null", "none.json"] := by
    decide +kernel
  rw [Tree.contains, htext, Tree.locate, hnames]
  rfl

/-- A deck with one card, whose note type has a style sheet. -/
def styledDeck : Deck where
  name := "deck"
  noteType :=
    { name := "Basic", kind := .standard, fields := []
      template := ⟨"Card 1", "Q", "A"⟩, moreTemplates := []
      css := ".card \x7b color: red; \x7d" }
  notes := [⟨[], []⟩]

/-- The file of this deck. -/
def styledFile : Content := fileOf (.obj [
  ("note_type", .obj [
    ("templates", .arr [.obj [("front", .str "Q"), ("back", .str "A")]]),
    ("css", .str styledDeck.noteType.css)]),
  ("notes", .arr [.obj []])])

/-- The session after the directory of the job was made. -/
def styledMade : Session :=
  ((create "." "J").outcome ⟨Tree.empty.put ["deck.json"] (.file styledFile), "", []⟩).2

/-- The session after the files of the job were initialised. -/
def styledSession : Session := ((initialise samplePaths "then").outcome styledMade).2

def builtInSettings : Config where
  filters := Config.builtInFilters
  cache := Config.builtInCache
  preview := Config.builtInPreview
  packages := Config.builtInPackages
  policy := .lenient

theorem begun_styled : Begun samplePaths "then" styledSession :=
  ⟨".", "J", _, styledMade, outcome_of_toOption (by decide +kernel),
    fun file => by cases file <;> decide +kernel, outcome_of_toOption (by decide +kernel)⟩

theorem reads_styled : Reads styledSession sampleOptions.deckPath styledDeck := by
  have hread : ((Action.readDeck sampleOptions.deckPath).outcome styledSession).1.toOption
      = some styledDeck := by decide +kernel
  rw [Reads, outcome_of_toOption hread, Action.looks_readDeck]

theorem readable_styled : styledDeck.Readable .lenient :=
  templateFaults_eq_nil.mp (by decide +kernel)

theorem returned_styled : ∃ metrics after,
    (Job.run samplePaths builtInSettings sampleOptions "J" sampleClock).outcome styledSession
      = (.ok metrics, after) := by
  obtain ⟨home, hready, -⟩ := begun_styled.ready
  have hrenderer : builtInSettings.renderer = .ok ⟨.lenient, some (Cache.empty 256)⟩ := rfl
  have hsome : (styledDeck.makings .lenient 0 styledDeck.notes).toOption.isSome = true := by
    decide +kernel
  cases hmakings : styledDeck.makings .lenient 0 styledDeck.notes with
  | error failure =>
      rw [hmakings] at hsome
      cases hsome
  | ok mades =>
      obtain ⟨after, hrun, -⟩ := renderDeck_rendered hready hrenderer readable_styled hmakings
      exact ⟨_, after, (outcome_run hrenderer reads_styled _ _).trans hrun⟩

/-- The page of the run has a style sheet that is lost to the page of the result. -/
theorem preview_after_run_styled : ∃ metrics after final page again,
    (Job.run samplePaths builtInSettings sampleOptions "J" sampleClock).outcome styledSession
      = (.ok metrics, after) ∧
    (preview (.word "/dev/null/none.json") (.word "jobs/J") none false).outcome after
      = (.ok 0, final) ∧
    after.files.readContent samplePaths.preview.text = .ok (.text page) ∧
    final.files.readContent samplePaths.preview.text = .ok (.text again) ∧ again ≠ page := by
  obtain ⟨metrics, after, hrun⟩ := returned_styled
  have hdirectory : Path.ofText "jobs/J" = samplePaths.directory := by decide +kernel
  obtain ⟨hpages, -⟩ := preview_after_run begun_styled reads_styled hrun rfl
    (Nat.one_le_pow _ _ (by decide)) hdirectory
  obtain ⟨cards, page, again, -, hboth, hpage, hcommand, -⟩ := hpages readable_styled
  have hload : Loads after "/dev/null/none.json" builtInSettings :=
    loads_of_missing (contains_below_null after.files) rfl
  obtain ⟨final, hpreview, hagain⟩ := hcommand _ hload
  refine ⟨metrics, after, final, page, again, hrun, hpreview, hpage, hagain, ?_⟩
  rw [ne_eq, hboth.same_iff]
  decide

end Command

end Flashcards
