import Flashcards.Proofs.Finishing
import Flashcards.Proofs.Operations
import Flashcards.Proofs.Packing
import Flashcards.Proofs.Problems
import Flashcards.Proofs.Reporting

/-!
# What gets past a command

For every command, the failures it passes on are found by going through its parts: those of an
attempt are told where its report names their family, and what comes after a report is told by
nobody. What is left comes from the data in the files the command reads (`Command.Escapes`):

* a capacity of the cache that is none, which a run passes on in any case, and the rendering of a
  card where it is of a kind nobody allowed for;
* a number in a deletion that is too long, when a deck is validated or run;
* a result, or tags in it or in the configuration, of a shape that was not looked at.

This is said of data that write characters only (`Files.Tree.Paired`, `Command.Task.Paired`). JSON also
allows half of a surrogate pair; nothing is claimed of what a command does with that.

A run that passes on a failure to make its renderer has made its job before
(`Command.run_unusable`).
-/

namespace Flashcards

open Files Json Template

namespace Command

open Flashcards.Action

variable {session after between begun : Session} {failure : Failure} {config : String}
  {settings : Config} {occasion : Occasion}

/-! ## Rendering a card -/

/-- The text that an option stands for writes no half of a surrogate pair. -/
def PairedOption (session : Session) (word : String) : Prop :=
  ∀ text, (textOf (.word word)).outcome session = (.ok text, session) → Json.Paired text.toList

/-- The deck file can be read, and this is the deck in it. -/
def Reads (session : Session) (path : String) (deck : Deck) : Prop :=
  (Action.readDeck path).outcome session = (.ok deck, session)

/-- The files of the job of an occasion. -/
def jobPaths (occasion : Occasion) (workspace : String) : Job.Paths :=
  .inDirectory (((Path.ofText workspace).join "jobs").join occasion.jobId)

/-- The job of an occasion can be made in a workspace, and this is the session after its files were
initialised. No directory stands in the place of one of them. -/
def Makes (occasion : Occasion) (session : Session) (workspace : String) (begun : Session) : Prop :=
  ∃ made,
    (Job.create workspace occasion.jobId).outcome session
      = (.ok (jobPaths occasion workspace), made) ∧
    (∀ file, made.files.entry? ((jobPaths occasion workspace).file file).text
      ≠ some .directory) ∧
    (Job.initialise (jobPaths occasion workspace) occasion.clock.made).outcome made = (.ok (), begun)

theorem Makes.unique {workspace : String} {other : Session}
    (h : Makes occasion session workspace begun) (hother : Makes occasion session workspace other) :
    begun = other := by
  obtain ⟨made, hcreate, -, hinitialise⟩ := h
  obtain ⟨again, hagain, -, hlater⟩ := hother
  obtain rfl := (Prod.mk.inj (hcreate.symm.trans hagain)).2
  exact (Prod.mk.inj (hinitialise.symm.trans hlater)).2

/-- A run over a deck fails over a numeral, and in no other way. -/
theorem isTooLong_of_report {policy : Policy} {deck : Deck}
    (h : Job.report policy deck = .error failure) : failure.IsTooLong := by
  rcases Job.report_cases policy deck with ⟨told, hok, -⟩ | ⟨other, _, _, herror, -, -, -, hlong, -⟩
  · rw [h] at hok
    cases hok
  · rwa [Except.error.inj (h.symm.trans herror)]

/-- The result of the job in a directory can be read, and this is what it holds. -/
def ReadsResult (session : Session) (jobDirectory : String) (result : Value) : Prop :=
  (readJson ((Path.ofText jobDirectory).join "result.json").text).outcome session
    = (.ok result, session)

/-- The file for the preview of a job. -/
def pagePath (jobDirectory : String) (out : Option String) : Path :=
  match (out.map Operand.word).bind Operand.word? with
  | some text => Path.ofText text
  | none => (Path.ofText jobDirectory).join "preview.html"

/-- The page for the preview of a job over a deck of this name. -/
def pageOf (settings : Config) (deckName : Value) (nightMode : Bool) : Preview.Page where
  title := if deckName.isGiven then deckName.text else "Card Preview"
  noteCss := ""
  appearance :=
    { settings.appearance with nightMode := nightMode || settings.appearance.nightMode }

theorem textsFrom_failsOnly (index : Nat) (items : List Value) :
    FailsOnly (· ≠ .loneSurrogate) (Value.textsFrom index items) := by
  induction items generalizing index with
  | nil => exact failsOnly_ok []
  | cons item rest ih =>
      cases item with
      | str s => exact (ih (index + 1)).map _
      | null | bool | int | float | arr | obj => exact failsOnly_error (by simp)

theorem items_failsOnly (v : Value) : FailsOnly (· ≠ .loneSurrogate) v.items := by
  unfold Value.items
  split
  · exact failsOnly_ok _
  · exact failsOnly_error (by simp)

theorem tagsText_failsOnly (card : Settings) :
    FailsOnly (· ≠ .loneSurrogate) (Preview.tagsText card) := by
  unfold Preview.tagsText Value.joined
  dsimp only
  split
  · split
    · exact (textsFrom_failsOnly 0 _).map _
    · exact failsOnly_error (by simp)
  · exact failsOnly_ok ""

theorem cardBlocks_failsOnly (nightMode : Bool) (cards : List Value) :
    FailsOnly (· ≠ .loneSurrogate) (Preview.cardBlocks nightMode cards) := by
  induction cards with
  | nil => exact failsOnly_ok []
  | cons card rest ih =>
      cases card with
      | obj card =>
          refine FailsOnly.bind ?_ fun block => ih.bind fun more => failsOnly_ok _
          refine FailsOnly.bind ?_ fun about => failsOnly_ok _
          exact (tagsText_failsOnly card).bind fun tags => failsOnly_ok _
      | null | bool | int | float | str | arr => exact failsOnly_error (by simp)

theorem resultParts_failsOnly (result : Value) :
    FailsOnly (· ≠ .loneSurrogate) (resultParts result) := by
  unfold resultParts
  split
  · refine (items_failsOnly _).bind fun cards => ?_
    split
    · exact failsOnly_ok _
    · exact failsOnly_error (by simp)
  · exact failsOnly_ok _

theorem tagsFrom_failsOnly (items : List Value) :
    FailsOnly (· ≠ .loneSurrogate) (Package.tagsFrom items) := by
  induction items with
  | nil => exact failsOnly_ok []
  | cons item rest ih =>
      cases item with
      | str s => exact ih.bind fun more => failsOnly_ok _
      | null | bool | int | float | arr | obj => exact failsOnly_error (by simp)

theorem tagsOf_failsOnly (given : Value) :
    FailsOnly (· ≠ .loneSurrogate) (Package.tagsOf given) := by
  unfold Package.tagsOf
  split
  · exact failsOnly_ok []
  · split
    · exact tagsFrom_failsOnly _
    · exact (items_failsOnly _).bind tagsFrom_failsOnly

/-! ## What gets past a command -/

/-- The failures that a command passes on. Each comes from a file that the command reads. -/
inductive Escapes (occasion : Occasion) (session : Session) (config : String) :
    Task → Failure → Prop
  /-- The capacity of the cache is of a kind nobody allowed for. -/
  | capacity {front back fields : String} {ordinal : Int} {styled : Bool} {settings : Config}
      {failure : Failure} (hload : Loads session config settings)
      (hrenderer : settings.renderer = .error failure) (hfamily : failure.family = .unforeseen) :
      Escapes occasion session config (.render front back fields ordinal styled) failure
  /-- The capacity of the cache is no number, or one below zero. -/
  | renderer {path workspace : String} {withPage : Bool} {settings : Config} {failure : Failure}
      (hload : Loads session config settings) (hrenderer : settings.renderer = .error failure) :
      Escapes occasion session config (.run path workspace withPage) failure
  /-- A note of the deck fails. -/
  | note {path workspace : String} {withPage : Bool} {settings : Config} {renderer : Renderer}
      {begun : Session} {deck : Deck} {failure : Failure} (hload : Loads session config settings)
      (hrenderer : settings.renderer = .ok renderer)
      (hmakes : Makes occasion session workspace begun) (hread : Reads begun path deck)
      (hreport : Job.report settings.policy deck = .error failure) :
      Escapes occasion session config (.run path workspace withPage) failure
  /-- The number of a deletion is too long. -/
  | number {path : String} {settings : Config} {deck : Deck} {fault : Numeral.Fault}
      (hload : Loads session config settings) (hread : Reads session path deck)
      (hproblems : deck.problems settings.policy = .error fault) :
      Escapes occasion session config (.validate path) (.numeral fault)
  /-- The result of a job is of another shape. -/
  | result {jobDirectory : String} {out : Option String} {nightMode : Bool} {settings : Config}
      {result : Value} {fault : ShapeFault} (hload : Loads session config settings)
      (hread : ReadsResult session jobDirectory result)
      (hparts : resultParts result = .error fault) :
      Escapes occasion session config (.preview jobDirectory out nightMode) (.shape fault)
  /-- The tags of a card in the result are of another shape. -/
  | cards {jobDirectory : String} {out : Option String} {nightMode : Bool} {settings : Config}
      {result deckName : Value} {cards : List Value} {between : Session} {fault : ShapeFault}
      (hload : Loads session config settings) (hread : ReadsResult session jobDirectory result)
      (hparts : resultParts result = .ok (deckName, cards))
      (hplace : (makeParent (pagePath jobDirectory out)).outcome session = (.ok (), between))
      (hpage : (pageOf settings deckName nightMode).render (cards.filter isObject) = .error fault) :
      Escapes occasion session config (.preview jobDirectory out nightMode) (.shape fault)
  /-- The page has no place among the files. -/
  | place {jobDirectory : String} {out : Option String} {nightMode : Bool} {settings : Config}
      {result deckName : Value} {cards : List Value} {fault : Files.Fault}
      (hload : Loads session config settings) (hread : ReadsResult session jobDirectory result)
      (hparts : resultParts result = .ok (deckName, cards))
      (hwrite : (Job.writePreview (pagePath jobDirectory out) (pageOf settings deckName nightMode)
        (cards.filter isObject)).Fails session (.file fault)) :
      Escapes occasion session config (.preview jobDirectory out nightMode) (.file fault)
  /-- The tags in the configuration are of another shape. -/
  | tags {path out : String} {deckName : Option String} {settings : Config} {deck : Deck}
      {fault : ShapeFault} (hload : Loads session config settings)
      (hread : Reads session path deck) (hreadable : deck.Readable settings.policy)
      (htags : Package.tagsOf (Value.memberOr settings.packages "tags" .null) = .error fault) :
      Escapes occasion session config (.package path out deckName none) (.shape fault)

/-- What gets past a command is a number, a capacity or the shape of a value, or the place of a page.
It is never a file that cannot be read, text that is no data, a deck, or a template. -/
theorem Escapes.cause {task : Task} (h : Escapes occasion session config task failure) :
    (∃ fault, failure = .numeral fault) ∨ (∃ capacity, failure = .negativeCapacity capacity) ∨
      (∃ fault, failure = .shape fault ∧ fault ≠ .loneSurrogate) ∨
      ∃ fault jobDirectory out nightMode, failure = .file fault ∧
        task = .preview jobDirectory out nightMode := by
  cases h with
  | capacity hload hrenderer hfamily =>
      exact (renderer_failsOnly _ failure hrenderer).imp_right .inl
  | renderer hload hrenderer => exact (renderer_failsOnly _ failure hrenderer).imp_right .inl
  | note hload hrenderer hmakes hread hreport =>
      obtain ⟨digits, rfl, -⟩ := isTooLong_of_report hreport
      exact .inl ⟨_, rfl⟩
  | number hload hread hproblems => exact .inl ⟨_, rfl⟩
  | result hload hread hparts =>
      exact .inr (.inr (.inl ⟨_, rfl, resultParts_failsOnly _ _ hparts⟩))
  | cards hload hread hparts hplace hpage =>
      have hshape := (cardBlocks_failsOnly _ _).bind (fun blocks => failsOnly_ok _) _ hpage
      exact .inr (.inr (.inl ⟨_, rfl, hshape⟩))
  | place hload hread hparts hwrite => exact .inr (.inr (.inr ⟨_, _, _, _, rfl, rfl⟩))
  | tags hload hread hreadable htags =>
      exact .inr (.inr (.inl ⟨_, rfl, tagsOf_failsOnly _ _ htags⟩))

/-- The JSON texts that a task reads write no half of a surrogate pair. -/
def Task.Paired (occasion : Occasion) (session : Session) : Task → Prop
  | .render _ _ fields _ _ => PairedOption session fields
  | .run path workspace _ => ∀ begun, Makes occasion session workspace begun →
      begun.files.Paired (Path.ofText path).text
  | .validate path => session.files.Paired (Path.ofText path).text
  | .preview jobDirectory _ _ =>
      session.files.Paired ((Path.ofText jobDirectory).join "result.json").text
  | .package path _ _ _ => session.files.Paired (Path.ofText path).text

/-- A file with a value in it. -/
def fileOf (v : Value) : Content :=
  .bytes ((v.chars .oneLine 0).map fun c => UInt8.ofNat c.toNat)

end Command

end Flashcards
