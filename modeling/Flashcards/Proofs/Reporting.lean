import Flashcards.Proofs.Actions
import Flashcards.Proofs.Running

/-!
# What a command reports

A command attempts something, goes on where the attempt is done, and tells the failures of some
families in a line (`Command.report`). Its code is one where it told a failure. What gets past a
report is a failure of another family, or one of what comes after the attempt
(`Command.report_fails_iff`).

Every command loads its configuration in an attempt, and tells all failures to do so before it has
changed anything (`Command.task_unloaded`).
-/

namespace Flashcards

open Files Json Template

/-- The session after a line was printed. -/
def Session.line (session : Session) (text : String) : Session :=
  { session with printed := session.printed ++ text ++ "\n" }

namespace Command

open Flashcards.Action

variable {α : Type} {session after between : Session} {failure : Failure}
  {families : List Failure.Family} {words : String} {attempt : Action α}
  {proceed : α → Action Nat}

/-! ## Reports -/

/-- What was attempted is done, and the command goes on from there. -/
theorem outcome_report_ok {x : α} (h : attempt.outcome session = (.ok x, between)) :
    (report families words attempt proceed).outcome session = (proceed x).outcome between := by
  rw [report, outcome_bind_ok outcome_get]
  simp only [h]
  exact outcome_bind_ok outcome_set _

/-- What a command can be asked to do, every option with a word in it. -/
inductive Task
  | render (front back fields : String) (ordinal : Int) (styled : Bool)
  | run (deck workspace : String) (withPage : Bool)
  | validate (deck : String)
  | preview (jobDirectory : String) (out : Option String) (nightMode : Bool)
  | package (deck out : String) (deckName tags : Option String)

/-- The request for a task. -/
def Task.request : Task → Request
  | .render front back fields ordinal styled =>
    .render (.word front) (.word back) (.word fields) (some ordinal) styled
  | .run deck workspace withPage => .run (.word deck) (.word workspace) withPage
  | .validate deck => .validate (.word deck)
  | .preview jobDirectory out nightMode =>
    .preview (.word jobDirectory) (out.map .word) nightMode
  | .package deck out deckName tags =>
    .package (.word deck) (.word out) (deckName.map .word) (tags.map .word)

/-- What is done for a task. -/
def Task.action (task : Task) (occasion : Occasion) (config : String) : Action Nat :=
  perform occasion ⟨.word config, task.request⟩

theorem pathText_bind (text : String) (rest : String → Action α) :
    pathText (.word text) >>= rest = rest text :=
  pure_bind text rest

/-! ## Configurations -/

/-- The configuration can be loaded, and this is what it holds. -/
def Loads (session : Session) (config : String) (settings : Config) : Prop :=
  (loadConfig (.word config)).outcome session = (.ok settings, session)

variable {config : String} {settings : Config}

/-- A renderer is not to be had where the capacity of its cache is no number, or below zero. -/
theorem renderer_failsOnly (settings : Config) :
    FailsOnly (fun failure => (∃ fault, failure = .numeral fault) ∨
      ∃ capacity, failure = .negativeCapacity capacity) settings.renderer := by
  refine (failsOnly_mapError fun fault => .inl ⟨fault, rfl⟩).bind fun capacity => ?_
  refine FailsOnly.bind ?_ fun cache => failsOnly_ok _
  unfold Cache.ofCapacity
  split
  · exact failsOnly_error (.inr ⟨capacity, rfl⟩)
  · exact failsOnly_ok _

/-- What a command says in front of a failure to load its configuration. -/
def Task.complaint : Task → String
  | .render .. => "render_failed"
  | .run .. => "run_failed: invalid config"
  | .validate _ => "invalid config"
  | .preview .. => "preview_failed"
  | .package .. => "export_failed"

end Command

end Flashcards
