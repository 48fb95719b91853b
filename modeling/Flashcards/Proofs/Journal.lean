import Flashcards.Job.Basic
import Flashcards.Proofs.Places
import Flashcards.Proofs.Readback

/-!
# The files of a job

A job has four files in a directory of its own, and from the moment it is initialised each of them
can be written (`Fresh.ready`). A write changes what one of them holds and keeps the others
(`Ready.contents_write`), so what a run leaves behind can be told from the order of its writes.

What goes wrong is noted at the end of the error file. `Noted` says that a stretch of a run did
nothing to the files but that; stretches of this kind can be put one after the other. As no record
breaks the line it is written on, the lines of the file are the records (`lines_journal`).
-/

namespace Flashcards

open Files Json

/-! ## Actions step by step -/

namespace Action

variable {α β : Type} {session after : Session}

theorem outcome_bind_ok {first : Action α} {x : α} (h : first.outcome session = (.ok x, after))
    (rest : α → Action β) : (first >>= rest).outcome session = (rest x).outcome after := by
  simp only [outcome, ExceptT.run_bind, StateT.run_bind] at h ⊢
  rw [h]
  rfl

theorem outcome_bind_error {first : Action α} {failure : Failure}
    (h : first.outcome session = (.error failure, after)) (rest : α → Action β) :
    (first >>= rest).outcome session = (.error failure, after) := by
  simp only [outcome, ExceptT.run_bind, StateT.run_bind] at h ⊢
  rw [h]
  rfl

/-- An action in two parts succeeds if both of them do. -/
theorem outcome_bind_eq_ok {first : Action α} {rest : α → Action β} {y : β}
    (h : (first >>= rest).outcome session = (.ok y, after)) :
    ∃ x between, first.outcome session = (.ok x, between) ∧
      (rest x).outcome between = (.ok y, after) := by
  rcases hfirst : first.outcome session with ⟨outcome, between⟩
  cases outcome with
  | ok x =>
      rw [outcome_bind_ok hfirst] at h
      exact ⟨x, between, rfl, h⟩
  | error failure =>
      rw [outcome_bind_error hfirst] at h
      cases h

theorem outcome_get : (get : Action Session).outcome session = (.ok session, session) := rfl

theorem outcome_set : (set after : Action Unit).outcome session = (.ok (), after) := rfl

theorem outcome_changeFiles {change : Tree → Except Files.Fault Tree} {files : Tree}
    (h : change session.files = .ok files) :
    (changeFiles change).outcome session = (.ok (), { session with files }) := by
  rw [changeFiles, outcome_bind_ok outcome_get, h]
  rfl

theorem outcome_changeFiles_eq_ok {change : Tree → Except Files.Fault Tree}
    (h : (changeFiles change).outcome session = (.ok (), after)) :
    ∃ files, change session.files = .ok files ∧ after = { session with files } := by
  rw [changeFiles, outcome_bind_ok outcome_get] at h
  cases hchange : change session.files with
  | ok files =>
      rw [hchange] at h
      cases h
      exact ⟨files, rfl, rfl⟩
  | error fault =>
      rw [hchange] at h
      cases h

theorem outcome_ofExcept (result : Except Failure α) :
    (ofExcept result).outcome session = (result, session) := by
  cases result with
  | ok x => rfl
  | error failure => rfl

theorem outcome_ofExcept_eq {result other : Except Failure α} (h : result = other) :
    (ofExcept result).outcome session = (other, session) :=
  h ▸ outcome_ofExcept result

/-- An action that only looks at the session. -/
def Looks (action : Action α) : Prop := ∀ session, (action.outcome session).2 = session

theorem Looks.after_eq {action : Action α} (h : action.Looks) {outcome : Except Failure α}
    (hrun : action.outcome session = (outcome, after)) : after = session := by
  rw [← h session, hrun]

theorem looks_ofExcept (result : Except Failure α) : (ofExcept result).Looks := by
  intro session
  rw [outcome_ofExcept]

theorem Looks.bind {first : Action α} (h : first.Looks) {rest : α → Action β}
    (hrest : ∀ x, (rest x).Looks) : (first >>= rest).Looks := by
  intro session
  have hkept := h session
  rcases hfirst : first.outcome session with ⟨outcome, after⟩
  rw [hfirst] at hkept
  cases outcome with
  | ok x =>
      rw [outcome_bind_ok hfirst, hrest x]
      exact hkept
  | error failure =>
      rw [outcome_bind_error hfirst]
      exact hkept

theorem looks_readDeck (text : String) : (readDeck text).Looks := by
  have hfiles : files.Looks := fun _ => rfl
  refine hfiles.bind fun tree => ?_
  split
  · split
    · exact fun _ => rfl
    · exact fun _ => rfl
  · refine (looks_ofExcept _).bind fun chars => ?_
    refine (looks_ofExcept _).bind fun v => ?_
    exact looks_ofExcept _

end Action

/-- The session after a file was written at a place. -/
def Session.write (session : Session) (place : Location) (content : Content) : Session :=
  { session with files := session.files.put place (.file content) }

namespace Action

variable {session : Session} {path : Path} {place : Location}

theorem outcome_makeParent (h : session.files.isDirectory path.parent = true) :
    (makeParent path).outcome session = (.ok (), session) :=
  outcome_changeFiles (Tree.makeDirectories_of_isDirectory h)

theorem outcome_edit (h : session.files.Writable path place) (edit : Option Content → Content) :
    (changeFiles fun files => files.editFile path edit).outcome session
      = (.ok (), session.write place (edit (session.files.content? place))) :=
  outcome_changeFiles (h.editFile_eq edit)

theorem outcome_writeJson (h : session.files.Writable path place) (v : Value) :
    (writeJson path v).outcome session = (.ok (), session.write place (.text v.indented)) := by
  rw [writeJson, outcome_bind_ok (outcome_makeParent h.inDirectory)]
  exact outcome_edit h _

theorem outcome_appendJsonLine (h : session.files.Writable path place) (v : Value) :
    (appendJsonLine path v).outcome session
      = (.ok (), session.write place
          (Tree.Content.append (v.oneLine ++ "\n") (session.files.content? place))) := by
  rw [appendJsonLine, outcome_bind_ok (outcome_makeParent h.inDirectory)]
  exact outcome_edit h _

end Action

namespace Job

/-! ## Four files in a directory -/

/-- What a job writes. -/
inductive File
  | result
  | metrics
  | errors
  | preview
  deriving DecidableEq, Repr

def File.name : File → String
  | .result => "result.json"
  | .metrics => "metrics.json"
  | .errors => "errors.jsonl"
  | .preview => "preview.html"

/-- The path of a file of the job. -/
def Paths.file (paths : Paths) : File → Path
  | .result => paths.result
  | .metrics => paths.metrics
  | .errors => paths.errors
  | .preview => paths.preview

theorem File.name_injective {file other : File} (h : file.name = other.name) : file = other := by
  cases file <;> cases other <;> first | rfl | exact absurd h (by decide)

theorem File.fileName (file : File) : FileName file.name := by
  cases file <;> exact ⟨by decide, by decide, by decide, by decide, by decide, by decide⟩

/-- No name is longer than that of the metrics. -/
theorem File.size_le (file : File) : file.name.utf8ByteSize ≤ File.metrics.name.utf8ByteSize := by
  cases file <;> decide

theorem file_inDirectory (directory : Path) (file : File) :
    (Paths.inDirectory directory).file file = directory.join file.name := by
  cases file <;> rfl

/-- Every file of the job can be written, at the place of the directory with its name behind. -/
def Ready (paths : Paths) (home : Location) (session : Session) : Prop :=
  ∀ file, session.files.Writable (paths.file file) (home ++ [file.name])

/-- What a file of the job holds. -/
def contents (home : Location) (session : Session) (file : File) : Option Content :=
  session.files.content? (home ++ [file.name])

variable {paths : Paths} {home : Location} {session between after : Session} {file : File}

theorem Ready.write (h : Ready paths home session) (file : File) (content : Content) :
    Ready paths home (session.write (home ++ [file.name]) content) :=
  fun other => (h other).put (h file) content

/-- **A write changes what one file holds and keeps the others.** -/
theorem Ready.contents_write (h : Ready paths home session) (file : File) (content : Content)
    (other : File) :
    contents home (session.write (home ++ [file.name]) content) other
      = if file = other then some content else contents home session other := by
  have hplace : home ++ [file.name] = home ++ [other.name] ↔ file = other := by
    constructor
    · intro heq
      exact File.name_injective (by simpa using heq)
    · intro heq
      rw [heq]
  have hput := (h file).content?_put content (home ++ [other.name])
  simp only [hplace] at hput
  exact hput

theorem Ready.readContent (h : Ready paths home session) {content : Content}
    (hcontent : contents home session file = some content) :
    session.files.readContent (paths.file file).text = .ok content := by
  have hplace : session.files.content? (home ++ [file.name]) = some content := hcontent
  rw [(h file).readContent_eq, hplace]

/-- What a file still holds is still read from it. -/
theorem Ready.readContent_congr (h : Ready paths home session) (hlater : Ready paths home after)
    (hcontent : contents home after file = contents home session file) :
    after.files.readContent (paths.file file).text
      = session.files.readContent (paths.file file).text := by
  have hplace : after.files.content? (home ++ [file.name])
      = session.files.content? (home ++ [file.name]) := hcontent
  rw [(h file).readContent_eq, (hlater file).readContent_eq, hplace]

/-- A text was written to one file of the job, and nothing else was done to them. -/
structure Wrote (paths : Paths) (home : Location) (session after : Session) (file : File)
    (text : String) : Prop where
  ready : Ready paths home after
  here : contents home after file = some (.text text)
  others : ∀ other, other ≠ file → contents home after other = contents home session other

theorem Ready.wrote (h : Ready paths home session) (file : File) (text : String) :
    Wrote paths home session (session.write (home ++ [file.name]) (.text text)) file text where
  ready := h.write file _
  here := by rw [h.contents_write, if_pos rfl]
  others other hother := by rw [h.contents_write, if_neg (Ne.symm hother)]

theorem Ready.writeJson (h : Ready paths home session) (file : File) (v : Value) :
    ∃ after, (Action.writeJson (paths.file file) v).outcome session = (.ok (), after) ∧
      Wrote paths home session after file v.indented :=
  ⟨_, Action.outcome_writeJson (h file) v, h.wrote file _⟩

/-! ## Records of what went wrong -/

/-- What is noted about something that went wrong. -/
structure Record where
  noteIndex : Option Nat
  stage : String
  message : String
  deriving DecidableEq, Repr

/-- A record as data. -/
def Record.toValue (record : Record) : Value := .obj [
  ("note_index", record.noteIndex.elim .null fun index => .int index),
  ("stage", .str record.stage),
  ("message", .str record.message)]

/-- The line of a record. -/
def Record.line (record : Record) : String := record.toValue.oneLine

/-- What records look like in a file, each on a line of its own. -/
def journal (records : List Record) : String :=
  String.join (records.map fun record => record.line ++ "\n")

theorem journal_append (records more : List Record) :
    journal (records ++ more) = journal records ++ journal more := by
  rw [journal, List.map_append, String.join_append]
  rfl

/-- No line ends within the text. -/
def Unbroken (cs : List Char) : Prop := ∀ c ∈ cs, (c == '\n') = false

/-- **A record does not break its line.** -/
theorem Record.unbroken (record : Record) : Unbroken record.line.toList := by
  have hindex : Layout.oneLine.Spares (Value.chars .oneLine 1
      (record.noteIndex.elim .null fun index => .int index)) := by
    cases record.noteIndex <;> simp [Value.chars]
  have hspares : Layout.oneLine.Spares record.line.toList := by
    simp [Record.line, Record.toValue, Value.oneLine, Value.chars, memberChars, moreMembers, hindex]
  exact hspares.unbroken

/-- **The lines of the error file are the records.** Behind the last one the file ends. -/
theorem lines_journal (records : List Record) :
    Text.lines (journal records).toList = records.map (fun record => record.line.toList) ++ [[]] := by
  have hlines : ∀ line ∈ records.map Record.line, Unbroken line.toList := by
    intro line hline
    obtain ⟨record, -, rfl⟩ := List.mem_map.mp hline
    exact record.unbroken
  have hjoin := Text.lines_join hlines
  rw [List.map_map, List.map_map] at hjoin
  exact hjoin

/-- Nothing was done to the files of the job but that these records were noted. -/
structure Noted (paths : Paths) (home : Location) (session after : Session)
    (records : List Record) : Prop where
  ready : Ready paths home after
  errors : ∀ old, contents home session .errors = some (.text old) →
    contents home after .errors = some (.text (old ++ journal records))
  others : ∀ file, file ≠ .errors → contents home after file = contents home session file

theorem Ready.noted (h : Ready paths home session) : Noted paths home session session [] where
  ready := h
  errors old hold := by rw [hold, journal, List.map_nil, String.join_nil, String.append_empty]
  others _ _ := rfl

theorem Noted.trans {records more : List Record}
    (h : Noted paths home session between records) (hmore : Noted paths home between after more) :
    Noted paths home session after (records ++ more) where
  ready := hmore.ready
  errors old hold := by
    rw [hmore.errors _ (h.errors old hold), journal_append, String.append_assoc]
  others file hfile := (hmore.others file hfile).trans (h.others file hfile)

/-- A record goes to the end of the error file. -/
theorem Ready.recordError (h : Ready paths home session) (record : Record) :
    ∃ after, (recordError paths record.noteIndex record.stage record.message).outcome session
        = (.ok (), after) ∧ Noted paths home session after [record] := by
  have hrun := Action.outcome_appendJsonLine (h .errors) record.toValue
  refine ⟨_, hrun, h.write .errors _, ?_, ?_⟩
  · intro old hold
    have hline : journal [record] = record.line ++ "\n" := by simp [journal]
    have hcontent : session.files.content? (home ++ [File.errors.name]) = some (.text old) := hold
    rw [h.contents_write, if_pos rfl, hcontent, hline]
    rfl
  · intro file hfile
    rw [h.contents_write, if_neg (Ne.symm hfile)]

/-! ## A job that has just been made -/

/-- The job was made in a directory without files of a job, its files are initialised, and nothing
has happened since. -/
def Fresh (paths : Paths) (session : Session) : Prop :=
  ∃ workspace jobId time before made,
    (create workspace jobId).outcome before = (.ok paths, made) ∧
    (∀ file, made.files.entry? (paths.file file).text = none) ∧
    (initialise paths time).outcome made = (.ok (), session)

theorem create_ok {workspace jobId : String}
    (h : (create workspace jobId).outcome session = (.ok paths, after)) :
    ∃ directory : Path, paths = .inDirectory directory ∧ directory.Rooted ∧
      after.files.isDirectory directory = true := by
  obtain ⟨_, between, hmake, hpure⟩ := Action.outcome_bind_eq_ok h
  obtain ⟨files, hfiles, rfl⟩ := Action.outcome_changeFiles_eq_ok hmake
  cases hpure
  exact ⟨_, rfl, ((Path.rooted_ofText workspace).join "jobs").join jobId,
    Tree.isDirectory_of_makeDirectories hfiles⟩

theorem accepted_of_writeJson {path : Path} {v : Value}
    (h : (Action.writeJson path v).outcome session = (.ok (), after)) :
    Tree.Accepted path.text := by
  obtain ⟨_, between, -, hwrite⟩ := Action.outcome_bind_eq_ok h
  obtain ⟨files, hfiles, -⟩ := Action.outcome_changeFiles_eq_ok hwrite
  exact Tree.accepted_of_editFile hfiles

/-- In a directory where no directory stands in the place of a file of the job, each of them can be
written if the metrics can. -/
theorem ready_inDirectory {directory : Path} (hrooted : directory.Rooted)
    (hdir : session.files.isDirectory directory = true)
    (haccepted : Tree.Accepted ((Paths.inDirectory directory).metrics).text)
    (hfree : ∀ file,
      session.files.entry? ((Paths.inDirectory directory).file file).text ≠ some .directory) :
    ∃ home, Ready (.inDirectory directory) home session := by
  obtain ⟨home, hlocate, hhome⟩ := Tree.isDirectory_iff.mp hdir
  refine ⟨home, ?_⟩
  intro file
  have hfile : Tree.Accepted (directory.join file.name).text :=
    Tree.Accepted.join haccepted File.metrics.fileName file.fileName file.size_le
  have hplace := Tree.locate_join hrooted file.fileName hlocate hhome hfile
  have hnone : session.files.find? (home ++ [file.name]) ≠ some .directory := by
    have hentry := hfree file
    rw [file_inDirectory, Tree.entry?, hplace] at hentry
    exact hentry
  rw [file_inDirectory]
  exact .of_join hrooted file.fileName hlocate hhome hfile hnone

/-- The result of a job that has not run yet. -/
def unstartedResult : Value := .obj [("job", .obj []), ("cards", .arr [])]

/-- The metrics of a job that was initialised at a time and has not run yet. -/
def unstartedMetrics (begun : String) : Value := .obj (
  [("created_at", .str begun), ("finished", .bool false), ("completed_at", .null)]
    ++ (Tally.start 0).members ++ [("cards_by_template", .obj [])])

/-- An error file that is there is left as it is, and an empty one is made otherwise. -/
theorem Ready.touchErrors (h : Ready paths home session) :
    ∃ after, (Action.changeFiles fun files => files.touch paths.errors).outcome session
        = (.ok (), after) ∧
      Ready paths home after ∧
      contents home after .errors = some ((contents home session .errors).getD (.text "")) ∧
      ∀ file, file ≠ .errors → contents home after file = contents home session file := by
  cases hcontent : contents home session .errors with
  | none =>
      have hentry : session.files.entry? paths.errors.text = none :=
        (h .errors).nothing_iff.mpr hcontent
      have htouch : session.files.touch paths.errors = session.files.writeText paths.errors "" :=
        if_neg (by simp [hentry])
      refine ⟨_, Action.outcome_changeFiles (htouch.trans ((h .errors).editFile_eq _)),
        h.write .errors (.text ""), ?_, ?_⟩
      · exact (h.contents_write .errors (.text "") .errors).trans (if_pos rfl)
      · exact fun file hfile =>
          (h.contents_write .errors (.text "") file).trans (if_neg (Ne.symm hfile))
  | some content =>
      have hentry : session.files.entry? paths.errors.text ≠ none := by
        intro hnone
        have hnothing : contents home session .errors = none := (h .errors).nothing_iff.mp hnone
        rw [hcontent] at hnothing
        cases hnothing
      have htouch : session.files.touch paths.errors = .ok session.files :=
        if_pos (Option.isSome_iff_ne_none.mpr hentry)
      exact ⟨_, Action.outcome_changeFiles htouch, h, hcontent, fun _ _ => rfl⟩

/-- Where the files of a job can be written, they are there once it is initialised. -/
theorem Ready.initialise (h : Ready paths home session) (begun : String) :
    ∃ after, (initialise paths begun).outcome session = (.ok (), after) ∧
      Ready paths home after ∧
      contents home after .result = some (.text unstartedResult.indented) ∧
      contents home after .metrics = some (.text (unstartedMetrics begun).indented) ∧
      contents home after .errors = some ((contents home session .errors).getD (.text "")) := by
  obtain ⟨started, hresult, hstarted⟩ := h.writeJson .result unstartedResult
  obtain ⟨counted, hmetrics, hcounted⟩ :=
    hstarted.ready.writeJson .metrics (unstartedMetrics begun)
  obtain ⟨after, htouch, hafter, herrors, hothers⟩ := hcounted.ready.touchErrors
  have herrorsBefore : contents home counted .errors = contents home session .errors := by
    rw [hcounted.others _ (by decide), hstarted.others _ (by decide)]
  refine ⟨after, ?_, hafter, ?_, ?_, by rw [herrors, herrorsBefore]⟩
  · refine (Action.outcome_bind_ok hresult _).trans ?_
    refine (Action.outcome_bind_ok hmetrics _).trans ?_
    refine (Action.outcome_bind_ok
      (Action.outcome_makeParent (hcounted.ready .errors).inDirectory) _).trans ?_
    exact htouch
  · rw [hothers _ (by decide), hcounted.others _ (by decide), hstarted.here]
  · rw [hothers _ (by decide), hcounted.here]

/-- Whatever its directory held before, every file of a job that was made and initialised can be
written, unless a directory stands in its place. -/
theorem ready_of_initialise {workspace jobId begun : String} {before made : Session}
    (hcreate : (create workspace jobId).outcome before = (.ok paths, made))
    (hfree : ∀ file, made.files.entry? (paths.file file).text ≠ some .directory)
    (hinitialise : (Job.initialise paths begun).outcome made = (.ok (), session)) :
    ∃ home, Ready paths home made ∧ Ready paths home session ∧
      contents home session .result = some (.text unstartedResult.indented) ∧
      contents home session .metrics = some (.text (unstartedMetrics begun).indented) ∧
      contents home session .errors = some ((contents home made .errors).getD (.text "")) := by
  obtain ⟨directory, rfl, hrooted, hdir⟩ := create_ok hcreate
  -- The metrics were written, so the path of no file is too long.
  obtain ⟨_, started, -, hrest⟩ := Action.outcome_bind_eq_ok hinitialise
  obtain ⟨_, counted, hmetrics, -⟩ := Action.outcome_bind_eq_ok hrest
  obtain ⟨home, hready⟩ := ready_inDirectory hrooted hdir (accepted_of_writeJson hmetrics) hfree
  obtain ⟨after, hrun, hafter⟩ := hready.initialise begun
  have heq : after = session := by
    rw [hrun] at hinitialise
    exact (Prod.mk.inj hinitialise).2
  exact ⟨home, hready, heq ▸ hafter⟩

/-- **Every file of a job that has just been made can be written**, and no error is noted. -/
theorem Fresh.ready (h : Fresh paths session) :
    ∃ home, Ready paths home session ∧ contents home session .errors = some (.text "") := by
  obtain ⟨workspace, jobId, time, before, made, hcreate, hnew, hinitialise⟩ := h
  obtain ⟨home, hmade, hready, -, -, herrors⟩ := ready_of_initialise hcreate
    (fun file => by simp [hnew file]) hinitialise
  have hnone : contents home made .errors = none := (hmade .errors).nothing_iff.mp (hnew .errors)
  rw [hnone] at herrors
  exact ⟨home, hready, herrors⟩

end Job

end Flashcards
