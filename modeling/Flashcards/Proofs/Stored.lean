import Flashcards.Proofs.Decoding
import Flashcards.Proofs.Journal
import Flashcards.Proofs.Readback

/-!
# What is stored is read again

A value is written to a file of its own, or added to a file on a line of its own. Either way the
directory of the file is made first, which adds directories and leaves the files alone
(`Grown.of_makeDirectories`). From then on the path leads to one place, and what a file holds is
followed there.

Three things could come between the text of a value and the reader: line ends that become others,
characters that end a line where none should end, and blanks that are trimmed. None of them does,
as no control character stands in the text of a value, and both of its ends are marks. So reading
the file comes down to reading the text, which `Storable.read_chars` is about.
-/

namespace Flashcards

open Files Json

/-! ## The text of a value in a file -/

/-- No line end is changed in a text without carriage returns. -/
theorem Text.unifyLineEnds_eq_self {cs : List Char} (h : ∀ c ∈ cs, c ≠ '\r') :
    Text.unifyLineEnds cs = cs := by
  induction cs with
  | nil => rfl
  | cons c cs ih =>
      obtain ⟨hc, hcs⟩ := List.forall_mem_cons.mp h
      rw [Text.unifyLineEnds.eq_4 _ _ (by simp [hc]) (by simp [hc]), ih hcs]

namespace Json

variable {v : Value} {values : List Value}

/-- Nothing is trimmed off the text of a value. -/
theorem Value.Storable.trim_chars (h : v.Storable) (layout : Layout) :
    Text.trim (v.chars layout 0) = v.chars layout 0 := by
  obtain ⟨first, more, hcons, hfirst, -⟩ := h.begins layout 0
  obtain ⟨front, last, hconcat, hlast⟩ := h.ends layout 0
  refine Text.trim_eq_self_iff.mpr ⟨?_, ?_⟩
  · intro c hc
    rw [hcons] at hc
    cases hc
    exact hfirst.not_isBlank
  · intro c hc
    rw [hconcat, List.getLast?_concat] at hc
    cases hc
    exact hlast.not_isBlank

/-- Values, each on a line of its own. -/
def linesOf (values : List Value) : String := String.join (values.map fun v => v.oneLine ++ "\n")

theorem linesOf_cons (v : Value) (values : List Value) :
    linesOf (v :: values) = v.oneLine ++ "\n" ++ linesOf values := by
  rw [linesOf, List.map_cons, String.join_cons]
  rfl

/-- **There is one line for each value**, in order, and nothing behind the last. -/
theorem lines_linesOf (h : ∀ v ∈ values, v.Storable) :
    Text.lines (linesOf values).toList = values.map (fun v => v.oneLine.toList) ++ [[]] := by
  have hlines : ∀ line ∈ values.map Value.oneLine, ∀ c ∈ line.toList, (c == '\n') = false := by
    intro line hline
    obtain ⟨v, hv, rfl⟩ := List.mem_map.mp hline
    rw [Value.oneLine, String.toList_ofList]
    exact ((h v hv).spares .oneLine 0).unbroken
  have hjoin := Text.lines_join hlines
  rw [List.map_map, List.map_map] at hjoin
  exact hjoin

theorem linesOf_ne_return (h : ∀ v ∈ values, v.Storable) :
    ∀ c ∈ (linesOf values).toList, c ≠ '\r' := by
  induction values with
  | nil =>
      intro c hc
      cases hc
  | cons v values ih =>
      obtain ⟨hv, hvalues⟩ := List.forall_mem_cons.mp h
      intro c hc
      rw [linesOf_cons, String.toList_append, String.toList_append, Value.oneLine,
        String.toList_ofList] at hc
      rcases List.mem_append.mp hc with hline | hmore
      · rcases List.mem_append.mp hline with hchar | hbreak
        · exact (hv.spares .oneLine 0).ne_return c hchar
        · rw [List.mem_singleton.mp hbreak]
          decide
      · exact ih hvalues c hmore

end Json

/-- The values are read from the lines that were written for them. -/
theorem Action.valuesOfLines_eq {values : List Value} (h : ∀ v ∈ values, v.Storable) :
    Action.valuesOfLines (values.map (fun v => v.oneLine.toList) ++ [[]]) = .ok values := by
  induction values with
  | nil => rfl
  | cons v values ih =>
      obtain ⟨hv, hvalues⟩ := List.forall_mem_cons.mp h
      obtain ⟨first, more, hcons, -⟩ := hv.begins .oneLine 0
      have hline : v.oneLine.toList = v.chars .oneLine 0 := String.toList_ofList
      have hsome : ¬ v.chars .oneLine 0 = [] := by simp [hcons]
      rw [List.map_cons, List.cons_append, Action.valuesOfLines, hline, hv.trim_chars,
        if_neg hsome, hv.read_chars, ih hvalues]
      rfl

/-! ## Directories on the way -/

namespace Files.Tree

variable {tree between later made : Tree} {path : Path} {place : Location} {content : Content}

/-- Directories were added, and every file holds what it held. -/
structure Grown (tree later : Tree) : Prop where
  within : Within tree later
  contents : ∀ place, later.content? place = tree.content? place

theorem Grown.refl (tree : Tree) : Grown tree tree := ⟨fun _ h => h, fun _ => rfl⟩

theorem Grown.trans (h : Grown tree between) (hlater : Grown between later) : Grown tree later where
  within location hlocation := hlater.within location (h.within location hlocation)
  contents place := (hlater.contents place).trans (h.contents place)

theorem Grown.of_makeDirectory (h : tree.makeDirectory path = .ok later) : Grown tree later := by
  obtain ⟨location, hlocate, hfind, rfl⟩ := makeDirectory_eq_ok h
  have hfixed := fixed?_of_find? hfind
  refine ⟨Within.put (by simp [hfind]) hfixed _, fun place => ?_⟩
  unfold content?
  rw [find?_put hfixed]
  split_ifs with hplace
  · -- a directory holds nothing, and neither did what was not there
    rw [← hplace, hfind]
  · rfl

/-- **To make directories leaves every file alone.** -/
theorem Grown.of_makeDirectories (h : tree.makeDirectories path = .ok later) :
    Grown tree later := by
  fun_induction tree.makeDirectories path generalizing later with
  | case1 path made hmade =>
      cases h
      exact .of_makeDirectory hmade
  | case2 => cases h
  | case3 => cases h
  | case4 path shown hmissing hnames above habove made hmade ih =>
      cases h
      exact (ih habove).trans (.of_makeDirectory hmade)
  | case5 path shown hmissing hnames above habove fault hfault hthere ih =>
      cases h
      exact ih habove
  | case6 => cases h
  | case7 path fault hfault hother hthere =>
      cases h
      exact .refl tree
  | case8 => cases h

/-! ## Where a file was written -/

theorem eq_of_fixed?_file (h : fixed? place = some (.file content)) :
    place = ["/", "dev", "null"] := by
  unfold fixed? at h
  split_ifs at h with habove hdevice
  · cases h
  · exact hdevice

/-- A path that a file was written to leads to a place for files, unless to the null device. -/
theorem writable_of_editFile {edit : Option Content → Content}
    (hdir : tree.isDirectory path.parent = true) (h : tree.editFile path edit = .ok later)
    (hplace : later.locate path.text = .ok place) (hdevice : place ≠ ["/", "dev", "null"]) :
    tree.Writable path place := by
  obtain ⟨found, content, hlocate, hfind, rfl⟩ := editFile_eq_ok h
  -- the path still leads to where the file was put
  have hwithin : Within tree (tree.put found (.file content)) := by
    cases hfixed : fixed? found with
    | none => exact Within.put hfind hfixed _
    | some entry =>
        intro location hlocation
        rw [find?_put_of_fixed hfixed]
        exact hlocation
  obtain rfl : found = place := Except.ok.inj ((hwithin.locate hlocate).symm.trans hplace)
  refine ⟨hlocate, hdir, ?_, hfind⟩
  cases hfixed : fixed? found with
  | none => rfl
  | some entry =>
      cases entry with
      | directory => exact absurd (by rw [find?, hfixed]) hfind
      | file content => exact absurd (eq_of_fixed?_file hfixed) hdevice

theorem Writable.readContent (h : tree.Writable path place)
    (hcontent : tree.content? place = some content) :
    tree.readContent path.text = .ok content := by
  rw [h.readContent_eq, hcontent]

theorem readText_eq {text : String} {chars : List Char} (h : tree.readContent text = .ok content)
    (hchars : Content.chars content = .ok chars) : tree.readText text = .ok chars := by
  simp only [readText, h, Except.mapError, bind, Except.bind, hchars]

end Files.Tree

/-! ## What a file holds -/

namespace Files.Content

variable {content : Content} {s : String}

/-- There is nothing in the file. -/
def IsEmpty : Content → Prop
  | .text s => s = ""
  | .bytes stored => stored = []

/-- The file holds the text, as text or in bytes. -/
inductive Spells : Content → String → Prop
  | text (s : String) : Spells (.text s) s
  | bytes (s : String) : Spells (.bytes (Utf8.encode s)) s

theorem IsEmpty.spells (h : content.IsEmpty) : content.Spells "" := by
  cases content with
  | text s =>
      obtain rfl : s = "" := h
      exact .text ""
  | bytes stored =>
      have hencode : Utf8.encode "" = stored := by rw [Utf8.encode_eq, show stored = [] from h]; rfl
      exact hencode ▸ .bytes ""

/-- A text that is added at the end is held behind the other. -/
theorem Spells.append (h : content.Spells s) (added : String) :
    (Tree.Content.append added (some content)).Spells (s ++ added) := by
  cases h with
  | text s => exact .text (s ++ added)
  | bytes s =>
      have hencode : Utf8.encode s ++ Utf8.encode added = Utf8.encode (s ++ added) := by
        rw [Utf8.encode_eq, Utf8.encode_eq, Utf8.encode_eq, String.toList_append,
          List.flatMap_append]
      rw [Tree.Content.append, hencode]
      exact .bytes (s ++ added)

theorem Spells.chars (h : content.Spells s) (hs : ∀ c ∈ s.toList, c ≠ '\r') :
    Tree.Content.chars content = .ok s.toList := by
  have hlines := Text.unifyLineEnds_eq_self hs
  cases h with
  | text s => rw [Tree.Content.chars, hlines]
  | bytes s => rw [Tree.Content.chars, Utf8.decode_encode, Except.map, hlines]

end Files.Content

/-! ## Writing and reading -/

namespace Action

variable {session opened after : Session} {made : Tree} {path : Path} {place : Location}
  {content : Content} {s : String} {chars : List Char} {v w : Value} {values : List Value}

/-- The values are added one after the other. -/
def appendJsonLines (path : Path) : List Value → Action Unit
  | [] => pure ()
  | v :: rest => do
    appendJsonLine path v
    appendJsonLines path rest

/-- Once its directory is made, the path leads to a place for a file. -/
structure Opens (session : Session) (path : Path) (place : Location) (made : Tree) : Prop where
  makes : session.files.makeDirectories path.parent = .ok made
  writable : made.Writable path place

/-- Where one value was written, every other can be written, too. -/
theorem opens_of_writeJson (h : (writeJson path w).outcome session = (.ok (), opened))
    (hplace : opened.files.locate path.text = .ok place)
    (hdevice : place ≠ ["/", "dev", "null"]) : ∃ made, Opens session path place made := by
  obtain ⟨_, between, hparent, hwrite⟩ := outcome_bind_eq_ok h
  obtain ⟨made, hmade, rfl⟩ := outcome_changeFiles_eq_ok hparent
  obtain ⟨files, hfiles, rfl⟩ := outcome_changeFiles_eq_ok hwrite
  exact ⟨made, hmade, Tree.writable_of_editFile (Tree.isDirectory_of_makeDirectories hmade) hfiles
    hplace hdevice⟩

namespace Opens

theorem grown (h : Opens session path place made) : Tree.Grown session.files made :=
  .of_makeDirectories h.makes

theorem outcome_makeParent (h : Opens session path place made) :
    (makeParent path).outcome session = (.ok (), { session with files := made }) :=
  outcome_changeFiles h.makes

theorem outcome_writeJson (h : Opens session path place made) (v : Value) :
    ∃ after, (writeJson path v).outcome session = (.ok (), after) ∧
      after.files.Writable path place ∧
      after.files.content? place = some (.text v.indented) := by
  have hwritable : ({ session with files := made } : Session).files.Writable path place := h.writable
  refine ⟨_, (outcome_bind_ok h.outcome_makeParent _).trans (outcome_edit hwritable _),
    hwritable.put hwritable _, ?_⟩
  exact (hwritable.content?_put _ place).trans (if_pos rfl)

theorem outcome_appendJsonLine (h : Opens session path place made) (v : Value) :
    ∃ after, (appendJsonLine path v).outcome session = (.ok (), after) ∧
      after.files.Writable path place ∧
      after.files.content? place
        = some (Tree.Content.append (v.oneLine ++ "\n") (session.files.content? place)) := by
  have hwritable : ({ session with files := made } : Session).files.Writable path place := h.writable
  refine ⟨_, (outcome_bind_ok h.outcome_makeParent _).trans (outcome_edit hwritable _),
    hwritable.put hwritable _, ?_⟩
  rw [← h.grown.contents place]
  exact (hwritable.content?_put _ place).trans (if_pos rfl)

end Opens

/-- Values that are added to a file stand behind what it held, each on its line. -/
theorem outcome_appendJsonLines (h : session.files.Writable path place)
    (hcontent : session.files.content? place = some content) (hspells : content.Spells s)
    (values : List Value) :
    ∃ after held, (appendJsonLines path values).outcome session = (.ok (), after) ∧
      after.files.Writable path place ∧ after.files.content? place = some held ∧
      held.Spells (s ++ linesOf values) := by
  -- what the file holds is kept as the text it spells, which only grows
  induction values generalizing session content s with
  | nil =>
      refine ⟨session, content, rfl, h, hcontent, ?_⟩
      rw [linesOf, List.map_nil, String.join_nil, String.append_empty]
      exact hspells
  | cons v values ih =>
      have hfirst := outcome_appendJsonLine h v
      rw [hcontent] at hfirst
      let longer := Tree.Content.append (v.oneLine ++ "\n") (some content)
      have hkept : (session.write place longer).files.Writable path place := h.put h longer
      have hlonger : (session.write place longer).files.content? place = some longer :=
        (h.content?_put longer place).trans (if_pos rfl)
      obtain ⟨after, held, hrest, hwritable, hheld, hall⟩ := ih hkept hlonger (hspells.append _)
      rw [String.append_assoc, ← linesOf_cons] at hall
      exact ⟨after, held, (outcome_bind_ok hfirst _).trans hrest, hwritable, hheld, hall⟩

/-- Nothing is held at the place of a file that is not there, or that nothing is read from. -/
theorem Opens.isEmpty_of_unused (h : Opens session path place made)
    (hfile : session.files.content? place = none ∧ values ≠ [] ∨
      ∃ content, session.files.readContent path.text = .ok content ∧ content.IsEmpty) :
    ∀ content, session.files.content? place = some content → content.IsEmpty := by
  intro content hcontent
  obtain ⟨hnone, -⟩ | ⟨read, hread, hempty⟩ := hfile
  · rw [hnone] at hcontent
    cases hcontent
  · -- the path leads to one place, before its directory is made and after
    obtain ⟨found, hlocate, hfound⟩ := Tree.readContent_eq_ok hread
    have hmade := h.grown.within.locate hlocate
    obtain rfl : found = place := Except.ok.inj (hmade.symm.trans h.writable.located)
    obtain rfl : read = content := Option.some.inj (hfound.symm.trans hcontent)
    exact hempty

/-- The first value that is added to a new or an empty file begins it. -/
theorem Opens.outcome_appendJsonLines (h : Opens session path place made)
    (hfile : ∀ content, session.files.content? place = some content → content.IsEmpty)
    (v : Value) (values : List Value) :
    ∃ after held, (appendJsonLines path (v :: values)).outcome session = (.ok (), after) ∧
      after.files.Writable path place ∧ after.files.content? place = some held ∧
      held.Spells (linesOf (v :: values)) := by
  obtain ⟨between, hfirst, hwritable, hcontent⟩ := h.outcome_appendJsonLine v
  have hline : (Tree.Content.append (v.oneLine ++ "\n")
      (session.files.content? place)).Spells (v.oneLine ++ "\n") := by
    cases hheld : session.files.content? place with
    | none => exact .text _
    | some content =>
        have hadded := (hfile content hheld).spells.append (v.oneLine ++ "\n")
        rw [String.empty_append] at hadded
        exact hadded
  obtain ⟨after, held, hrest, hafter, hheld, hall⟩ :=
    Action.outcome_appendJsonLines hwritable hcontent hline values
  rw [← linesOf_cons] at hall
  exact ⟨after, held, (outcome_bind_ok hfirst _).trans hrest, hafter, hheld, hall⟩

theorem outcome_readJson (h : session.files.readText path.text = .ok chars)
    (hread : Json.read chars = .ok v) :
    (readJson path.text).outcome session = (.ok v, session) := by
  have htext : (readText path.text).outcome session = (.ok chars, session) :=
    outcome_ofExcept_eq h
  rw [readJson, outcome_bind_ok htext, hread]
  rfl

theorem outcome_readJsonLines (h : session.files.readText path.text = .ok chars)
    (hread : valuesOfLines (Text.lines chars) = .ok values) :
    (readJsonLines path.text).outcome session = (.ok values, session) := by
  have htext : (readText path.text).outcome session = (.ok chars, session) :=
    outcome_ofExcept_eq h
  rw [readJsonLines, outcome_bind_ok htext, hread]
  rfl

/-- The lines of a file that holds values are read as these. -/
theorem reads_linesOf (h : session.files.readContent path.text = .ok content)
    (hspells : content.Spells (linesOf values)) (hvalues : ∀ v ∈ values, v.Storable) :
    ∃ chars, session.files.readText path.text = .ok chars ∧
      Text.lines chars = values.map (fun v => v.oneLine.toList) ++ [[]] ∧
      (readJsonLines path.text).outcome session = (.ok values, session) := by
  have htext := Tree.readText_eq h (hspells.chars (linesOf_ne_return hvalues))
  have hlines := lines_linesOf hvalues
  refine ⟨_, htext, hlines, outcome_readJsonLines htext ?_⟩
  rw [hlines]
  exact valuesOfLines_eq hvalues

/-- **What is stored is read again.** Wherever any value can be written but to the null device, a
value that is written to a file is read from it, and values that are added one after the other to a
file that is new or empty are read from its lines, one from each of them and in order. -/
theorem stored_read_again (hopened : (writeJson path w).outcome session = (.ok (), opened))
    (hplace : opened.files.locate path.text = .ok place)
    (hdevice : place ≠ ["/", "dev", "null"]) :
    (∀ v, v.Storable → ∃ after, (writeJson path v).outcome session = (.ok (), after) ∧
        (readJson path.text).outcome after = (.ok v, after)) ∧
      ∀ values, (∀ v ∈ values, v.Storable) →
        (session.files.content? place = none ∧ values ≠ [] ∨
          ∃ content, session.files.readContent path.text = .ok content ∧ content.IsEmpty) →
        ∃ after chars, (appendJsonLines path values).outcome session = (.ok (), after) ∧
          after.files.readText path.text = .ok chars ∧
          Text.lines chars = values.map (fun v => v.oneLine.toList) ++ [[]] ∧
          (readJsonLines path.text).outcome after = (.ok values, after) := by
  obtain ⟨made, hopens⟩ := opens_of_writeJson hopened hplace hdevice
  constructor
  · intro v hv
    obtain ⟨after, hwrite, hwritable, hcontent⟩ := hopens.outcome_writeJson v
    have hchars : v.indented.toList = v.chars .indented 0 := String.toList_ofList
    have hreturn : ∀ c ∈ v.indented.toList, c ≠ '\r' :=
      hchars ▸ (hv.spares .indented 0).ne_return
    have htext :=
      Tree.readText_eq (hwritable.readContent hcontent) ((Content.Spells.text _).chars hreturn)
    refine ⟨after, hwrite, outcome_readJson htext ?_⟩
    rw [hchars, hv.read_chars]
  · intro values hvalues hfile
    have hempty := hopens.isEmpty_of_unused hfile
    cases values with
    | nil =>
        obtain ⟨-, hnil⟩ | ⟨content, hread, hcontent⟩ := hfile
        · exact absurd rfl hnil
        · have hspells : content.Spells (linesOf []) := hcontent.spells
          obtain ⟨chars, hlines⟩ := reads_linesOf hread hspells hvalues
          exact ⟨session, chars, rfl, hlines⟩
    | cons v values =>
        obtain ⟨after, held, hwrite, hwritable, hheld, hspells⟩ :=
          hopens.outcome_appendJsonLines hempty v values
        obtain ⟨chars, hlines⟩ := reads_linesOf (hwritable.readContent hheld) hspells hvalues
        exact ⟨after, chars, hwrite, hlines⟩

/-- A value with line ends, quotes and blanks where they could do harm. -/
def sampleValue : Value := .obj [
  ("b\r\n", .str " \"\\ \u2028 "),
  ("a", .arr [.null, .int (-7), .bool true, .obj []])]

theorem sampleValue_storable : sampleValue.Storable := by
  refine .obj _ (by decide) ?_
  simp only [List.mem_cons, List.not_mem_nil, or_false, forall_eq_or_imp, forall_eq]
  refine ⟨.str _, .arr _ ?_⟩
  simp only [List.mem_cons, List.not_mem_nil, or_false, forall_eq_or_imp, forall_eq]
  exact ⟨.null, .int _ (by decide), .bool _, .obj _ List.nodup_nil (by simp)⟩

/-- Where nothing is stored yet, the value is read again from a file of its own, and from the first
line of another with a line end on the second. -/
theorem stored_read_again_sample :
    (∃ after, (writeJson ⟨"", ["v.json"]⟩ sampleValue).outcome ⟨.empty, "", []⟩ = (.ok (), after) ∧
        (readJson "v.json").outcome after = (.ok sampleValue, after)) ∧
      ∃ after chars,
        (appendJsonLines ⟨"", ["v.json"]⟩ [sampleValue, .str "\n"]).outcome ⟨.empty, "", []⟩
          = (.ok (), after) ∧
        after.files.readText "v.json" = .ok chars ∧
        Text.lines chars = [sampleValue.oneLine.toList, "\"\\n\"".toList, []] ∧
        (readJsonLines "v.json").outcome after = (.ok [sampleValue, .str "\n"], after) := by
  have hwritable : Tree.empty.Writable ⟨"", ["v.json"]⟩ ["v.json"] :=
    ⟨rfl, by decide, by decide, by decide⟩
  have hopened : (writeJson ⟨"", ["v.json"]⟩ .null).outcome ⟨.empty, "", []⟩ = _ :=
    outcome_writeJson hwritable .null
  have hstored := stored_read_again hopened rfl (by decide)
  refine ⟨hstored.1 _ sampleValue_storable, ?_⟩
  exact hstored.2 [sampleValue, .str "\n"]
    (by simp [sampleValue_storable]) (.inl ⟨rfl, by simp⟩)

end Action

end Flashcards
