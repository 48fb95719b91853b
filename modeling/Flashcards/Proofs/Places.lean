import Flashcards.Files.Tree
import Flashcards.Proofs.Text

/-!
# Where files are

A path leads to a place in a tree, and what is written to a file stands at its place alone. Two facts
are needed to follow a program that writes several files of one directory, without looking at the
tree again after each of them.

* Writing files leaves directories what they are, and to find a place only directories are looked
  at. So a path that leads to a place keeps leading there (`Within.locate`).
* A file of a directory is at the place of the directory, with its name behind (`locate_join`). So
  files of different names are at different places.
-/

namespace Flashcards.Files

/-! ## Paths in a directory -/

/-- A name that can be that of a file: it leads into no other directory, and no device has it. -/
structure FileName (name : String) : Prop where
  nonempty : name ≠ ""
  notDots : name ≠ "." ∧ name ≠ ".."
  notDevice : name ≠ "dev" ∧ name ≠ "null"
  noSlash : name.toList.contains '/' = false
  noZero : name.toList.contains '\x00' = false
  fits : name.utf8ByteSize ≤ Tree.nameLimit

theorem FileName.not_slash {name : String} (h : FileName name) :
    ∀ c ∈ name.toList, (c == '/') = false := by
  intro c hc
  rw [beq_eq_false_iff_ne]
  intro heq
  have hslash := List.contains_iff_mem.mpr (heq ▸ hc)
  rw [h.noSlash] at hslash
  cases hslash

namespace Path

/-- The root of the path is one that a text can describe. -/
def Rooted (path : Path) : Prop := path.root = "" ∨ path.root = "/" ∨ path.root = "//"

theorem rootOf_cases (cs : List Char) : rootOf cs = "" ∨ rootOf cs = "/" ∨ rootOf cs = "//" := by
  unfold rootOf
  split
  · exact .inr (.inr rfl)
  · split
    · exact .inr (.inl rfl)
    · exact .inr (.inr rfl)
  · exact .inr (.inl rfl)
  · exact .inl rfl

theorem rooted_ofText (text : String) : (ofText text).Rooted := rootOf_cases text.toList

theorem Rooted.join {path : Path} (h : path.Rooted) (further : String) :
    (path.join further).Rooted := by
  by_cases hroot : (ofText further).root = ""
  · have heq : path.join further
        = { path with names := path.names ++ (ofText further).names } := if_pos hroot
    rw [heq]
    exact h
  · have heq : path.join further = ofText further := if_neg hroot
    rw [heq]
    exact rooted_ofText further

variable {name : String}

theorem splitAt_fileName (h : FileName name) : Text.splitAt '/' name = [name] := by
  rw [Text.splitAt, Text.pieces_eq_singleton h.not_slash, List.map_singleton, String.ofList_toList]

theorem splitAt_slash (front rest : String) :
    Text.splitAt '/' (front ++ "/" ++ rest) = Text.splitAt '/' front ++ Text.splitAt '/' rest := by
  have hchars : (front ++ "/" ++ rest).toList = front.toList ++ '/' :: rest.toList := by simp
  rw [Text.splitAt, Text.splitAt, Text.splitAt, hchars, Text.pieces_append_cons (by decide),
    List.map_append]

/-- A name leads to the file of that name. -/
theorem join_fileName (h : FileName name) (directory : Path) :
    directory.join name = { directory with names := directory.names ++ [name] } := by
  have hroot : rootOf name.toList = "" := by
    cases hchars : name.toList with
    | nil => rfl
    | cons c rest =>
        have hc : (c == '/') = false := h.not_slash c (by rw [hchars]; exact List.mem_cons_self ..)
        unfold rootOf
        split <;> simp_all
  have hother : ofText name = ⟨"", [name]⟩ := by
    rw [ofText, hroot, splitAt_fileName h]
    simp [h.nonempty, h.notDots.1]
  rw [join, hother]
  rfl

theorem parent_join (h : FileName name) (directory : Path) :
    (directory.join name).parent = directory := by
  rw [join_fileName h, parent]
  simp

/-- What the paths of all files of a directory begin with. -/
def lead (directory : Path) : String :=
  if directory.names = [] then directory.root
  else directory.root ++ "/".intercalate directory.names ++ "/"

theorem text_join (h : FileName name) (directory : Path) :
    (directory.join name).text = directory.lead ++ name := by
  rw [join_fileName h, text, lead]
  by_cases hnames : directory.names = []
  · simp [hnames]
  · have hjoined := String.intercalate_append_of_ne_nil (s := "/") hnames (List.cons_ne_nil name [])
    rw [if_neg (by simp), if_neg hnames]
    simp only [hjoined, String.intercalate_singleton, String.append_assoc]

end Path

namespace Tree

variable {tree later : Tree} {place home : Location}

/-! ## Texts and places -/

/-- A text that can be looked up at all. -/
structure Accepted (text : String) : Prop where
  noZero : text.toList.contains '\x00' = false
  fits : text.utf8ByteSize ≤ pathLimit

/-- In a directory that one file can be looked up in, so can any of no longer name. -/
theorem Accepted.join {directory : Path} {name other : String}
    (h : Accepted (directory.join name).text) (hname : FileName name) (hother : FileName other)
    (hsize : other.utf8ByteSize ≤ name.utf8ByteSize) : Accepted (directory.join other).text := by
  obtain ⟨hzero, hfits⟩ := h
  rw [Path.text_join hname] at hzero hfits
  rw [Path.text_join hother]
  have hlead : directory.lead.toList.contains '\x00' = false := by
    simp only [String.toList_append, List.contains_append, Bool.or_eq_false_iff] at hzero
    exact hzero.1
  refine ⟨?_, ?_⟩
  · rw [String.toList_append, List.contains_append, hlead, hother.noZero]
    rfl
  · rw [String.utf8ByteSize_append] at hfits ⊢
    omega

/-- Where the pieces of a text lead. -/
def follow (tree : Tree) : List String → Except Reason Location
  | [""] => .error .notFound
  | "" :: names => tree.walk ["/"] names
  | names => tree.walk [] names

theorem locate_of_accepted {text : String} (h : Accepted text) :
    tree.locate text = tree.follow (Text.splitAt '/' text) := by
  rw [locate, h.noZero, if_neg (by simp), if_neg (by have := h.fits; omega)]
  rfl

theorem accepted_of_locate {text : String} (h : tree.locate text = .ok place) : Accepted text := by
  unfold locate at h
  split at h
  · cases h
  · rename_i hzero
    split at h
    · cases h
    · rename_i hsize
      exact ⟨by simpa using hzero, by omega⟩

theorem walk_append (location : Location) (names more : List String) :
    tree.walk location (names ++ more)
      = tree.walk location names >>= fun reached => tree.walk reached more := by
  induction names generalizing location with
  | nil => rfl
  | cons name names ih =>
      rw [List.cons_append, walk, walk]
      cases tree.find? location with
      | none => rfl
      | some entry =>
          cases entry with
          | file content => rfl
          | directory =>
              dsimp only
              split
              · exact ih location
              · split
                · exact ih (up location)
                · split
                  · rfl
                  · exact ih (location ++ [name])

variable {name : String}

/-- From a directory, a name leads to the file of that name. -/
theorem walk_fileName (h : FileName name) (hhome : tree.find? home = some .directory) :
    tree.walk home [name] = .ok (home ++ [name]) := by
  have hdots : ¬ (name = "" ∨ name = ".") := not_or.mpr ⟨h.nonempty, h.notDots.1⟩
  have hsize := h.fits
  rw [walk, hhome]
  dsimp only
  rw [if_neg hdots, if_neg h.notDots.2, if_neg (by omega)]
  rfl

theorem follow_cons {first : String} (h : first ≠ "") (rest : List String) :
    tree.follow (first :: rest) = tree.walk [] (first :: rest) := by
  unfold follow
  split
  · rename_i hhead
    cases hhead
    exact absurd rfl h
  · rename_i hhead
    cases hhead
    exact absurd rfl h
  · rfl

theorem follow_append {names : List String} (h : FileName name)
    (hnames : tree.follow names = .ok home) (hhome : tree.find? home = some .directory) :
    tree.follow (names ++ [name]) = .ok (home ++ [name]) := by
  have hwalk : ∀ start rest, tree.walk start rest = .ok home →
      tree.walk start (rest ++ [name]) = .ok (home ++ [name]) := by
    intro start rest hrest
    rw [walk_append, hrest]
    exact walk_fileName h hhome
  cases names with
  | nil =>
      rw [List.nil_append, follow_cons h.nonempty]
      exact hwalk [] [] hnames
  | cons first rest =>
      by_cases hfirst : first = ""
      · subst hfirst
        cases rest with
        | nil => cases hnames
        | cons second rest => exact hwalk ["/"] (second :: rest) hnames
      · rw [follow_cons hfirst] at hnames
        rw [List.cons_append, follow_cons hfirst]
        exact hwalk [] (first :: rest) hnames

/-- **A file of a directory is at the place of the directory, with its name behind.** -/
theorem locate_join {directory : Path} (hrooted : directory.Rooted) (h : FileName name)
    (hlocate : tree.locate directory.text = .ok home) (hhome : tree.find? home = some .directory)
    (haccepted : Accepted (directory.join name).text) :
    tree.locate (directory.join name).text = .ok (home ++ [name]) := by
  rw [locate_of_accepted (accepted_of_locate hlocate)] at hlocate
  rw [locate_of_accepted haccepted, Path.text_join h]
  by_cases hnames : directory.names = []
  · -- the directory one stands in, or the root
    rw [Path.lead, if_pos hnames]
    rw [Path.text, hnames] at hlocate
    rcases hrooted with hroot | hroot | hroot
    · rw [hroot] at hlocate ⊢
      obtain rfl : [] = home := Except.ok.inj hlocate
      rw [String.empty_append, Path.splitAt_fileName h]
      have hempty : tree.follow [] = .ok [] := rfl
      exact follow_append h hempty hhome
    · rw [hroot] at hlocate ⊢
      obtain rfl : ["/"] = home := Except.ok.inj hlocate
      have hsplit := Path.splitAt_slash "" name
      rw [Path.splitAt_fileName h] at hsplit
      rw [show ("/" : String) = "" ++ "/" from rfl, hsplit]
      exact walk_fileName h hhome
    · rw [hroot] at hlocate ⊢
      obtain rfl : ["/"] = home := Except.ok.inj hlocate
      have hsplit := Path.splitAt_slash "/" name
      rw [Path.splitAt_fileName h] at hsplit
      rw [show ("//" : String) = "/" ++ "/" from rfl, hsplit]
      exact follow_append h hlocate hhome
  · have htext : directory.lead = directory.text ++ "/" := by
      rw [Path.lead, Path.text, if_neg hnames, if_neg (by simp [hnames])]
    rw [htext, Path.splitAt_slash, Path.splitAt_fileName h]
    exact follow_append h hlocate hhome

/-! ## Files are written -/

theorem find?_put (h : fixed? place = none) (entry : Entry) (other : Location) :
    (tree.put place entry).find? other = if place = other then some entry else tree.find? other := by
  unfold find? put
  rw [Bindings.find?_bind]
  by_cases hplace : place = other
  · rw [← hplace, h]
  · simp only [if_neg hplace]

/-- What is put where something is always there is not found again. -/
theorem find?_put_of_fixed {entry : Entry} (h : fixed? place = some entry) (put : Entry)
    (other : Location) : (tree.put place put).find? other = tree.find? other := by
  unfold find? Tree.put
  rw [Bindings.find?_bind]
  by_cases hplace : place = other
  · rw [← hplace, h]
  · simp only [if_neg hplace]

/-- Nothing is always there that has a file's name and a directory above it. -/
theorem fixed?_concat (h : FileName name) (home : Location) : fixed? (home ++ [name]) = none := by
  have habove : isAbove (home ++ [name]) = false := by
    have hroot : home ++ [name] ≠ ["/"] := by
      intro heq
      obtain ⟨rfl, hlast⟩ : home = [] ∧ name = "/" := by
        simpa using List.append_inj' (heq.trans (List.nil_append _).symm) rfl
      have := h.not_slash '/' (by rw [hlast]; decide)
      exact absurd this (by decide)
    simp [isAbove, hroot, h.notDots.2]
  have hlast : ∀ front last, home ++ [name] = front ++ [last] → name = last := by
    intro front last heq
    simpa using (List.append_inj' heq rfl).2
  have hdev : home ++ [name] ≠ ["/", "dev"] := fun heq => h.notDevice.1 (hlast ["/"] "dev" heq)
  have hnull : home ++ [name] ≠ ["/", "dev", "null"] :=
    fun heq => h.notDevice.2 (hlast ["/", "dev"] "null" heq)
  simp [fixed?, habove, hdev, hnull]

theorem fixed?_of_find? (h : tree.find? place = none) : fixed? place = none := by
  unfold find? at h
  split at h
  · cases h
  · assumption

theorem isDirectory_iff {path : Path} : tree.isDirectory path = true ↔
    ∃ location, tree.locate path.text = .ok location ∧
      tree.find? location = some .directory := by
  unfold isDirectory entry?
  cases tree.locate path.text <;> simp

/-- What is done at the place a path leads to succeeds only if the path leads to one. -/
theorem located_of_ok {α : Type} {x : α} {path text : String}
    {act : Location → Except Reason α} (h : blame path (tree.locate text >>= act) = .ok x) :
    ∃ location, tree.locate text = .ok location ∧ act location = .ok x := by
  cases hlocate : tree.locate text with
  | error reason => rw [hlocate] at h; cases h
  | ok location =>
      have hblamed : blame path (act location) = .ok x := by rw [hlocate] at h; exact h
      refine ⟨location, rfl, ?_⟩
      cases hact : act location with
      | error reason => rw [hact] at hblamed; cases hblamed
      | ok y => rw [hact] at hblamed; cases hblamed; rfl

/-- What was a directory is one later. -/
def Within (tree later : Tree) : Prop :=
  ∀ location, tree.find? location = some .directory → later.find? location = some .directory

namespace Within

theorem put (h : tree.find? place ≠ some .directory) (hfixed : fixed? place = none)
    (entry : Entry) : Within tree (tree.put place entry) := by
  intro location hlocation
  have hne : place ≠ location := by
    intro heq
    exact h (heq ▸ hlocation)
  rw [find?_put hfixed, if_neg hne]
  exact hlocation

theorem walk (h : Within tree later) {start : Location} {names : List String}
    (hwalk : tree.walk start names = .ok place) : later.walk start names = .ok place := by
  -- Every step but the last looks at a directory of `tree`, and finds it in `later`.
  fun_induction tree.walk start names with
  | case1 location => exact hwalk
  | case2 => cases hwalk
  | case3 => cases hwalk
  | case4 location name rest hfind hskip ih => simp_all [Tree.walk, h _ hfind]
  | case5 location rest hfind hskip ih => simp_all [Tree.walk, h _ hfind]
  | case6 => cases hwalk
  | case7 location name rest hfind hskip hup hfits ih => simp_all [Tree.walk, h _ hfind]

/-- **A path that leads to a place keeps leading there.** -/
theorem locate (h : Within tree later) {text : String} (hlocate : tree.locate text = .ok place) :
    later.locate text = .ok place := by
  have haccepted := accepted_of_locate hlocate
  rw [locate_of_accepted haccepted] at hlocate ⊢
  unfold follow at hlocate ⊢
  split at hlocate
  · cases hlocate
  · exact h.walk hlocate
  · exact h.walk hlocate

theorem isDirectory (h : Within tree later) {path : Path} (hdir : tree.isDirectory path = true) :
    later.isDirectory path = true := by
  obtain ⟨location, hlocate, hfind⟩ := isDirectory_iff.mp hdir
  exact isDirectory_iff.mpr ⟨location, h.locate hlocate, h _ hfind⟩

end Within

/-! ## Directories are made -/

/-- A directory is made where nothing stands. -/
theorem makeDirectory_eq_ok {path : Path} (h : tree.makeDirectory path = .ok later) :
    ∃ location, tree.locate path.text = .ok location ∧ tree.find? location = none ∧
      later = tree.put location .directory := by
  obtain ⟨location, hlocate, hmade⟩ := located_of_ok h
  refine ⟨location, hlocate, ?_⟩
  cases hfind : tree.find? location with
  | some entry => rw [hfind] at hmade; cases hmade
  | none => rw [hfind] at hmade; exact ⟨rfl, (Except.ok.inj hmade).symm⟩

theorem makeDirectory_ok {path : Path} (h : tree.makeDirectory path = .ok later) :
    later.isDirectory path = true := by
  obtain ⟨location, hlocate, hfind, rfl⟩ := makeDirectory_eq_ok h
  have hfixed := fixed?_of_find? hfind
  have hwithin : Within tree (tree.put location .directory) :=
    Within.put (by simp [hfind]) hfixed _
  refine isDirectory_iff.mpr ⟨location, hwithin.locate hlocate, ?_⟩
  rw [find?_put hfixed, if_pos rfl]

/-- Once a directory and those above it are made, it is there. -/
theorem isDirectory_of_makeDirectories {path : Path} (h : tree.makeDirectories path = .ok later) :
    later.isDirectory path = true := by
  -- However far up directories are missing, the last step makes this one or finds it made.
  rw [makeDirectories] at h
  split at h
  · rename_i made hmade
    rw [← Except.ok.inj h]
    exact makeDirectory_ok hmade
  · split at h
    · cases h
    · split at h
      · cases h
      · split at h
        · rename_i made hmade
          rw [← Except.ok.inj h]
          exact makeDirectory_ok hmade
        · split at h
          · rename_i hdir
            rw [← Except.ok.inj h]
            exact hdir
          · cases h
  · split at h
    · rename_i hdir
      rw [← Except.ok.inj h]
      exact hdir
    · cases h

/-- A directory that is there needs not be made. -/
theorem makeDirectories_of_isDirectory {path : Path} (h : tree.isDirectory path = true) :
    tree.makeDirectories path = .ok tree := by
  obtain ⟨location, hlocate, hfind⟩ := isDirectory_iff.mp h
  have hthere : tree.makeDirectory path = .error ⟨.alreadyExists, path.text⟩ := by
    simp [makeDirectory, blame, hlocate, hfind, bind, Except.bind, Except.mapError]
  rw [makeDirectories, hthere]
  exact if_pos h

/-! ## Files that can be written -/

/-- What the file at a location holds. -/
def content? (tree : Tree) (location : Location) : Option Content :=
  match tree.find? location with
  | some (.file content) => some content
  | _ => none

/-- A file is edited where no directory stands. -/
theorem editFile_eq_ok {path : Path} {edit : Option Content → Content}
    (h : tree.editFile path edit = .ok later) :
    ∃ place content, tree.locate path.text = .ok place ∧ tree.find? place ≠ some .directory ∧
      later = tree.put place (.file content) := by
  obtain ⟨place, hlocate, hedited⟩ := located_of_ok h
  cases hfind : tree.find? place with
  | none =>
      rw [hfind] at hedited
      exact ⟨place, _, hlocate, by simp [hfind], (Except.ok.inj hedited).symm⟩
  | some entry =>
      rw [hfind] at hedited
      cases entry with
      | directory => cases hedited
      | file content => exact ⟨place, _, hlocate, by simp [hfind], (Except.ok.inj hedited).symm⟩

theorem accepted_of_editFile {path : Path} {edit : Option Content → Content}
    (h : tree.editFile path edit = .ok later) : Accepted path.text := by
  obtain ⟨place, content, hlocate, -⟩ := editFile_eq_ok h
  exact accepted_of_locate hlocate

/-- What is read from a file is what is held at the place the path leads to. -/
theorem readContent_eq_ok {text : String} {content : Content}
    (h : tree.readContent text = .ok content) :
    ∃ place, tree.locate text = .ok place ∧ tree.content? place = some content := by
  obtain ⟨place, hlocate, hread⟩ := located_of_ok h
  refine ⟨place, hlocate, ?_⟩
  unfold content?
  cases hfind : tree.find? place with
  | none => rw [hfind] at hread; cases hread
  | some entry =>
      rw [hfind] at hread
      cases entry with
      | directory => cases hread
      | file held => rw [Except.ok.inj hread]

/-- The path leads to a place in a directory where a file can be, and no directory is. -/
structure Writable (tree : Tree) (path : Path) (place : Location) : Prop where
  located : tree.locate path.text = .ok place
  inDirectory : tree.isDirectory path.parent = true
  free : fixed? place = none
  notDirectory : tree.find? place ≠ some .directory

namespace Writable

variable {path other : Path} {elsewhere : Location} {content : Content}

theorem within (h : Writable tree path place) (content : Content) :
    Within tree (tree.put place (.file content)) :=
  Within.put h.notDirectory h.free _

/-- An edit puts a file at the place of the path. -/
theorem editFile_eq (h : Writable tree path place) (edit : Option Content → Content) :
    tree.editFile path edit = .ok (tree.put place (.file (edit (tree.content? place)))) := by
  unfold editFile content?
  have hdir := h.notDirectory
  simp only [h.located, bind, Except.bind]
  split
  · contradiction
  · rename_i content hfind
    rw [hfind]
    rfl
  · rename_i hfind
    rw [hfind]
    rfl

/-- **Where one file is written, any other can still be written.** -/
theorem put (h : Writable tree path place) (ho : Writable tree other elsewhere)
    (content : Content) : Writable (tree.put elsewhere (.file content)) path place where
  located := (ho.within content).locate h.located
  inDirectory := (ho.within content).isDirectory h.inDirectory
  free := h.free
  notDirectory := by
    rw [find?_put ho.free]
    split
    · simp
    · exact h.notDirectory

/-- A file of a directory can be written, if only its name allows it. -/
theorem of_join {directory : Path} {name : String} (hrooted : directory.Rooted)
    (h : FileName name) (hlocate : tree.locate directory.text = .ok home)
    (hhome : tree.find? home = some .directory) (haccepted : Accepted (directory.join name).text)
    (hplace : tree.find? (home ++ [name]) ≠ some .directory) :
    Writable tree (directory.join name) (home ++ [name]) where
  located := locate_join hrooted h hlocate hhome haccepted
  inDirectory := by
    rw [Path.parent_join h]
    exact isDirectory_iff.mpr ⟨home, hlocate, hhome⟩
  free := fixed?_concat h home
  notDirectory := hplace

/-- What a file holds is what is read from it. -/
theorem readContent_eq (h : Writable tree path place) :
    tree.readContent path.text = match tree.content? place with
      | some content => .ok content
      | none => .error ⟨.notFound, path.text⟩ := by
  unfold readContent blame content?
  simp only [h.located, bind, Except.bind]
  cases hfind : tree.find? place with
  | none => rfl
  | some entry =>
      cases entry with
      | directory => exact absurd hfind h.notDirectory
      | file content => rfl

/-- There is nothing at the place if nothing stands there, as it is no directory. -/
theorem nothing_iff (h : Writable tree path place) :
    tree.entry? path.text = none ↔ tree.content? place = none := by
  unfold entry? content?
  rw [h.located]
  cases hfind : tree.find? place with
  | none => simp [hfind]
  | some entry =>
      cases entry with
      | directory => exact absurd hfind h.notDirectory
      | file content => simp [hfind]

theorem content?_put (h : Writable tree path place) (content : Content) (other : Location) :
    (tree.put place (.file content)).content? other
      = if place = other then some content else tree.content? other := by
  unfold content?
  rw [find?_put h.free]
  by_cases hplace : place = other
  · rw [if_pos hplace, if_pos hplace]
  · rw [if_neg hplace, if_neg hplace]

end Writable

end Tree

end Flashcards.Files
