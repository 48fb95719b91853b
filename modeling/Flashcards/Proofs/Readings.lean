import Flashcards.Filter.Apply
import Flashcards.Proofs.Text
import Mathlib.Data.List.DropRight

/-!
# Where readings are found

The filters for readings walk over a value from the left and take a whole run of base characters at
a time. What they find does not depend on this: it is every reading in brackets that stands right
behind a base character, with the longest run of base characters in front of it. A value is cut into
these groups and the single characters between them in one way only (`Cut.unique`), and what a filter
gives is this cut with something else written for each group (`Cut.replaceReadings`).

The proof goes by cuts that are laid out from the right (`Laid`): a base character may stand by itself
only if no reading follows the run it begins. This is what the walk looks at, and it is enough to tell
where the groups are.
-/

namespace Flashcards.Ruby

variable {inBase : Char → Bool} {write : List Char → List Char → List Char}
  {cs rest front before base reading behind : List Char} {c : Char}

/-! ## Readings in brackets -/

theorem readingAt?_eq_some_iff : readingAt? cs = some (reading, behind) ↔
    reading ≠ [] ∧ (∀ c ∈ reading, c ≠ '[' ∧ c ≠ ']') ∧ cs = '[' :: reading ++ ']' :: behind := by
  have hinside : ∀ c : Char, (c != '[' && c != ']') = true ↔ c ≠ '[' ∧ c ≠ ']' := by simp
  constructor
  · intro h
    unfold readingAt? at h
    split at h
    · rename_i rest
      dsimp only at h
      split at h
      · rename_i hdrop
        split at h
        · cases h
        · rename_i hne
          cases h
          have hrest := List.takeWhile_append_dropWhile (p := fun c => c != '[' && c != ']')
            (l := rest)
          rw [hdrop] at hrest
          refine ⟨by simpa using hne, fun c hc => ?_, by rw [List.cons_append, hrest]⟩
          have hc := List.mem_takeWhile_imp hc
          exact (hinside c).mp hc
      · cases h
    · cases h
  · rintro ⟨hne, hclosed, rfl⟩
    have hrun : ∀ c ∈ reading, (c != '[' && c != ']') = true :=
      fun c hc => (hinside c).mpr (hclosed c hc)
    simp [readingAt?, Text.takeWhile_run hrun (c := ']') (by decide),
      Text.dropWhile_run hrun (c := ']') (by decide), hne]

/-- A reading begins with a bracket. -/
theorem readingAt?_of_head? (h : cs.head? ≠ some '[') : readingAt? cs = none := by
  refine Option.eq_none_iff_forall_ne_some.mpr fun found hfound => h ?_
  obtain ⟨-, -, rfl⟩ := readingAt?_eq_some_iff.mp hfound
  rfl

/-! ## Steps of the walk -/

theorem replaceReadings_nil (inBase : Char → Bool) (write : List Char → List Char → List Char) :
    replaceReadings inBase write [] = [] := by
  rw [replaceReadings.eq_def]

theorem replaceReadings_of_not (h : inBase c = false) (rest : List Char) :
    replaceReadings inBase write (c :: rest) = c :: replaceReadings inBase write rest := by
  rw [replaceReadings.eq_def]
  simp [h]

theorem replaceReadings_of_base (h : inBase c = true) (rest : List Char) :
    replaceReadings inBase write (c :: rest)
      = match readingAt? (rest.dropWhile inBase) with
        | some (reading, behind) =>
          write (c :: rest.takeWhile inBase) reading ++ replaceReadings inBase write behind
        | none =>
          c :: rest.takeWhile inBase ++ replaceReadings inBase write (rest.dropWhile inBase) := by
  rw [replaceReadings.eq_def]
  simp only [h, if_true]
  split
  · rename_i hfound
    rw [hfound]
  · rename_i hnone
    rw [hnone]

/-- A run without a reading behind it is copied. -/
theorem replaceReadings_run (h : readingAt? (cs.dropWhile inBase) = none) :
    replaceReadings inBase write cs
      = cs.takeWhile inBase ++ replaceReadings inBase write (cs.dropWhile inBase) := by
  cases cs with
  | nil => rfl
  | cons c rest =>
      by_cases hc : inBase c = true
      · rw [List.dropWhile_cons_of_pos hc] at h
        rw [List.takeWhile_cons_of_pos hc, List.dropWhile_cons_of_pos hc, replaceReadings_of_base hc,
          h]
      · rw [List.takeWhile_cons_of_neg hc, List.dropWhile_cons_of_neg hc, List.nil_append]

/-- A character that begins no group is copied. -/
theorem replaceReadings_plain
    (h : inBase c = true → readingAt? (rest.dropWhile inBase) = none) :
    replaceReadings inBase write (c :: rest) = c :: replaceReadings inBase write rest := by
  by_cases hc : inBase c = true
  · have hrest := h hc
    have hwhole : readingAt? ((c :: rest).dropWhile inBase) = none := by
      rwa [List.dropWhile_cons_of_pos hc]
    rw [replaceReadings_run hwhole, replaceReadings_run hrest, List.takeWhile_cons_of_pos hc,
      List.dropWhile_cons_of_pos hc]
    rfl
  · exact replaceReadings_of_not (Bool.eq_false_iff.mpr hc) rest

/-- Brackets are not base characters. -/
structure Bracketless (inBase : Char → Bool) : Prop where
  opening : inBase '[' = false
  closing : inBase ']' = false

theorem bracketless_isBase : Bracketless isBase := ⟨by decide, by decide⟩

theorem bracketless_isHan : Bracketless isHan := ⟨by decide, by decide⟩

/-! ## Texts in pieces -/

/-- A part of a text: a character by itself, or base characters with a reading. -/
inductive Piece
  | plain (c : Char)
  | group (base reading : List Char)

/-- Base characters with their reading in brackets. -/
def bracketed (base reading : List Char) : List Char := base ++ '[' :: reading ++ [']']

/-- A part with something written for a group. -/
def Piece.written (write : List Char → List Char → List Char) : Piece → List Char
  | .plain c => [c]
  | .group base reading => write base reading

/-- Parts of a text with something written for each group. -/
def written (write : List Char → List Char → List Char) (pieces : List Piece) : List Char :=
  pieces.flatMap (Piece.written write)

variable {pieces others later : List Piece}

@[simp] theorem written_nil (write : List Char → List Char → List Char) : written write [] = [] :=
  rfl

@[simp] theorem written_plain (write : List Char → List Char → List Char) (c : Char)
    (pieces : List Piece) : written write (.plain c :: pieces) = c :: written write pieces := rfl

@[simp] theorem written_group (write : List Char → List Char → List Char) (base reading : List Char)
    (pieces : List Piece) :
    written write (.group base reading :: pieces) = write base reading ++ written write pieces :=
  rfl

theorem written_append (write : List Char → List Char → List Char) (pieces others : List Piece) :
    written write (pieces ++ others) = written write pieces ++ written write others :=
  List.flatMap_append

@[simp] theorem written_map_plain (write : List Char → List Char → List Char) (cs : List Char) :
    written write (cs.map .plain) = cs := by
  induction cs with
  | nil => rfl
  | cons c rest ih => rw [List.map_cons, written_plain, ih]

theorem bracketed_append (base reading behind : List Char) :
    bracketed base reading ++ behind = base ++ ('[' :: reading ++ ']' :: behind) := by
  simp [bracketed]

/-- What a group is made of: base characters and a reading without brackets. -/
structure IsGroup (inBase : Char → Bool) (base reading : List Char) : Prop where
  based : base ≠ []
  allBase : ∀ c ∈ base, inBase c = true
  read : reading ≠ []
  closed : ∀ c ∈ reading, c ≠ '[' ∧ c ≠ ']'

theorem IsGroup.readingAt? (h : IsGroup inBase base reading) (behind : List Char) :
    readingAt? ('[' :: reading ++ ']' :: behind) = some (reading, behind) :=
  readingAt?_eq_some_iff.mpr ⟨h.read, h.closed, rfl⟩

/-- A text in pieces, laid out from the right: the groups are what they should be, and a base
character stands by itself only if there is no reading behind the run it begins. -/
inductive Laid (inBase : Char → Bool) : List Piece → Prop
  | nil : Laid inBase []
  | plain {c : Char} {pieces : List Piece} : Laid inBase pieces →
      (inBase c = true → readingAt? ((written bracketed pieces).dropWhile inBase) = none) →
      Laid inBase (.plain c :: pieces)
  | group {base reading : List Char} {pieces : List Piece} : Laid inBase pieces →
      IsGroup inBase base reading → Laid inBase (.group base reading :: pieces)

theorem isGroup_iff : IsGroup inBase base reading ↔ base ≠ [] ∧ base.all inBase = true ∧
    reading ≠ [] ∧ reading.all (fun c => c != '[' && c != ']') = true := by
  have hclosed : reading.all (fun c => c != '[' && c != ']') = true ↔
      ∀ c ∈ reading, c ≠ '[' ∧ c ≠ ']' := by simp
  rw [hclosed, List.all_eq_true]
  exact ⟨fun ⟨hbased, hall, hread, hclosed⟩ => ⟨hbased, hall, hread, hclosed⟩,
    fun ⟨hbased, hall, hread, hclosed⟩ => ⟨hbased, hall, hread, hclosed⟩⟩

instance : Decidable (IsGroup inBase base reading) := decidable_of_iff' _ isGroup_iff

theorem laid_plain_iff : Laid inBase (.plain c :: pieces) ↔ Laid inBase pieces ∧
    (inBase c = true → readingAt? ((written bracketed pieces).dropWhile inBase) = none) := by
  constructor
  · rintro (_ | ⟨hlaid, hplain⟩)
    exact ⟨hlaid, hplain⟩
  · exact fun ⟨hlaid, hplain⟩ => .plain hlaid hplain

theorem laid_group_iff : Laid inBase (.group base reading :: pieces) ↔
    Laid inBase pieces ∧ IsGroup inBase base reading := by
  constructor
  · rintro (_ | _ | ⟨hlaid, hgroup⟩)
    exact ⟨hlaid, hgroup⟩
  · exact fun ⟨hlaid, hgroup⟩ => .group hlaid hgroup

instance decidableLaid (inBase : Char → Bool) : (pieces : List Piece) → Decidable (Laid inBase pieces)
  | [] => .isTrue .nil
  | .plain _ :: pieces =>
    have := decidableLaid inBase pieces
    decidable_of_iff' _ laid_plain_iff
  | .group _ _ :: pieces =>
    have := decidableLaid inBase pieces
    decidable_of_iff' _ laid_group_iff

/-- Every text can be laid out. -/
theorem exists_laid (inBase : Char → Bool) (cs : List Char) :
    ∃ pieces, Laid inBase pieces ∧ written bracketed pieces = cs := by
  induction hn : cs.length using Nat.strongRecOn generalizing cs with
  | ind n ih =>
      cases cs with
      | nil => exact ⟨[], .nil, rfl⟩
      | cons c rest =>
          obtain ⟨pieces, hpieces, hrest⟩ := ih _ (by simp [← hn]) rest rfl
          by_cases hgroup : inBase c = true ∧ readingAt? (rest.dropWhile inBase) ≠ none
          · obtain ⟨hc, hsome⟩ := hgroup
            obtain ⟨⟨reading, behind⟩, hfound⟩ := Option.ne_none_iff_exists'.mp hsome
            obtain ⟨hne, hclosed, hdrop⟩ := readingAt?_eq_some_iff.mp hfound
            have hwhole := List.takeWhile_append_dropWhile (p := inBase) (l := rest)
            have hless : behind.length < n := by
              have := (List.dropWhile_suffix (l := rest) inBase).length_le
              simp only [hdrop, ← hn, List.length_cons, List.length_append] at this ⊢
              omega
            obtain ⟨later, hlater, hbehind⟩ := ih _ hless behind rfl
            refine ⟨.group (c :: rest.takeWhile inBase) reading :: later,
              .group hlater ⟨List.cons_ne_nil _ _, ?_, hne, hclosed⟩, ?_⟩
            · exact List.forall_mem_cons.mpr ⟨hc, fun d hd => List.mem_takeWhile_imp hd⟩
            · rw [written_group, bracketed_append, hbehind, ← hdrop, List.cons_append, hwhole]
          · refine ⟨.plain c :: pieces, .plain hpieces fun hc => ?_, by rw [written_plain, hrest]⟩
            rw [hrest]
            exact Decidable.not_not.mp fun hnone => hgroup ⟨hc, hnone⟩

/-- A group is rewritten. -/
theorem replaceReadings_group (hout : Bracketless inBase) (h : IsGroup inBase base reading)
    (behind : List Char) : replaceReadings inBase write (bracketed base reading ++ behind)
      = write base reading ++ replaceReadings inBase write behind := by
  obtain ⟨c, more, rfl⟩ := List.exists_cons_of_ne_nil h.based
  obtain ⟨hc, hmore⟩ := List.forall_mem_cons.mp h.allBase
  have htake : (more ++ ('[' :: reading ++ ']' :: behind)).takeWhile inBase = more :=
    Text.takeWhile_run hmore hout.opening _
  have hdrop : (more ++ ('[' :: reading ++ ']' :: behind)).dropWhile inBase
      = '[' :: reading ++ ']' :: behind := Text.dropWhile_run hmore hout.opening _
  rw [bracketed_append, List.cons_append, replaceReadings_of_base hc, htake, hdrop, h.readingAt?]

/-- What is laid out is rewritten piece by piece. -/
theorem Laid.replaceReadings (hout : Bracketless inBase) (h : Laid inBase pieces)
    (write : List Char → List Char → List Char) :
    replaceReadings inBase write (written bracketed pieces) = written write pieces := by
  induction h with
  | nil => exact replaceReadings_nil inBase write
  | plain _ hplain ih => rw [written_plain, written_plain, replaceReadings_plain hplain, ih]
  | group _ hgroup ih => rw [written_group, written_group, replaceReadings_group hout hgroup, ih]

/-! ## Where the groups are -/

/-- Between `before` and `behind`, the pieces have this group. -/
def Standing (pieces : List Piece) (before base reading behind : List Char) : Prop :=
  ∃ front later, pieces = front ++ .group base reading :: later ∧
    written bracketed front = before ∧ written bracketed later = behind

/-- Between `front` and `behind`, the text has this reading in brackets, right behind a base
character. -/
structure Pair (inBase : Char → Bool) (cs front reading behind : List Char) : Prop where
  written : cs = front ++ ('[' :: reading ++ ']' :: behind)
  follows : ∃ c ∈ front.getLast?, inBase c = true
  read : reading ≠ []
  closed : ∀ c ∈ reading, c ≠ '[' ∧ c ≠ ']'

/-- Behind `before`, these are the most base characters at the end. -/
structure Run (inBase : Char → Bool) (before base : List Char) : Prop where
  allBase : ∀ c ∈ base, inBase c = true
  longest : ∀ c ∈ before.getLast?, inBase c = false

/-- A text is cut into pieces so that the groups are the readings in brackets that stand right behind
a base character, each with the longest run in front of it. -/
structure Cut (inBase : Char → Bool) (cs : List Char) (pieces : List Piece) : Prop where
  written : written bracketed pieces = cs
  groups : ∀ before base reading behind, Standing pieces before base reading behind ↔
    Pair inBase cs (before ++ base) reading behind ∧ Run inBase before base

/-- A group of the text between `before` and `behind`, told by its parts. -/
structure Found (inBase : Char → Bool) (cs before base reading behind : List Char) : Prop where
  written : cs = before ++ (bracketed base reading ++ behind)
  isGroup : IsGroup inBase base reading
  longest : ∀ c ∈ before.getLast?, inBase c = false

theorem found_iff : Found inBase cs before base reading behind ↔
    Pair inBase cs (before ++ base) reading behind ∧ Run inBase before base := by
  constructor
  · intro h
    obtain ⟨c, hc⟩ := Option.ne_none_iff_exists'.mp (mt List.getLast?_eq_none_iff.mp h.isGroup.based)
    refine ⟨⟨?_, ⟨c, ?_, h.isGroup.allBase c (List.mem_of_getLast? hc)⟩, h.isGroup.read,
      h.isGroup.closed⟩, h.isGroup.allBase, h.longest⟩
    · rw [h.written, bracketed_append, List.append_assoc]
    · rw [List.getLast?_append, hc]
      rfl
  · rintro ⟨hpair, hrun⟩
    refine ⟨?_, ⟨?_, hrun.allBase, hpair.read, hpair.closed⟩, hrun.longest⟩
    · rw [hpair.written, bracketed_append, List.append_assoc]
    · rintro rfl
      obtain ⟨c, hc, hbase⟩ := hpair.follows
      rw [List.append_nil] at hc
      rw [hrun.longest c hc] at hbase
      cases hbase

theorem standing_plain_iff : Standing (.plain c :: pieces) before base reading behind ↔
    ∃ more, before = c :: more ∧ Standing pieces more base reading behind := by
  constructor
  · rintro ⟨front, later, hpieces, rfl, rfl⟩
    cases front with
    | nil => cases hpieces
    | cons first front =>
        obtain ⟨rfl, rfl⟩ := List.cons.inj hpieces
        exact ⟨_, rfl, front, later, rfl, rfl, rfl⟩
  · rintro ⟨_, rfl, front, later, rfl, rfl, rfl⟩
    exact ⟨.plain c :: front, later, rfl, rfl, rfl⟩

theorem standing_group_iff {base' reading' : List Char} :
    Standing (.group base' reading' :: pieces) before base reading behind ↔
      (before = [] ∧ base = base' ∧ reading = reading' ∧ behind = written bracketed pieces) ∨
      ∃ more, before = bracketed base' reading' ++ more ∧
        Standing pieces more base reading behind := by
  constructor
  · rintro ⟨front, later, hpieces, rfl, rfl⟩
    cases front with
    | nil =>
        cases hpieces
        exact .inl ⟨rfl, rfl, rfl, rfl⟩
    | cons first front =>
        obtain ⟨rfl, rfl⟩ := List.cons.inj hpieces
        exact .inr ⟨_, rfl, front, later, rfl, rfl, rfl⟩
  · rintro (⟨rfl, rfl, rfl, rfl⟩ | ⟨_, rfl, front, later, rfl, rfl, rfl⟩)
    · exact ⟨[], pieces, rfl, rfl, rfl⟩
    · exact ⟨.group base' reading' :: front, later, rfl, rfl, rfl⟩

/-- A character that begins no group stands in front of all there are. -/
theorem found_plain_iff (hout : Bracketless inBase)
    (h : inBase c = true → readingAt? (cs.dropWhile inBase) = none) :
    Found inBase (c :: cs) before base reading behind ↔
      ∃ more, before = c :: more ∧ Found inBase cs more base reading behind := by
  -- no group begins with the character
  have hnot : ∀ more, inBase c = true → (∀ d ∈ more, inBase d = true) → IsGroup inBase base reading →
      cs ≠ more ++ ('[' :: reading ++ ']' :: behind) := by
    rintro more hc hmore hgroup rfl
    have hnone := h hc
    rw [List.cons_append, Text.dropWhile_run hmore hout.opening, ← List.cons_append,
      hgroup.readingAt?] at hnone
    cases hnone
  constructor
  · rintro ⟨hwritten, hgroup, hlongest⟩
    cases before with
    | nil =>
        obtain ⟨d, more, rfl⟩ := List.exists_cons_of_ne_nil hgroup.based
        obtain ⟨hd, hmore⟩ := List.forall_mem_cons.mp hgroup.allBase
        rw [List.nil_append, bracketed_append] at hwritten
        obtain ⟨rfl, hcs⟩ := List.cons.inj hwritten
        exact absurd hcs (hnot more hd hmore hgroup)
    | cons d more =>
        obtain ⟨rfl, hcs⟩ := List.cons.inj hwritten
        refine ⟨more, rfl, hcs, hgroup, fun e he => hlongest e ?_⟩
        rw [List.getLast?_cons, he]
        rfl
  · rintro ⟨more, rfl, rfl, hgroup, hlongest⟩
    refine ⟨rfl, hgroup, fun d hd => ?_⟩
    cases hmore : more.getLast? with
    | some e =>
        rw [List.getLast?_cons, hmore] at hd
        cases hd
        exact hlongest e hmore
    | none =>
        obtain rfl := List.getLast?_eq_none_iff.mp hmore
        cases hd
        refine Bool.eq_false_iff.mpr fun hc => hnot base hc hgroup.allBase hgroup ?_
        rw [List.nil_append, bracketed_append]

theorem IsGroup.brackets_not_mem (hout : Bracketless inBase) (h : IsGroup inBase base reading) :
    '[' ∉ base ∧ ']' ∉ base ∧ '[' ∉ reading ∧ ']' ∉ reading := by
  refine ⟨fun hmem => ?_, fun hmem => ?_, fun hmem => ?_, fun hmem => ?_⟩
  · have := h.allBase _ hmem
    rw [hout.opening] at this
    cases this
  · have := h.allBase _ hmem
    rw [hout.closing] at this
    cases this
  · exact (h.closed _ hmem).1 rfl
  · exact (h.closed _ hmem).2 rfl

/-- A group stands in front of all others. -/
theorem found_group_iff (hout : Bracketless inBase) {base' reading' : List Char}
    (h : IsGroup inBase base' reading') :
    Found inBase (bracketed base' reading' ++ cs) before base reading behind ↔
      (before = [] ∧ base = base' ∧ reading = reading' ∧ behind = cs) ∨
      ∃ more, before = bracketed base' reading' ++ more ∧
        Found inBase cs more base reading behind := by
  obtain ⟨hbase', -, hopening', hclosing'⟩ := h.brackets_not_mem hout
  constructor
  · rintro ⟨hwritten, hgroup, hlongest⟩
    obtain ⟨-, hbase, -, hclosing⟩ := hgroup.brackets_not_mem hout
    -- the opening bracket of the group stands behind the base of the first one
    rw [bracketed_append, bracketed_append, ← List.append_assoc before] at hwritten
    obtain ⟨more, hfront, hmore⟩ := Text.exists_before_mark hwritten.symm hbase'
    cases more with
    | nil =>
        obtain ⟨rfl, rfl⟩ := Text.before_mark_inj hclosing hclosing' (List.cons.inj hmore).2
        rw [List.append_nil] at hfront
        have hnone : before = [] := by
          refine List.getLast?_eq_none_iff.mp (Option.eq_none_iff_forall_ne_some.mpr fun c hc => ?_)
          have hall := h.allBase c (hfront ▸ List.mem_append_left _ (List.mem_of_getLast? hc))
          rw [hlongest c hc] at hall
          cases hall
        subst hnone
        exact .inl ⟨rfl, hfront, rfl, rfl⟩
    | cons d more =>
        -- and then behind its reading, and behind its closing bracket
        simp only [List.cons_append, List.cons.injEq] at hmore
        obtain ⟨rfl, hrest⟩ := hmore
        obtain ⟨more, rfl, hbehind⟩ := Text.exists_before_mark hrest hopening'
        cases more with
        | nil => cases hbehind
        | cons d more =>
            simp only [List.cons_append, List.cons.injEq] at hbehind
            obtain ⟨rfl, hcs⟩ := hbehind
            have hsplit : before ++ base = (base' ++ '[' :: reading') ++ ']' :: more := by
              simpa using hfront
            obtain ⟨between, rfl, rfl⟩ := Text.exists_behind_mark hsplit hbase
            refine .inr ⟨between, by simp [bracketed], ?_, hgroup, fun c hc => hlongest c ?_⟩
            · rw [← hcs, bracketed_append, List.append_assoc]
              rfl
            · rw [List.getLast?_append, List.getLast?_cons, hc]
              rfl
  · rintro (⟨rfl, rfl, rfl, rfl⟩ | ⟨more, rfl, rfl, hgroup, hlongest⟩)
    · exact ⟨rfl, h, by simp⟩
    · refine ⟨by simp, hgroup, fun c hc => ?_⟩
      rw [List.getLast?_append] at hc
      cases hmore : more.getLast? with
      | some d =>
          rw [hmore] at hc
          cases hc
          exact hlongest _ hmore
      | none =>
          have hlast : (bracketed base' reading').getLast? = some ']' := List.getLast?_concat
          rw [hmore, hlast] at hc
          cases hc
          exact hout.closing

/-- **A text that is laid out has its groups where they stand in the text.** -/
theorem Laid.cut (hout : Bracketless inBase) (h : Laid inBase pieces) :
    Cut inBase (written bracketed pieces) pieces := by
  refine ⟨rfl, fun before base reading behind => ?_⟩
  rw [← found_iff]
  induction h generalizing before with
  | nil =>
      constructor
      · rintro ⟨front, later, hpieces, -, -⟩
        simp at hpieces
      · rintro ⟨hwritten, -, -⟩
        simp [bracketed] at hwritten
  | plain _ hplain ih =>
      rw [standing_plain_iff, written_plain, found_plain_iff hout hplain]
      simp only [ih]
  | group _ hgroup ih =>
      rw [standing_group_iff, written_group, found_group_iff hout hgroup]
      simp only [ih]

theorem exists_cut (hout : Bracketless inBase) (cs : List Char) :
    ∃ pieces, Cut inBase cs pieces := by
  obtain ⟨pieces, hlaid, rfl⟩ := exists_laid inBase cs
  exact ⟨pieces, hlaid.cut hout⟩

/-! ## One cut only -/

theorem written_bracketed_eq_nil_iff : written bracketed pieces = [] ↔ pieces = [] := by
  cases pieces with
  | nil => simp
  | cons piece pieces =>
      cases piece with
      | plain c => simp
      | group base reading => simp [bracketed]

/-- Pieces of the same text with the same groups at the same places are the same. -/
theorem eq_of_standing (hwritten : written bracketed pieces = written bracketed others)
    (h : ∀ before base reading behind, Standing pieces before base reading behind ↔
      Standing others before base reading behind) : pieces = others := by
  induction pieces generalizing others with
  | nil => exact (written_bracketed_eq_nil_iff.mp hwritten.symm).symm
  | cons piece pieces ih =>
      obtain ⟨other, others, rfl⟩ : ∃ other more, others = other :: more := by
        refine List.exists_cons_of_ne_nil fun hnil => ?_
        rw [hnil, written_nil, written_bracketed_eq_nil_iff] at hwritten
        cases hwritten
      cases piece with
      | plain c =>
          cases other with
          | plain d =>
              obtain ⟨rfl, hrest⟩ := List.cons.inj hwritten
              rw [ih hrest fun before base reading behind => ?_]
              simpa [standing_plain_iff] using h (c :: before) base reading behind
          | group base reading =>
              have hgroup := (h [] base reading _).mpr (standing_group_iff.mpr (.inl ⟨rfl, rfl, rfl, rfl⟩))
              simp [standing_plain_iff] at hgroup
      | group base reading =>
          have hgroup := (h [] base reading _).mp (standing_group_iff.mpr (.inl ⟨rfl, rfl, rfl, rfl⟩))
          cases other with
          | plain d => simp [standing_plain_iff] at hgroup
          | group base' reading' =>
              rcases standing_group_iff.mp hgroup with ⟨-, rfl, rfl, hrest⟩ | ⟨more, hmore, -⟩
              · rw [ih hrest fun before base' reading' behind => ?_]
                have hnot : bracketed base reading ++ before ≠ [] := by simp [bracketed]
                simpa [standing_group_iff, hnot]
                  using h (bracketed base reading ++ before) base' reading' behind
              · simp [bracketed] at hmore

/-- **A text is cut in one way only.** -/
theorem Cut.unique (h : Cut inBase cs pieces) (hother : Cut inBase cs others) : pieces = others :=
  eq_of_standing (h.written.trans hother.written.symm) fun before base reading behind =>
    (h.groups before base reading behind).trans (hother.groups before base reading behind).symm

/-- **Readings are replaced where they stand**, whatever the walk looks at. -/
theorem Cut.replaceReadings (hout : Bracketless inBase) (h : Cut inBase cs pieces)
    (write : List Char → List Char → List Char) :
    replaceReadings inBase write cs = Ruby.written write pieces := by
  obtain ⟨others, hlaid, rfl⟩ := exists_laid inBase cs
  rw [h.unique (hlaid.cut hout), hlaid.replaceReadings hout]

/-- In front of a place, there is a longest run of base characters. -/
theorem exists_run (inBase : Char → Bool) (front : List Char) :
    ∃ before base, before ++ base = front ∧ Run inBase before base := by
  refine ⟨front.rdropWhile inBase, front.rtakeWhile inBase, List.rdropWhile_append_rtakeWhile,
    fun c hc => List.mem_rtakeWhile_imp hc, fun c hc => ?_⟩
  obtain ⟨hne, rfl⟩ := List.mem_getLast?_eq_getLast hc
  exact Bool.eq_false_iff.mpr (List.rdropWhile_last_not inBase front hne)

/-- Where a reading stands behind a base character, there is a group. -/
theorem Cut.standing_of_pair (h : Cut inBase cs pieces) (hpair : Pair inBase cs front reading behind) :
    ∃ before base, before ++ base = front ∧ Standing pieces before base reading behind := by
  obtain ⟨before, base, rfl, hrun⟩ := exists_run inBase front
  exact ⟨before, base, rfl, (h.groups before base reading behind).mpr ⟨hpair, hrun⟩⟩

/-! ## Readings in markup -/

theorem markupAt?_of_ne (h : c ≠ '<') (rest : List Char) : markupAt? (c :: rest) = none := by
  refine Option.eq_none_iff_forall_ne_some.mpr fun found hfound => ?_
  simp only [markupAt?, Option.bind_eq_bind, Option.bind_eq_some_iff,
    Text.afterWord?_eq_some_iff] at hfound
  obtain ⟨_, hword, -⟩ := hfound
  exact h (List.cons.inj hword).1

theorem markup_append (base reading behind : List Char) : markup base reading ++ behind
    = "<ruby>".toList ++ (base ++ ("<rt>".toList ++
        (reading ++ ("</rt></ruby>".toList ++ behind)))) := by
  unfold markup
  simp only [List.append_assoc]

theorem markupAt?_markup (hbase : '<' ∉ base) (hreading : '<' ∉ reading) (behind : List Char) :
    markupAt? (markup base reading ++ behind) = some (base, reading, behind) := by
  have hcut : ∀ {cs rest : List Char}, '<' ∉ cs → rest.head? = some '<' →
      (cs ++ rest).takeWhile (· != '<') = cs ∧ (cs ++ rest).dropWhile (· != '<') = rest := by
    intro cs rest hnot hhead
    obtain ⟨more, rfl⟩ := List.head?_eq_some_iff.mp hhead
    exact ⟨Text.takeWhile_mark hnot more, Text.dropWhile_mark hnot more⟩
  have hword : ∀ word rest, Text.afterWord? word (word ++ rest) = some rest :=
    fun _ _ => Text.afterWord?_eq_some_iff.mpr rfl
  have hend : ("</rt></ruby>".toList ++ behind).head? = some '<' := rfl
  have hmiddle : ("<rt>".toList ++ (reading ++ ("</rt></ruby>".toList ++ behind))).head?
      = some '<' := rfl
  obtain ⟨htakeBase, hdropBase⟩ := hcut hbase hmiddle
  obtain ⟨htakeReading, hdropReading⟩ := hcut hreading hend
  rw [markup_append, markupAt?]
  simp only [hword, hdropBase, hdropReading, htakeBase, htakeReading, Option.bind_eq_bind,
    Option.bind_some]

theorem replaceMarkup_of_some (h : markupAt? cs = some (base, reading, behind)) :
    replaceMarkup write cs = write base reading ++ replaceMarkup write behind := by
  rw [replaceMarkup.eq_def]
  split
  · rename_i hfound
    rw [h] at hfound
    cases hfound
    rfl
  · rename_i hnone
    rw [h] at hnone
    cases hnone

theorem replaceMarkup_of_none (h : markupAt? (c :: rest) = none) :
    replaceMarkup write (c :: rest) = c :: replaceMarkup write rest := by
  rw [replaceMarkup.eq_def]
  split
  · rename_i hfound
    rw [h] at hfound
    cases hfound
  · rfl

theorem replaceMarkup_nil (write : List Char → List Char → List Char) :
    replaceMarkup write [] = [] := by
  rw [replaceMarkup.eq_def]
  rfl

/-- **Markup that was written for readings is found again**, if the text itself opens no tag. -/
theorem replaceMarkup_written (h : '<' ∉ written bracketed pieces)
    (write : List Char → List Char → List Char) :
    replaceMarkup write (written markup pieces) = written write pieces := by
  induction pieces with
  | nil => exact replaceMarkup_nil write
  | cons piece pieces ih =>
      cases piece with
      | plain c =>
          obtain ⟨hc, hrest⟩ := not_or.mp (mt List.mem_cons.mpr h)
          rw [written_plain, written_plain, replaceMarkup_of_none (markupAt?_of_ne (Ne.symm hc) _),
            ih hrest]
      | group base reading =>
          have hparts : '<' ∉ base ∧ '<' ∉ reading ∧ '<' ∉ written bracketed pieces := by
            simpa [bracketed] using h
          rw [written_group, written_group,
            replaceMarkup_of_some (markupAt?_markup hparts.1 hparts.2.1 _), ih hparts.2.2]

/-- Where no tag opens there is no markup. -/
theorem replaceMarkup_eq_self (h : '<' ∉ cs) (write : List Char → List Char → List Char) :
    replaceMarkup write cs = cs := by
  induction cs with
  | nil => exact replaceMarkup_nil write
  | cons c rest ih =>
      obtain ⟨hc, hrest⟩ := not_or.mp (mt List.mem_cons.mpr h)
      rw [replaceMarkup_of_none (markupAt?_of_ne (Ne.symm hc) _), ih hrest]

/-! ## What the filters give -/

/-- Han characters are base characters. -/
theorem isBase_of_isHan (h : isHan c = true) : isBase c = true := by
  -- the marks and ideographs all come after the last blank
  have hlow : 0x3000 < c.toNat := by
    simp only [isHan, Bool.or_eq_true, Bool.and_eq_true, beq_iff_eq, decide_eq_true_eq] at h
    omega
  have hblank : Text.isBlank c = false := by
    simp only [Text.isBlank, Bool.or_eq_false_iff, Bool.and_eq_false_iff, beq_eq_false_iff_ne,
      decide_eq_false_iff_not]
    omega
  have hne : ∀ d : Char, d.toNat ≤ 0x3000 → (c == d) = false := by
    rintro d hd
    refine beq_eq_false_iff_ne.mpr ?_
    rintro rfl
    omega
  rw [isBase, hblank, hne '[' (by decide), hne ']' (by decide), hne '<' (by decide),
    hne '>' (by decide)]
  rfl

theorem Pair.mono {other : Char → Bool} (hmono : ∀ c, inBase c = true → other c = true)
    (h : Pair inBase cs front reading behind) : Pair other cs front reading behind := by
  obtain ⟨hwritten, ⟨c, hc, hbase⟩, hread, hclosed⟩ := h
  exact ⟨hwritten, ⟨c, hc, hmono c hbase⟩, hread, hclosed⟩

theorem furigana_eq (h : Cut isBase cs pieces) : furigana cs = written markup pieces :=
  h.replaceReadings bracketless_isBase markup

/-- **From the markup, the readings in brackets can be told again.** -/
theorem replaceMarkup_furigana (h : '<' ∉ cs) : replaceMarkup bracketed (furigana cs) = cs := by
  obtain ⟨pieces, hcut⟩ := exists_cut bracketless_isBase cs
  rw [furigana_eq hcut, replaceMarkup_written (hcut.written ▸ h), hcut.written]

theorem kanji_eq (h : '<' ∉ cs) (hcut : Cut isHan cs pieces) :
    kanji cs = written (fun base _ => base) pieces := by
  rw [kanji, replaceMarkup_eq_self h, hcut.replaceReadings bracketless_isHan]

theorem kana_eq (h : '<' ∉ cs) (hcut : Cut isHan cs pieces) :
    kana cs = written (fun _ reading => reading) pieces := by
  rw [kana, replaceMarkup_eq_self h, hcut.replaceReadings bracketless_isHan]

end Flashcards.Ruby

namespace Flashcards.Filter

open Ruby

/--
**Readings are found where they stand, wherever the walk comes from.**

Every value is cut into groups and single characters so that the groups are the readings in brackets
right behind a base character, each with the longest run of base characters in front of it. The
furigana filter writes markup for each of them and copies the rest. If no tag opens in the value, what
is in the markup gives the value again, and the kanji and kana filters write the base or the reading
for the groups of Han characters, which all are among those that the furigana filter rewrites.
-/
theorem readings_local (ordinal : Int) (side : Side) (value : String) :
    (∃ pieces, Cut isBase value.toList pieces) ∧
    (∀ pieces, Cut isBase value.toList pieces →
      Filter.furigana.apply ordinal side value = .ok (String.ofList (written markup pieces))) ∧
    ('<' ∉ value.toList →
      (∀ shown, Filter.furigana.apply ordinal side value = .ok shown →
        replaceMarkup bracketed shown.toList = value.toList) ∧
      (∃ pieces, Cut isHan value.toList pieces) ∧
      ∀ pieces, Cut isHan value.toList pieces →
        Filter.kanji.apply ordinal side value
          = .ok (String.ofList (written (fun base _ => base) pieces)) ∧
        Filter.kana.apply ordinal side value
          = .ok (String.ofList (written (fun _ reading => reading) pieces)) ∧
        ∀ others, Cut isBase value.toList others → ∀ before base reading behind,
          Standing pieces before base reading behind → ∃ before' base',
            before' ++ base' = before ++ base ∧ Standing others before' base' reading behind) := by
  refine ⟨exists_cut bracketless_isBase _, fun pieces hcut => ?_, fun h =>
    ⟨fun shown hshown => ?_, exists_cut bracketless_isHan _, fun pieces hcut => ⟨?_, ?_, ?_⟩⟩⟩
  · rw [apply, furigana_eq hcut]
  · cases hshown
    rw [String.toList_ofList, replaceMarkup_furigana h]
  · rw [apply, kanji_eq h hcut]
  · rw [apply, kana_eq h hcut]
  · intro others hother before base reading behind hstanding
    have hpair := ((hcut.groups _ _ _ _).mp hstanding).1
    exact hother.standing_of_pair (hpair.mono fun c => isBase_of_isHan)

/-- A value with a reading for Han characters and one for a letter, and with brackets that hold
none. -/
def readingsSample : String := "漢字[かんじ] a[b] [c"

/-- Its pieces for the furigana filter. -/
def basePieces : List Piece :=
  [.group ['漢', '字'] ['か', 'ん', 'じ'], .plain ' ', .group ['a'] ['b'],
    .plain ' ', .plain '[', .plain 'c']

/-- Its pieces for the kanji and kana filters. -/
def hanPieces : List Piece :=
  [.group ['漢', '字'] ['か', 'ん', 'じ'], .plain ' ', .plain 'a', .plain '[',
    .plain 'b', .plain ']', .plain ' ', .plain '[', .plain 'c']

theorem readings_local_sample :
    Filter.furigana.apply 0 .question readingsSample
      = .ok "<ruby>漢字<rt>かんじ</rt></ruby> <ruby>a<rt>b</rt></ruby> [c" ∧
    Filter.kanji.apply 0 .question readingsSample = .ok "漢字 a[b] [c" ∧
    Filter.kana.apply 0 .question readingsSample = .ok "かんじ a[b] [c" := by
  have hsource : written bracketed basePieces = readingsSample.toList ∧
      written bracketed hanPieces = readingsSample.toList := by decide
  have hbase : Laid isBase basePieces := by decide
  have hhan : Laid isHan hanPieces := by decide
  have hbase := hsource.1 ▸ hbase.cut bracketless_isBase
  have hhan := hsource.2 ▸ hhan.cut bracketless_isHan
  obtain ⟨-, hfurigana, hplain⟩ := readings_local 0 .question readingsSample
  obtain ⟨-, -, hothers⟩ := hplain (by decide)
  obtain ⟨hkanji, hkana, -⟩ := hothers hanPieces hhan
  refine ⟨?_, ?_, ?_⟩
  · rw [hfurigana _ hbase]
    decide
  · rw [hkanji]
    decide
  · rw [hkana]
    decide

end Flashcards.Filter
