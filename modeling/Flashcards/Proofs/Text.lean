import Flashcards.Text.Line
import Mathlib.Data.List.Infix
import Mathlib.Data.List.TakeWhile

/-!
# Where text is trimmed and cut

Three facts about text carry everything that is proved about templates. Trimming leaves a text
alone exactly when neither end is blank. Cutting at separators takes off one piece at a time. And
the first pair of a mark is found at the only place where no pair lies in front of it.

The last one is stated with the mark put back behind the part in front, as `NoPair mark (before ++
[mark])`: the part in front must not hold a pair, and must not end in the mark either, or the pair
would have been found one character earlier.
-/

namespace Flashcards.Text

/-! ## Trimming -/

/-- Neither end of the text is blank. -/
def Tight (cs : List Char) : Prop :=
  (∀ c, cs.head? = some c → isBlank c = false) ∧ ∀ c, cs.getLast? = some c → isBlank c = false

theorem trimRight_isPrefix (cs : List Char) : trimRight cs <+: cs := by
  have h := List.dropWhile_suffix isBlank (l := cs.reverse)
  rw [← List.reverse_prefix, List.reverse_reverse] at h
  exact h

theorem trim_isInfix (cs : List Char) : trim cs <:+: cs :=
  (trimRight_isPrefix _).isInfix.trans (List.dropWhile_suffix isBlank).isInfix

theorem head?_dropWhile_isBlank {cs : List Char} {c : Char}
    (h : (cs.dropWhile isBlank).head? = some c) : isBlank c = false := by
  have := List.head?_dropWhile_not isBlank cs
  rw [h] at this
  simpa using this

theorem trimRight_getLast? {cs : List Char} {c : Char}
    (h : (trimRight cs).getLast? = some c) : isBlank c = false := by
  unfold trimRight at h
  rw [List.getLast?_reverse] at h
  exact head?_dropWhile_isBlank h

theorem trimRight_head? {cs : List Char} {c : Char}
    (h : (trimRight cs).head? = some c) : cs.head? = some c := by
  obtain ⟨tail, htail⟩ := trimRight_isPrefix cs
  rw [← htail, List.head?_append, h]
  rfl

theorem tight_trim (cs : List Char) : Tight (trim cs) := by
  constructor
  · intro c hc
    exact head?_dropWhile_isBlank (trimRight_head? hc)
  · intro c hc
    exact trimRight_getLast? hc

theorem dropWhile_isBlank_of_head? {cs : List Char}
    (h : ∀ c, cs.head? = some c → isBlank c = false) : cs.dropWhile isBlank = cs := by
  cases cs with
  | nil => rfl
  | cons a rest => rw [List.dropWhile_cons_of_neg (by simp [h a rfl])]

/-- **Trimming leaves a text alone exactly when neither end is blank.** -/
theorem trim_eq_self_iff {cs : List Char} : trim cs = cs ↔ Tight cs := by
  constructor
  · intro h
    rw [← h]
    exact tight_trim cs
  · intro h
    have hl : trimLeft cs = cs := dropWhile_isBlank_of_head? h.1
    unfold trim trimRight
    rw [hl, dropWhile_isBlank_of_head? (by rw [List.head?_reverse]; exact h.2),
      List.reverse_reverse]

theorem trim_trim (cs : List Char) : trim (trim cs) = trim cs :=
  trim_eq_self_iff.mpr (tight_trim cs)

/-- Nothing is left of a text of blanks, and of no other. -/
theorem trim_eq_nil_iff {cs : List Char} : trim cs = [] ↔ ∀ c ∈ cs, isBlank c = true := by
  unfold trim trimRight trimLeft
  rw [List.reverse_eq_nil_iff, List.dropWhile_eq_nil_iff]
  constructor
  · intro h
    rw [← List.dropWhile_eq_nil_iff]
    -- what is not dropped in front begins with a character that is not blank
    cases hleft : cs.dropWhile isBlank with
    | nil => rfl
    | cons c rest =>
        have hblank := h c (List.mem_reverse.mpr (hleft ▸ List.mem_cons_self))
        rw [head?_dropWhile_isBlank (c := c) (by rw [hleft]; rfl)] at hblank
        cases hblank
  · exact fun h c hc => h c ((List.dropWhile_suffix _).subset (List.mem_reverse.mp hc))

@[simp] theorem toList_trimmed (s : String) : (trimmed s).toList = trim s.toList :=
  String.toList_ofList

theorem trimmed_eq_self_iff {s : String} : trimmed s = s ↔ Tight s.toList := by
  rw [← trim_eq_self_iff, ← toList_trimmed, String.toList_inj]

theorem trimmed_trimmed (s : String) : trimmed (trimmed s) = trimmed s := by
  rw [trimmed_eq_self_iff, toList_trimmed]
  exact tight_trim _

theorem trimmed_eq_empty_iff {s : String} :
    trimmed s = "" ↔ ∀ c ∈ s.toList, isBlank c = true := by
  rw [← trim_eq_nil_iff, ← String.toList_eq_nil_iff, toList_trimmed]

theorem tight_of_forall {cs : List Char} (h : ∀ c ∈ cs, isBlank c = false) : Tight cs :=
  ⟨fun c hc => h c (List.mem_of_mem_head? hc), fun c hc => h c (List.mem_of_mem_getLast? hc)⟩

/-- A tight text is what is left of it between blanks. -/
theorem trim_between_blanks {cs : List Char} (h : Tight cs) :
    trim (' ' :: (cs ++ [' '])) = cs := by
  have hblank : isBlank ' ' = true := by decide
  have hl : trimLeft (' ' :: (cs ++ [' '])) = trimLeft (cs ++ [' ']) :=
    List.dropWhile_cons_of_pos hblank
  have hr : trimRight (cs ++ [' ']) = cs := by
    unfold trimRight
    rw [List.reverse_append, List.reverse_singleton, List.singleton_append,
      List.dropWhile_cons_of_pos hblank,
      dropWhile_isBlank_of_head? (by rw [List.head?_reverse]; exact h.2), List.reverse_reverse]
  unfold trim
  rw [hl]
  -- of an empty text nothing stops the left trim, which then takes the second blank as well
  cases cs with
  | nil => rfl
  | cons a rest =>
      have ha : isBlank a = false := h.1 a rfl
      have hkeep : trimLeft (a :: rest ++ [' ']) = a :: rest ++ [' '] :=
        dropWhile_isBlank_of_head? (by simpa using ha)
      rw [hkeep, hr]

/-- A tight text may be put behind another that neither begins nor ends with a blank. -/
theorem tight_append {front cs : List Char} (hf : Tight front) (hne : front ≠ [])
    (h : Tight cs) : Tight (front ++ cs) := by
  constructor
  · intro c hc
    rw [List.head?_append_of_ne_nil _ hne] at hc
    exact hf.1 c hc
  · intro c hc
    rw [List.getLast?_append] at hc
    cases hl : cs.getLast? with
    | none =>
        rw [hl] at hc
        exact hf.2 c hc
    | some d =>
        rw [hl] at hc
        exact h.2 c (hl.trans hc)

/-! ## Pieces between separators -/

section Pieces

variable {isSeparator : Char → Bool}

theorem pieces_cons_separator {s : Char} (hs : isSeparator s = true) (rest : List Char) :
    pieces isSeparator (s :: rest) = [] :: pieces isSeparator rest := by
  simp [pieces, cut, hs]

theorem pieces_cons_other {c : Char} (hc : isSeparator c = false) (rest : List Char) :
    pieces isSeparator (c :: rest)
      = (c :: (pieces isSeparator rest).head (pieces_ne_nil _ _))
        :: (pieces isSeparator rest).tail := by
  simp [pieces, cut, hc]

/-- A text without separators is its only piece. -/
theorem pieces_eq_singleton {cs : List Char} (h : ∀ c ∈ cs, isSeparator c = false) :
    pieces isSeparator cs = [cs] := by
  induction cs with
  | nil => rfl
  | cons c rest ih =>
      rw [pieces_cons_other (h c List.mem_cons_self)]
      have hrest := ih fun d hd => h d (List.mem_cons_of_mem _ hd)
      simp [hrest]

/-- At a separator the pieces of a text fall apart into those in front of it and those behind. -/
theorem pieces_append_cons {s : Char} (hs : isSeparator s = true) (front rest : List Char) :
    pieces isSeparator (front ++ s :: rest) = pieces isSeparator front ++ pieces isSeparator rest := by
  induction front with
  | nil => exact pieces_cons_separator hs rest
  | cons c front ih =>
      by_cases hc : isSeparator c = true
      · rw [List.cons_append, pieces_cons_separator hc, pieces_cons_separator hc, ih,
          List.cons_append]
      · rw [Bool.not_eq_true] at hc
        obtain ⟨piece, more, hpieces⟩ := List.exists_cons_of_ne_nil (pieces_ne_nil isSeparator front)
        simp only [List.cons_append, pieces_cons_other hc, ih, hpieces, List.head_cons,
          List.tail_cons]

/-- The first piece ends at the first separator. -/
theorem pieces_append_separator {w : List Char} {s : Char} (hw : ∀ c ∈ w, isSeparator c = false)
    (hs : isSeparator s = true) (rest : List Char) :
    pieces isSeparator (w ++ s :: rest) = w :: pieces isSeparator rest := by
  rw [pieces_append_cons hs, pieces_eq_singleton hw]
  rfl

theorem not_isSeparator_of_mem_pieces {cs piece : List Char}
    (h : piece ∈ pieces isSeparator cs) : ∀ c ∈ piece, isSeparator c = false := by
  -- the first character either begins a new piece or joins the first one of the rest
  induction cs generalizing piece with
  | nil => simp_all [pieces, cut]
  | cons a rest ih =>
      by_cases ha : isSeparator a = true
      · rw [pieces_cons_separator ha] at h
        rcases List.mem_cons.mp h with rfl | h
        · simp
        · exact ih h
      · rw [Bool.not_eq_true] at ha
        rw [pieces_cons_other ha] at h
        rcases List.mem_cons.mp h with rfl | h
        · intro c hc
          rcases List.mem_cons.mp hc with rfl | hc
          · exact ha
          · exact ih (List.head_mem (pieces_ne_nil _ _)) c hc
        · exact ih (List.mem_of_mem_tail h)

/-- The last piece is the end of the text, and all of it where there is no other. -/
theorem getLast_pieces (cs : List Char) :
    (pieces isSeparator cs).getLast (pieces_ne_nil _ _) <:+ cs
      ∧ ((pieces isSeparator cs).tail = [] →
          (pieces isSeparator cs).getLast (pieces_ne_nil _ _) = cs) := by
  induction cs with
  | nil => simp [pieces, cut]
  | cons a rest ih =>
      obtain ⟨p, more, hp⟩ := List.exists_cons_of_ne_nil (pieces_ne_nil isSeparator rest)
      by_cases ha : isSeparator a = true
      · simp only [pieces_cons_separator ha, List.getLast_cons (pieces_ne_nil _ _), List.tail_cons]
        refine ⟨ih.1.trans (List.suffix_cons _ _), fun h => absurd h (pieces_ne_nil _ _)⟩
      · rw [Bool.not_eq_true] at ha
        simp only [pieces_cons_other ha, hp, List.head_cons, List.tail_cons] at ih ⊢
        cases more with
        | nil => simp_all
        | cons q more =>
            refine ⟨?_, fun h => absurd h (List.cons_ne_nil _ _)⟩
            simp only [List.getLast_cons (List.cons_ne_nil q more)] at ih ⊢
            exact ih.1.trans (List.suffix_cons _ _)

end Pieces

/-! ## Words between blanks -/

section Words

variable {s word : String} {cs : List Char}

/-- Words are not empty and have no blanks in them. -/
theorem spec_of_mem_words (h : word ∈ words s) :
    word ≠ "" ∧ ∀ c ∈ word.toList, isBlank c = false := by
  obtain ⟨piece, hpiece, rfl⟩ := List.mem_map.mp h
  obtain ⟨hpiece, hne⟩ := List.mem_filter.mp hpiece
  rw [String.toList_ofList]
  refine ⟨fun hempty => ?_, not_isSeparator_of_mem_pieces hpiece⟩
  rw [← String.toList_eq_nil_iff, String.toList_ofList] at hempty
  simp [hempty] at hne

/-- A text without blanks is its only word. -/
theorem words_eq_singleton (hne : s ≠ "") (h : ∀ c ∈ s.toList, isBlank c = false) :
    words s = [s] := by
  rw [ne_eq, ← String.toList_eq_nil_iff] at hne
  rw [words, pieces_eq_singleton h, List.filter_singleton]
  simp [hne]

/-- At a blank the words of a text fall apart into those in front of it and those behind. -/
theorem words_append_cons {c : Char} (hc : isBlank c = true) (front rest : List Char) :
    words (String.ofList (front ++ c :: rest))
      = words (String.ofList front) ++ words (String.ofList rest) := by
  simp only [words, String.toList_ofList, pieces_append_cons hc, List.filter_append,
    List.map_append]

/-- A text of blanks has no words, and no other. -/
theorem words_eq_nil_iff : words s = [] ↔ ∀ c ∈ s.toList, isBlank c = true := by
  have hpieces : ∀ cs : List Char,
      (pieces isBlank cs).filter (· ≠ []) = [] ↔ ∀ c ∈ cs, isBlank c = true := by
    intro cs
    induction cs with
    | nil => simp [pieces, cut]
    | cons c rest ih =>
        by_cases hc : isBlank c = true
        · rw [pieces_cons_separator hc, List.forall_mem_cons, ← ih]
          simp [hc]
        · rw [pieces_cons_other (Bool.eq_false_iff.mpr hc), List.forall_mem_cons]
          simp [hc]
  rw [words, List.map_eq_nil_iff, hpieces]

/-- A text that neither begins nor ends with a blank, but holds one, has several words. -/
theorem one_lt_length_words (h : Tight cs) {c : Char} (hmem : c ∈ cs) (hc : isBlank c = true) :
    1 < (words (String.ofList cs)).length := by
  obtain ⟨front, rest, rfl⟩ := List.append_of_mem hmem
  -- there is a word in front of the blank and another behind it
  have hfront : words (String.ofList front) ≠ [] := by
    rw [ne_eq, words_eq_nil_iff, String.toList_ofList]
    intro hblank
    cases front with
    | nil => simp [h.1 c rfl] at hc
    | cons a front => simpa [hblank a List.mem_cons_self] using h.1 a rfl
  have hrest : words (String.ofList rest) ≠ [] := by
    rw [ne_eq, words_eq_nil_iff, String.toList_ofList]
    intro hblank
    rcases List.eq_nil_or_concat' rest with rfl | ⟨rest, a, rfl⟩
    · simp [h.2 c (by simp)] at hc
    · rw [← List.cons_append, ← List.append_assoc] at h
      simpa [hblank a (by simp)] using h.2 a List.getLast?_concat
  rw [words_append_cons hc, List.length_append]
  have := List.length_pos_iff.mpr hfront
  have := List.length_pos_iff.mpr hrest
  omega

/-- The words of texts with spaces between them are the words of the texts. -/
theorem words_intercalate (texts : List String) :
    words (" ".intercalate texts) = texts.flatMap words := by
  induction texts with
  | nil => rfl
  | cons first rest ih =>
      cases rest with
      | nil => simp
      | cons second rest =>
          have hcut : " ".intercalate (first :: second :: rest) = String.ofList
              (first.toList ++ ' ' :: (" ".intercalate (second :: rest)).toList) := by
            rw [String.intercalate_cons_cons, ← String.toList_inj]
            simp only [String.toList_append, String.toList_ofList, List.append_assoc]
            rfl
          rw [hcut, words_append_cons (by decide), String.ofList_toList, String.ofList_toList, ih]
          exact List.flatMap_cons.symm

/-- Cutting texts into words leaves them alone exactly if no blanks are in them. -/
theorem flatMap_words_eq_self_iff {texts : List String} (h : ∀ s ∈ texts, s ≠ "") :
    texts.flatMap words = texts ↔ ∀ s ∈ texts, ∀ c ∈ s.toList, isBlank c = false := by
  constructor
  · intro heq s hs
    rw [← heq] at hs
    obtain ⟨_, -, hword⟩ := List.mem_flatMap.mp hs
    exact (spec_of_mem_words hword).2
  · intro hsolid
    rw [List.flatMap_congr fun s hs => words_eq_singleton (h s hs) (hsolid s hs)]
    simp

end Words

/-- Texts that do not end a line are the lines of what is written with a line end behind each of
them. Behind the last one there is nothing. -/
theorem lines_join {texts : List String} (h : ∀ s ∈ texts, ∀ c ∈ s.toList, (c == '\n') = false) :
    lines (String.join (texts.map (· ++ "\n"))).toList = texts.map String.toList ++ [[]] := by
  induction texts with
  | nil => rfl
  | cons s texts ih =>
      obtain ⟨hs, htexts⟩ := List.forall_mem_cons.mp h
      have hcut : (String.join ((s :: texts).map (· ++ "\n"))).toList
          = s.toList ++ '\n' :: (String.join (texts.map (· ++ "\n"))).toList := by simp
      rw [hcut, lines, pieces_append_separator hs rfl]
      exact congrArg _ (ih htexts)

/-! ## Runs -/

section Runs

variable {inRun : Char → Bool} {run front : List Char} {c mark : Char}

/-- A run ends where the first other character stands. -/
theorem takeWhile_run (hrun : ∀ d ∈ run, inRun d = true) (hend : inRun c = false)
    (rest : List Char) : (run ++ c :: rest).takeWhile inRun = run := by
  rw [List.takeWhile_append_of_pos hrun, List.takeWhile_cons_of_neg (by simp [hend]),
    List.append_nil]

theorem dropWhile_run (hrun : ∀ d ∈ run, inRun d = true) (hend : inRun c = false)
    (rest : List Char) : (run ++ c :: rest).dropWhile inRun = c :: rest := by
  rw [List.dropWhile_append_of_pos hrun, List.dropWhile_cons_of_neg (by simp [hend])]

theorem ne_mark_of_mem (h : mark ∉ front) : ∀ d ∈ front, (d != mark) = true :=
  fun _ hd => bne_iff_ne.mpr (ne_of_mem_of_not_mem hd h)

/-- What is in front of the first mark is a run. -/
theorem takeWhile_mark (h : mark ∉ front) (back : List Char) :
    (front ++ mark :: back).takeWhile (· != mark) = front :=
  takeWhile_run (ne_mark_of_mem h) (bne_self_eq_false mark) back

theorem dropWhile_mark (h : mark ∉ front) (back : List Char) :
    (front ++ mark :: back).dropWhile (· != mark) = mark :: back :=
  dropWhile_run (ne_mark_of_mem h) (bne_self_eq_false mark) back

end Runs

/-! ## The first and the last mark -/

section Marks

variable {mark : Char} {front front' back back' part rest : List Char}

/-- A mark stands behind a part of the text that does not hold it. -/
theorem exists_before_mark (h : front ++ mark :: back = part ++ rest) (hpart : mark ∉ part) :
    ∃ more, front = part ++ more ∧ more ++ mark :: back = rest := by
  rcases List.append_eq_append_iff.mp h with ⟨more, rfl, hback⟩ | ⟨more, rfl, hrest⟩
  · cases more with
    | nil => exact ⟨[], by simp, hback⟩
    | cons c more =>
        obtain ⟨rfl, -⟩ := List.cons.inj hback
        simp at hpart
  · exact ⟨more, rfl, hrest.symm⟩

/-- And in front of such a part, if the text ends with it. -/
theorem exists_behind_mark (h : rest ++ part = front ++ mark :: back) (hpart : mark ∉ part) :
    ∃ more, rest = front ++ mark :: more ∧ back = more ++ part := by
  rcases List.append_eq_append_iff.mp h with ⟨more, rfl, rfl⟩ | ⟨more, rfl, hback⟩
  · simp at hpart
  · cases more with
    | nil =>
        rw [List.nil_append] at hback
        simp [← hback] at hpart
    | cons c more =>
        obtain ⟨rfl, rfl⟩ := List.cons.inj hback
        exact ⟨more, rfl, rfl⟩

/-- The first mark is found again. -/
theorem before_mark_inj (h : mark ∉ front) (h' : mark ∉ front')
    (heq : front ++ mark :: back = front' ++ mark :: back') : front = front' ∧ back = back' := by
  obtain ⟨more, rfl, hmore⟩ := exists_before_mark heq h'
  cases more with
  | nil => exact ⟨List.append_nil _, (List.cons.inj hmore).2⟩
  | cons c more =>
      obtain ⟨rfl, -⟩ := List.cons.inj hmore
      simp at h

/-- So is the last one. -/
theorem behind_mark_inj (h : mark ∉ back) (h' : mark ∉ back')
    (heq : front ++ mark :: back = front' ++ mark :: back') : front = front' ∧ back = back' := by
  have hreverse := congrArg List.reverse heq
  rw [List.reverse_append, List.reverse_append, List.reverse_cons, List.reverse_cons,
    List.append_assoc, List.append_assoc] at hreverse
  obtain ⟨hback, hfront⟩ := before_mark_inj (by simpa using h) (by simpa using h') hreverse
  exact ⟨List.reverse_injective hfront, List.reverse_injective hback⟩

end Marks

/-! ## The first pair of a mark -/

/-- The mark stands nowhere twice in a row. -/
def NoPair (mark : Char) (cs : List Char) : Prop := ¬ [mark, mark] <:+: cs

theorem NoPair.mono {mark : Char} {cs ds : List Char} (h : NoPair mark ds)
    (hi : cs <:+: ds) : NoPair mark cs :=
  fun hp => h (hp.trans hi)

theorem noPair_nil (mark : Char) : NoPair mark [] := by simp [NoPair]

theorem noPair_singleton (mark c : Char) : NoPair mark [c] := by
  intro h
  have := h.length_le
  simp at this

theorem noPair_cons_cons {mark a b : Char} {rest : List Char} :
    NoPair mark (a :: b :: rest) ↔ ¬ (a = mark ∧ b = mark) ∧ NoPair mark (b :: rest) := by
  unfold NoPair
  rw [List.infix_cons_iff, not_or]
  simp [List.cons_prefix_cons, eq_comm]

theorem noPair_of_not_mem {mark : Char} {cs : List Char} (h : mark ∉ cs) : NoPair mark cs :=
  fun hp => h (hp.subset List.mem_cons_self)

/-- Putting the mark behind a text makes no pair exactly when the text has none and does not end
in the mark. -/
theorem noPair_append_mark {mark : Char} {cs : List Char} :
    NoPair mark (cs ++ [mark]) ↔ NoPair mark cs ∧ cs.getLast? ≠ some mark := by
  -- a pair is seen two characters at a time, so each step looks at the one behind as well
  induction cs with
  | nil => simp [noPair_nil, noPair_singleton]
  | cons a rest ih =>
      cases rest with
      | nil => simp [noPair_cons_cons, noPair_singleton]
      | cons b rest =>
          rw [List.cons_append, List.cons_append, noPair_cons_cons, noPair_cons_cons,
            ← List.cons_append, ih, List.getLast?_cons_cons, and_assoc]

/-- A pair can only be made where two texts meet in the mark. -/
theorem noPair_append_other {mark c : Char} {cs : List Char} (hc : c ≠ mark)
    (h : NoPair mark cs) (ds : List Char) (hd : NoPair mark ds) : NoPair mark (cs ++ c :: ds) := by
  induction cs with
  | nil =>
      cases ds with
      | nil => exact noPair_singleton mark c
      | cons d ds => exact noPair_cons_cons.mpr ⟨fun hcd => hc hcd.1, hd⟩
  | cons a rest ih =>
      have hrest := ih (h.mono (List.suffix_cons a rest).isInfix)
      cases rest with
      | nil => exact noPair_cons_cons.mpr ⟨fun hac => hc hac.2, hrest⟩
      | cons b rest => exact noPair_cons_cons.mpr ⟨(noPair_cons_cons.mp h).1, hrest⟩

theorem cutAtPair_eq_none_iff {mark : Char} {cs : List Char} :
    cutAtPair mark cs = none ↔ NoPair mark cs := by
  fun_induction cutAtPair mark cs with
  | case1 => simp [noPair_nil]
  | case2 a => simp [noPair_singleton]
  | case3 a b rest hab => simp [noPair_cons_cons, hab]
  | case4 a b rest hab ih =>
      rw [Option.map_eq_none_iff, ih, noPair_cons_cons]
      simp [hab]

/-- **The first pair is the one with no pair in front of it.** -/
theorem cutAtPair_eq_some_iff {mark : Char} {cs before after : List Char} :
    cutAtPair mark cs = some (before, after)
      ↔ cs = before ++ mark :: mark :: after ∧ NoPair mark (before ++ [mark]) := by
  constructor
  · intro h
    refine ⟨eq_of_cutAtPair h, ?_⟩
    fun_induction cutAtPair mark cs generalizing before with
    | case1 => simp at h
    | case2 => simp at h
    | case3 a b rest hab =>
        simp only [Option.some.injEq, Prod.mk.injEq] at h
        rw [← h.1]
        exact noPair_singleton mark mark
    | case4 a b rest hab ih =>
        simp only [Option.map_eq_some_iff, Prod.mk.injEq] at h
        obtain ⟨⟨x, y⟩, hx, rfl, rfl⟩ := h
        have hfront := ih hx
        have hcs := eq_of_cutAtPair hx
        -- the text goes on with `b`, which is the first character of the rest of the front
        cases x with
        | nil =>
            have hb : b = mark := (List.cons.inj hcs).1
            exact noPair_cons_cons.mpr ⟨fun ha => hab ⟨ha.1, hb⟩, noPair_singleton mark mark⟩
        | cons c x =>
            have hb : b = c := (List.cons.inj hcs).1
            subst hb
            exact noPair_cons_cons.mpr ⟨hab, hfront⟩
  · rintro ⟨rfl, h⟩
    induction before with
    | nil => simp [cutAtPair]
    | cons a before ih =>
        have hrest := ih (h.mono (List.suffix_cons a _).isInfix)
        cases before with
        | nil =>
            -- if `a` were the mark, it would make a pair with the first one behind it
            have ha : a ≠ mark := fun he => (noPair_cons_cons.mp h).1 ⟨he, rfl⟩
            simp [cutAtPair, ha]
        | cons b before =>
            have hab := (noPair_cons_cons.mp h).1
            rw [List.cons_append] at hrest
            rw [List.cons_append, List.cons_append, cutAtPair, if_neg hab, hrest]
            rfl

end Flashcards.Text
