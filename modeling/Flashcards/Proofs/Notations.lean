import Flashcards.Proofs.Dependence
import Flashcards.Proofs.Readings

/-!
# Two notations for readings

Readings may be written in brackets or in markup, and the furigana filter turns the first into the
second. The kanji and kana filters should not tell them apart: on a passage of Han characters with
readings, each group behind a blank, another group or nothing, they give the same before and after the
furigana filter. The blanks make the three filters see the same groups (`Passage.laid`), and once the
readings are taken off no bracket is left that could begin another one.
-/

namespace Flashcards.Ruby

variable {inBase : Char → Bool} {write : List Char → List Char → List Char} {cs gap : List Char}

/-! ## Texts without readings -/

/-- A run that ends within a text has a character of the text behind it. -/
theorem head?_dropWhile_append (h : ∃ c ∈ gap, inBase c = false) (cs : List Char) :
    ∃ c ∈ gap, ((gap ++ cs).dropWhile inBase).head? = some c := by
  obtain ⟨c, hc, hnot⟩ := h
  have hne : gap.dropWhile inBase ≠ [] := fun hnil => by
    have hall := List.dropWhile_eq_nil_iff.mp hnil c hc
    rw [hnot] at hall
    cases hall
  obtain ⟨d, more, hdrop⟩ := List.exists_cons_of_ne_nil hne
  refine ⟨d, (List.dropWhile_suffix inBase).subset (hdrop ▸ List.mem_cons_self), ?_⟩
  rw [List.dropWhile_append, hdrop]
  rfl

/-- Where no bracket opens there is no reading behind a run. -/
theorem readingAt?_dropWhile_eq_none (h : '[' ∉ cs) : readingAt? (cs.dropWhile inBase) = none :=
  readingAt?_of_head? fun hhead =>
    h ((List.dropWhile_suffix inBase).subset (List.mem_of_head? hhead))

/-- A text in which no bracket opens is laid out character by character. -/
theorem laid_map_plain (h : '[' ∉ cs) : Laid inBase (cs.map .plain) := by
  induction cs with
  | nil => exact .nil
  | cons c rest ih =>
      have hrest := (not_or.mp (mt List.mem_cons.mpr h)).2
      refine .plain (ih hrest) fun _ => ?_
      rw [written_map_plain]
      exact readingAt?_dropWhile_eq_none hrest

/-- In front of pieces that are laid out there may be a text that ends on no base character. -/
theorem Laid.behind_gap {pieces : List Piece} (h : Laid inBase pieces) (hgap : '[' ∉ gap)
    (hend : ∀ c ∈ gap.getLast?, inBase c = false) : Laid inBase (gap.map .plain ++ pieces) := by
  induction gap with
  | nil => exact h
  | cons c more ih =>
      have hmore := (not_or.mp (mt List.mem_cons.mpr hgap)).2
      cases hlast : more.getLast? with
      | none =>
          obtain rfl := List.getLast?_eq_none_iff.mp hlast
          refine .plain h fun hc => ?_
          rw [hend c rfl] at hc
          cases hc
      | some d =>
          have hd : inBase d = false := hend d (by rw [List.getLast?_cons, hlast]; rfl)
          -- the run ends within the text
          obtain ⟨e, he, hfirst⟩ := head?_dropWhile_append
            ⟨d, List.mem_of_getLast? hlast, hd⟩ (written bracketed pieces)
          have hwhole : written bracketed (more.map .plain ++ pieces)
              = more ++ written bracketed pieces := by
            rw [written_append, written_map_plain]
          refine .plain (ih hmore fun f hf => ?_) fun _ => readingAt?_of_head? fun hhead => ?_
          · rw [hlast] at hf
            cases hf
            exact hd
          · rw [← hwhole] at hfirst
            cases hfirst.symm.trans hhead
            exact hmore he

/-- Where no bracket opens nothing is replaced. -/
theorem replaceReadings_eq_self (hout : Bracketless inBase) (h : '[' ∉ cs) :
    replaceReadings inBase write cs = cs := by
  have hlaid : Laid inBase (cs.map .plain) := laid_map_plain h
  have hwhole := hlaid.replaceReadings hout write
  rwa [written_map_plain, written_map_plain] at hwhole

/-! ## Passages -/

/-- A character that writes neither brackets nor tags. -/
def IsPlain (c : Char) : Prop := c ≠ '[' ∧ c ≠ ']' ∧ c ≠ '<' ∧ c ≠ '>'

/-- Han characters with a reading, and the text in front of them, which is empty or ends in a
blank. -/
structure Glossed where
  gap : List Char
  base : List Char
  reading : List Char
  gapPlain : ∀ c ∈ gap, IsPlain c
  apart : ∀ c ∈ gap.getLast?, Text.isBlank c = true
  based : base ≠ []
  allHan : ∀ c ∈ base, isHan c = true
  read : reading ≠ []
  readPlain : ∀ c ∈ reading, IsPlain c

/-- A text in which Han characters have readings. -/
structure Passage where
  parts : List Glossed
  rest : List Char
  restPlain : ∀ c ∈ rest, IsPlain c

/-- The pieces of Han characters with a reading and the text in front of them. -/
def Glossed.pieces (part : Glossed) : List Piece :=
  part.gap.map .plain ++ [.group part.base part.reading]

namespace Passage

/-- The pieces of a passage. -/
def pieces (passage : Passage) : List Piece :=
  passage.parts.flatMap Glossed.pieces ++ passage.rest.map .plain

/-- The texts of a passage in order, with something written for Han characters and their
reading. -/
def shown (write : List Char → List Char → List Char) (passage : Passage) : List Char :=
  passage.parts.flatMap (fun part => part.gap ++ write part.base part.reading) ++ passage.rest

theorem written_pieces (write : List Char → List Char → List Char) (passage : Passage) :
    written write passage.pieces = passage.shown write := by
  rw [pieces, shown, written_append, written_map_plain, written, List.flatMap_assoc]
  refine congrArg (fun front => front ++ passage.rest) (List.flatMap_congr fun part _ => ?_)
  rw [Glossed.pieces, ← written, written_append, written_map_plain, written_group, written_nil,
    List.append_nil]

end Passage

theorem not_mem_of_isPlain (h : ∀ c ∈ cs, IsPlain c) : '[' ∉ cs ∧ '<' ∉ cs :=
  ⟨fun hmem => (h _ hmem).1 rfl, fun hmem => (h _ hmem).2.2.1 rfl⟩

/-- A blank is no base character. -/
theorem isBase_of_isBlank {c : Char} (h : Text.isBlank c = true) : isBase c = false := by
  rw [isBase, h, Bool.or_true]
  rfl

theorem isHan_of_isBlank {c : Char} (h : Text.isBlank c = true) : isHan c = false := by
  refine Bool.eq_false_iff.mpr fun hhan => ?_
  have hbase := isBase_of_isHan hhan
  rw [isBase_of_isBlank h] at hbase
  cases hbase

/-- Han characters open no tag. -/
theorem Glossed.tag_not_mem_base (part : Glossed) : '<' ∉ part.base :=
  fun hmem => absurd (part.allHan _ hmem) (by decide)

namespace Passage

/-- A passage is laid out for all filters that take Han characters into the base and leave out
blanks. -/
theorem laid (hhan : ∀ c, isHan c = true → inBase c = true)
    (hblank : ∀ c, Text.isBlank c = true → inBase c = false) (passage : Passage) :
    Laid inBase passage.pieces := by
  obtain ⟨parts, rest, hrest⟩ := passage
  rw [pieces]
  induction parts with
  | nil => exact laid_map_plain (not_mem_of_isPlain hrest).1
  | cons part parts ih =>
      have hgroup : IsGroup inBase part.base part.reading :=
        ⟨part.based, fun c hc => hhan c (part.allHan c hc), part.read,
          fun c hc => ⟨(part.readPlain c hc).1, (part.readPlain c hc).2.1⟩⟩
      have hlaid := (Laid.group ih hgroup).behind_gap (not_mem_of_isPlain part.gapPlain).1
        fun c hc => hblank c (part.apart c hc)
      simpa [Glossed.pieces] using hlaid

theorem cut_isBase (passage : Passage) : Cut isBase (passage.shown bracketed) passage.pieces := by
  rw [← written_pieces]
  exact (passage.laid (fun _ => isBase_of_isHan) fun _ => isBase_of_isBlank).cut bracketless_isBase

theorem cut_isHan (passage : Passage) : Cut isHan (passage.shown bracketed) passage.pieces := by
  rw [← written_pieces]
  exact (passage.laid (fun _ h => h) fun _ => isHan_of_isBlank).cut bracketless_isHan

/-- A mark that is in no text of a passage is not in what is shown of it. -/
theorem not_mem_shown {mark : Char} (passage : Passage) (hplain : ∀ c, IsPlain c → mark ≠ c)
    (hwrite : ∀ part ∈ passage.parts, mark ∉ write part.base part.reading) :
    mark ∉ passage.shown write := by
  simp only [shown, List.mem_append, List.mem_flatMap, not_or, not_exists, not_and]
  exact ⟨fun part hpart => ⟨fun hmem => hplain _ (part.gapPlain _ hmem) rfl, hwrite part hpart⟩,
    fun hmem => hplain _ (passage.restPlain _ hmem) rfl⟩

theorem tag_not_mem (passage : Passage) : '<' ∉ passage.shown bracketed := by
  refine passage.not_mem_shown (fun c hc => hc.2.2.1.symm) fun part _ => ?_
  simpa [bracketed] using ⟨part.tag_not_mem_base, (not_mem_of_isPlain part.readPlain).2⟩

theorem furigana_shown (passage : Passage) :
    furigana (passage.shown bracketed) = passage.shown markup := by
  rw [furigana_eq passage.cut_isBase, written_pieces]

/-- What replaces the markup of a passage is found for each group. -/
theorem replaceMarkup_shown (passage : Passage) (write : List Char → List Char → List Char) :
    replaceMarkup write (passage.shown markup) = passage.shown write := by
  rw [← written_pieces, replaceMarkup_written, written_pieces]
  rw [written_pieces]
  exact passage.tag_not_mem

theorem kanji_shown (passage : Passage) :
    kanji (passage.shown bracketed) = passage.shown fun base _ => base := by
  rw [kanji_eq passage.tag_not_mem passage.cut_isHan, written_pieces]

theorem kana_shown (passage : Passage) :
    kana (passage.shown bracketed) = passage.shown fun _ reading => reading := by
  rw [kana_eq passage.tag_not_mem passage.cut_isHan, written_pieces]

/-- The kanji filter takes the readings off the markup, too, and finds no others. -/
theorem kanji_markup (passage : Passage) :
    kanji (passage.shown markup) = passage.shown fun base _ => base := by
  rw [kanji, replaceMarkup_shown]
  refine replaceReadings_eq_self bracketless_isHan
    (passage.not_mem_shown (fun c hc => hc.1.symm) fun part _ hmem => ?_)
  exact absurd (part.allHan _ hmem) (by decide)

theorem kana_markup (passage : Passage) :
    kana (passage.shown markup) = passage.shown fun _ reading => reading := by
  rw [kana, replaceMarkup_shown]
  exact replaceReadings_eq_self bracketless_isHan
    (passage.not_mem_shown (fun c hc => hc.1.symm) fun part _ =>
      (not_mem_of_isPlain part.readPlain).1)

end Passage

end Flashcards.Ruby

namespace Flashcards.Filter

open Ruby Template

/--
**The kanji and kana filters read both notations alike.**

On a passage with readings in brackets, and on what the furigana filter makes of it, the kanji filter
gives the texts and the Han characters in order and the kana filter the texts and the readings. So
these filters may stand in front of the furigana filter in a template as well as alone.
-/
theorem notations_agree (passage : Passage) (context : Context) :
    let value := String.ofList (passage.shown bracketed)
    let bases := String.ofList (passage.shown fun base _ => base)
    let readings := String.ofList (passage.shown fun _ reading => reading)
    Filter.kanji.apply context.ordinal context.side value = .ok bases ∧
    Filter.kana.apply context.ordinal context.side value = .ok readings ∧
    (∃ marked, Filter.furigana.apply context.ordinal context.side value = .ok marked ∧
      Filter.kanji.apply context.ordinal context.side marked = .ok bases ∧
      Filter.kana.apply context.ordinal context.side marked = .ok readings) ∧
    applyFilters context value [.kanji, .furigana] = applyFilters context value [.kanji] ∧
    applyFilters context value [.kana, .furigana] = applyFilters context value [.kana] := by
  intro value bases readings
  have hkanji : Filter.kanji.apply context.ordinal context.side value = .ok bases := by
    rw [apply, String.toList_ofList, passage.kanji_shown]
  have hkana : Filter.kana.apply context.ordinal context.side value = .ok readings := by
    rw [apply, String.toList_ofList, passage.kana_shown]
  have hmarked : Filter.furigana.apply context.ordinal context.side value
      = .ok (String.ofList (passage.shown markup)) := by
    rw [apply, String.toList_ofList, passage.furigana_shown]
  have hkanjiMarked : Filter.kanji.apply context.ordinal context.side
      (String.ofList (passage.shown markup)) = .ok bases := by
    rw [apply, String.toList_ofList, passage.kanji_markup]
  have hkanaMarked : Filter.kana.apply context.ordinal context.side
      (String.ofList (passage.shown markup)) = .ok readings := by
    rw [apply, String.toList_ofList, passage.kana_markup]
  have hone : ∀ filter : Filter, applyFilters context value [filter]
      = filter.apply context.ordinal context.side value := fun _ => rfl
  refine ⟨hkanji, hkana, ⟨_, hmarked, hkanjiMarked, hkanaMarked⟩, ?_, ?_⟩
  · rw [applyFilters_cons, hone, hone, hmarked, hkanji]
    exact hkanjiMarked
  · rw [applyFilters_cons, hone, hone, hmarked, hkana]
    exact hkanaMarked

/-- A sentence with two groups, one right behind the other. -/
def passageSample : Passage where
  parts := [
    { gap := "私は ".toList, base := "日本語".toList, reading := "にほんご".toList
      gapPlain := by simp [IsPlain], apart := by simp [Text.isBlank]
      based := by decide, allHan := by simp [isHan]
      read := by decide, readPlain := by simp [IsPlain] },
    { gap := [], base := "話".toList, reading := "はな".toList
      gapPlain := by simp, apart := by simp
      based := by decide, allHan := by simp [isHan]
      read := by decide, readPlain := by simp [IsPlain] }]
  rest := "す".toList
  restPlain := by simp [IsPlain]

theorem notations_agree_sample :
    applyFilters ⟨[], 0, .question⟩ "私は 日本語[にほんご]話[はな]す" [.kanji, .furigana]
      = .ok "私は 日本語話す" ∧
    applyFilters ⟨[], 0, .question⟩ "私は 日本語[にほんご]話[はな]す" [.kana, .furigana]
      = .ok "私は にほんごはなす" := by
  have hvalue : "私は 日本語[にほんご]話[はな]す"
      = String.ofList (passageSample.shown bracketed) := by decide
  obtain ⟨hkanji, hkana, -, hkanjiChain, hkanaChain⟩ :=
    notations_agree passageSample ⟨[], 0, .question⟩
  rw [hvalue, hkanjiChain, hkanaChain]
  exact ⟨hkanji.trans (by decide), hkana.trans (by decide)⟩

end Flashcards.Filter
