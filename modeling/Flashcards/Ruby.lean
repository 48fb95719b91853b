import Flashcards.Text.Cut

/-!
# Readings above characters

A reading stands in brackets behind the characters it belongs to, as in `漢字[かんじ]`, or in ruby
markup. The furigana filter turns brackets into markup. The kanji filter keeps only the characters
and the kana filter only the readings; these two take Han characters alone as the base, so that
kana and punctuation in front of it are kept.
-/

namespace Flashcards.Ruby

/-- What may stand in front of a bracketed reading: no bracket, no blank, no angle bracket. -/
def isBase (c : Char) : Bool :=
  !(c == '[' || c == ']' || c == '<' || c == '>' || Text.isBlank c)

/-- Han characters: the iteration and zero marks, and the ideographs of the unified and
compatibility blocks and of the extensions A to F. -/
def isHan (c : Char) : Bool :=
  let n := c.toNat
  n == 0x3005 || n == 0x3007 || n == 0x303B || (0x3400 ≤ n && n ≤ 0x4DBF)
    || (0x4E00 ≤ n && n ≤ 0x9FFF) || (0xF900 ≤ n && n ≤ 0xFAFF)
    || (0x20000 ≤ n && n ≤ 0x2EBEF)

/-- A reading in brackets at the front, and what follows it. -/
def readingAt? : List Char → Option (List Char × List Char)
  | '[' :: rest =>
    let inside := fun c : Char => c != '[' && c != ']'
    let reading := rest.takeWhile inside
    match rest.dropWhile inside with
    | ']' :: behind => if reading.isEmpty then none else some (reading, behind)
    | _ => none
  | _ => none

theorem readingAt?_length {cs reading behind : List Char}
    (h : readingAt? cs = some (reading, behind)) : behind.length < cs.length := by
  unfold readingAt? at h
  split at h
  · rename_i rest
    have hd := (List.dropWhile_suffix (l := rest) fun c : Char => c != '[' && c != ']').length_le
    dsimp only at h
    split at h
    · rename_i hb
      rw [hb] at hd
      split at h
      · simp at h
      · simp only [Option.some.injEq, Prod.mk.injEq] at h
        simp only [List.length_cons, ← h.2] at *
        omega
    · simp at h
  · simp at h

/-- Replaces every run of base characters with a reading in brackets behind it. -/
def replaceReadings (inBase : Char → Bool) (write : List Char → List Char → List Char)
    (cs : List Char) : List Char :=
  match cs with
  | [] => []
  | c :: rest =>
    if inBase c then
      let base := c :: rest.takeWhile inBase
      let behind := rest.dropWhile inBase
      match _h : readingAt? behind with
      | some (reading, after) => write base reading ++ replaceReadings inBase write after
      | none => base ++ replaceReadings inBase write behind
    else c :: replaceReadings inBase write rest
termination_by cs.length
decreasing_by
  · have h1 := readingAt?_length _h
    have h2 : (rest.dropWhile inBase).length ≤ rest.length := (List.dropWhile_suffix _).length_le
    have h3 : after.length < (rest.dropWhile inBase).length := h1
    simp only [List.length_cons]
    omega
  · have h2 : (rest.dropWhile inBase).length ≤ rest.length := (List.dropWhile_suffix _).length_le
    simp only [List.length_cons]
    omega
  · simp

/-- Characters with a reading above them, in markup. -/
def markup (base reading : List Char) : List Char :=
  "<ruby>".toList ++ base ++ "<rt>".toList ++ reading ++ "</rt></ruby>".toList

/-- Characters with a reading in markup at the front, and what follows them. -/
def markupAt? (cs : List Char) : Option (List Char × List Char × List Char) := do
  let inBase ← Text.afterWord? "<ruby>".toList cs
  let inReading ← Text.afterWord? "<rt>".toList (inBase.dropWhile (· != '<'))
  let behind ← Text.afterWord? "</rt></ruby>".toList (inReading.dropWhile (· != '<'))
  some (inBase.takeWhile (· != '<'), inReading.takeWhile (· != '<'), behind)

theorem markupAt?_length {cs base reading behind : List Char}
    (h : markupAt? cs = some (base, reading, behind)) : behind.length < cs.length := by
  simp only [markupAt?, Option.bind_eq_bind, Option.bind_eq_some_iff, Option.some.injEq,
    Prod.mk.injEq] at h
  obtain ⟨inBase, h1, inReading, h2, behind', h3, -, -, rfl⟩ := h
  have h1 := Text.afterWord?_length h1
  have h2 := Text.afterWord?_length h2
  have h3 := Text.afterWord?_length h3
  have d1 := (List.dropWhile_suffix (l := inBase) (· != '<')).length_le
  have d2 := (List.dropWhile_suffix (l := inReading) (· != '<')).length_le
  have : "<ruby>".toList.length = 6 := by decide
  omega

/-- Replaces all characters with a reading in markup. -/
def replaceMarkup (write : List Char → List Char → List Char) (cs : List Char) : List Char :=
  match _h : markupAt? cs with
  | some (base, reading, behind) => write base reading ++ replaceMarkup write behind
  | none =>
    match cs with
    | [] => []
    | c :: rest => c :: replaceMarkup write rest
termination_by cs.length
decreasing_by
  · exact markupAt?_length _h
  · simp

/-- Bracketed readings as markup. -/
def furigana (cs : List Char) : List Char := replaceReadings isBase markup cs

/-- The characters without their readings. -/
def kanji (cs : List Char) : List Char :=
  replaceReadings isHan (fun base _ => base) (replaceMarkup (fun base _ => base) cs)

/-- The readings in place of the characters. -/
def kana (cs : List Char) : List Char :=
  replaceReadings isHan (fun _ reading => reading) (replaceMarkup (fun _ reading => reading) cs)

end Flashcards.Ruby
