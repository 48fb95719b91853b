import Flashcards.Json.Reader
import Flashcards.Json.Writer
import Mathlib.Data.List.Infix

/-!
# Strings and numbers are read again

Inside a string the reader goes from character to character, and what is written for one of them
takes it over that one (`readString_stringChar`). It asks for more text behind an escape by number;
there is always the closing quote. Of a number the digits are taken together, so it is read again
if it is not too long and no more digits come behind it, nor a fraction or an exponent.
-/

namespace Flashcards.Json

variable {v : Value} {c : Char} {cs rest behind : List Char}

/-! ## Strings -/

section Strings

variable {start done : List Char} {letter : Char}

theorem readString_plain (hquote : c ≠ '"') (hslash : c ≠ '\\') (hcontrol : ¬ c.toNat < 0x20) :
    readString start done (c :: rest) = readString start (c :: done) rest := by
  rw [readString.eq_def]
  dsimp only
  rw [if_neg hquote, if_neg hslash, if_neg hcontrol]

theorem readString_close :
    readString start done ('"' :: rest) = .ok (String.ofList done.reverse, rest) := by
  rw [readString.eq_def]
  exact if_pos rfl

theorem readString_escape (h : readEscape letter rest = .ok (c, behind)) :
    readString start done ('\\' :: letter :: rest) = readString start (c :: done) behind := by
  rw [readString, if_neg (by decide), if_pos rfl]
  split
  · simp_all
  · simp_all

theorem readString_letter (h : escaped? letter = some c) (hletter : letter ≠ 'u') :
    readString start done ('\\' :: letter :: rest) = readString start (c :: done) rest := by
  refine readString_escape ?_
  rw [readEscape, if_neg hletter, h]

theorem hexValue?_hexDigit : ∀ digit < 16, hexValue? (Text.hexDigit digit) = some digit := by
  decide

theorem takeHex4_hexDigits {n : Nat} (h : n < 0x10000) :
    takeHex4 (Text.hexDigits 4 n ++ rest) = some (n, rest) := by
  have hdigit : ∀ m, hexValue? (Text.hexDigit (m % 16)) = some (m % 16) :=
    fun m => hexValue?_hexDigit _ (Nat.mod_lt m (by decide))
  have hn : ((n / 16 / 16 / 16 % 16 * 16 + n / 16 / 16 % 16) * 16 + n / 16 % 16) * 16 + n % 16
      = n := by omega
  simp [Text.hexDigits, takeHex4, hdigit, hn]

/-- A control character is read from its number, as something follows it. -/
theorem readEscape_control (hc : c.toNat < 0x20) (hrest : rest ≠ []) :
    readEscape 'u' (Text.hexDigits 4 c.toNat ++ rest) = .ok (c, rest) := by
  have hhigh : isHighSurrogate c.toNat = false := by
    simp only [isHighSurrogate, Bool.and_eq_false_iff, decide_eq_false_iff_not]
    omega
  have hlow : isLowSurrogate c.toNat = false := by
    simp only [isLowSurrogate, Bool.and_eq_false_iff, decide_eq_false_iff_not]
    omega
  have hempty : ¬ rest.isEmpty = true := by simpa using hrest
  rw [readEscape, if_pos rfl, readUnit, takeHex4_hexDigits (by omega)]
  dsimp only
  rw [if_neg hempty, if_neg (by simp [hhigh]), if_neg (by simp [hlow]), Char.ofNat_toNat]

/-- Inside a string, a character is read from what is written for it. -/
theorem readString_stringChar (c : Char) (hrest : rest ≠ []) :
    readString start done (stringChar c ++ rest) = readString start (c :: done) rest := by
  unfold stringChar
  split_ifs with hmark hfeed hreturn htab hback hform hcontrol
  · -- what is escaped by itself
    rcases hmark with rfl | rfl
    · exact readString_letter rfl (by decide)
    · exact readString_letter rfl (by decide)
  · exact hfeed ▸ readString_letter rfl (by decide)
  · exact hreturn ▸ readString_letter rfl (by decide)
  · exact htab ▸ readString_letter rfl (by decide)
  · exact hback ▸ readString_letter rfl (by decide)
  · exact hform ▸ readString_letter rfl (by decide)
  · exact readString_escape (readEscape_control hcontrol hrest)
  · obtain ⟨hquote, hslash⟩ := not_or.mp hmark
    exact readString_plain hquote hslash hcontrol

theorem readString_flatMap (cs rest : List Char) :
    readString start done (cs.flatMap stringChar ++ '"' :: rest)
      = .ok (String.ofList (done.reverse ++ cs), rest) := by
  induction cs generalizing done with
  | nil => rw [List.flatMap_nil, List.nil_append, List.append_nil, readString_close]
  | cons c cs ih =>
      rw [List.flatMap_cons, List.append_assoc, readString_stringChar c (by simp), ih,
        List.reverse_cons, List.append_assoc]
      rfl

/-- **A string is read again, whatever its characters are.** -/
theorem readString_stringChars (s : String) (rest : List Char) :
    readString start [] (s.toList.flatMap stringChar ++ '"' :: rest) = .ok (s, rest) := by
  rw [readString_flatMap, List.reverse_nil, List.nil_append, String.ofList_toList]

end Strings

/-! ## Numbers -/

/-- What comes behind a numeral does not go on with it. -/
def EndsNumeral (cs : List Char) : Prop :=
  ∀ c, cs.head? = some c → Numeral.isDigit c = false ∧ c ≠ '.' ∧ c ≠ 'e' ∧ c ≠ 'E'

theorem endsNumeral_cons
    (h : Numeral.isDigit c = false ∧ c ≠ '.' ∧ c ≠ 'e' ∧ c ≠ 'E') : EndsNumeral (c :: rest) := by
  intro d hd
  cases hd
  exact h

theorem endsNumeral_nil : EndsNumeral [] := by
  intro c hc
  cases hc

theorem isDigit_of_mem_toDigits {n : Nat} (h : c ∈ Nat.toDigits 10 n) :
    Numeral.isDigit c = true := by
  have hdigit := Nat.isDigit_of_mem_toDigits (by decide) (by decide) h
  simpa [Char.isDigit, Numeral.isDigit, Char.le_def] using hdigit

/-- Only the zero is written with a zero in front. -/
theorem head?_toDigits {n : Nat} (h : 0 < n) : (Nat.toDigits 10 n).head? ≠ some '0' := by
  induction n using Nat.strongRecOn with
  | ind n ih =>
      by_cases hn : n < 10
      · have hsmall : ∀ m < 10, 0 < m → (Nat.toDigits 10 m).head? ≠ some '0' := by decide
        exact hsmall n hn h
      · -- the first digit is that of the number without its last one
        rw [Nat.toDigits_of_base_le (by decide) (by omega),
          List.head?_append_of_ne_nil _ Nat.toDigits_ne_nil]
        exact ih (n / 10) (by omega) (by omega)

theorem takeWhole_toDigits (n : Nat) (h : EndsNumeral rest) :
    takeWhole (Nat.toDigits 10 n ++ rest) = (Nat.toDigits 10 n, rest) := by
  have hdigits : ∀ c ∈ Nat.toDigits 10 n, Numeral.isDigit c = true :=
    fun c hc => isDigit_of_mem_toDigits hc
  have hrest : rest.takeWhile Numeral.isDigit = [] ∧ rest.dropWhile Numeral.isDigit = rest := by
    cases rest with
    | nil => exact ⟨rfl, rfl⟩
    | cons c rest => simp [(h c rfl).1]
  rcases Nat.eq_zero_or_pos n with rfl | hn
  · -- behind a zero in front no digit is looked for
    rfl
  · obtain ⟨first, more, hcons⟩ := List.exists_cons_of_ne_nil (Nat.toDigits_ne_nil (n := n) (b := 10))
    have hfirst : first ≠ '0' := by
      intro hzero
      exact head?_toDigits hn (by rw [hcons, hzero]; rfl)
    rw [takeWhole.eq_2 _ (by simp [hcons, hfirst]), List.takeWhile_append_of_pos hdigits,
      List.dropWhile_append_of_pos hdigits, hrest.1, hrest.2, List.append_nil]

theorem takeFraction_of_ends (h : EndsNumeral rest) : takeFraction rest = ([], rest) := by
  cases rest with
  | nil => rfl
  | cons c rest =>
      rw [takeFraction.eq_2]
      intro more heq
      exact (h c rfl).2.1 (List.cons.inj heq).1

theorem takeExponent_of_ends (h : EndsNumeral rest) : takeExponent rest = (none, rest) := by
  cases rest with
  | nil => rfl
  | cons c rest =>
      obtain ⟨-, -, hlower, hupper⟩ := h c rfl
      rw [takeExponent, if_neg (not_or.mpr ⟨hlower, hupper⟩)]

theorem readUnsigned_toDigits (negative : Bool) (start : List Char) {n : Nat}
    (hn : (Nat.toDigits 10 n).length ≤ Numeral.digitLimit) (h : EndsNumeral rest) :
    readUnsigned negative start (Nat.toDigits 10 n ++ rest)
      = .ok (.int (if negative then -n else n), rest) := by
  have hvalue : Numeral.value (Nat.toDigits 10 n) = n := Nat.ofDigitChars_ten_toDigits
  have hwhole : Numeral.ofDigits (Nat.toDigits 10 n) = .ok n := by
    rw [Numeral.ofDigits, if_neg (Nat.not_lt_of_le hn), hvalue]
  have hempty : (Nat.toDigits 10 n).isEmpty = false := by
    rw [List.isEmpty_eq_false_iff]
    exact Nat.toDigits_ne_nil
  unfold readUnsigned
  rw [takeWhole_toDigits n h]
  dsimp only
  rw [takeFraction_of_ends h]
  dsimp only
  rw [takeExponent_of_ends h, hempty, hwhole]
  rfl

/-- A digit is in front of what is written for a number without sign. -/
theorem toDigits_eq_cons (n : Nat) : ∃ first more, Nat.toDigits 10 n = first :: more ∧
    Numeral.isDigit first = true := by
  obtain ⟨first, more, hcons⟩ := List.exists_cons_of_ne_nil (Nat.toDigits_ne_nil (n := n) (b := 10))
  exact ⟨first, more, hcons, isDigit_of_mem_toDigits (hcons ▸ List.mem_cons_self)⟩

/-- A number begins with a digit or with its sign. -/
theorem intChars_eq_cons (n : Int) : ∃ first more, intChars n = first :: more ∧
    (Numeral.isDigit first = true ∨ first = '-') := by
  cases n with
  | ofNat n =>
      obtain ⟨first, more, hcons, hdigit⟩ := toDigits_eq_cons n
      exact ⟨first, more, hcons, .inl hdigit⟩
  | negSucc n => exact ⟨'-', _, rfl, .inr rfl⟩

/-- A digit is at the end of what is written for a number. -/
theorem intChars_eq_append (n : Int) :
    ∃ front last, intChars n = front ++ [last] ∧ Numeral.isDigit last = true := by
  have hdigits : ∀ n, ∃ front last, Nat.toDigits 10 n = front ++ [last] ∧
      Numeral.isDigit last = true := by
    intro n
    have hsplit := List.dropLast_concat_getLast (Nat.toDigits_ne_nil (n := n) (b := 10))
    exact ⟨_, _, hsplit.symm, isDigit_of_mem_toDigits (List.getLast_mem _)⟩
  cases n with
  | ofNat n => exact hdigits n
  | negSucc n =>
      obtain ⟨front, last, hchars, hdigit⟩ := hdigits (n + 1)
      exact ⟨'-' :: front, last, by rw [intChars, hchars, List.cons_append], hdigit⟩

/-- No word begins like a number. -/
theorem afterWord?_of_isDigit {entry : List Char × Value} (hentry : entry ∈ wordValues)
    (h : Numeral.isDigit c = true) :
    Text.afterWord? entry.1 (c :: cs) = none ∧ Text.afterWord? entry.1 ('-' :: c :: cs) = none := by
  have hne : ∀ letter, Numeral.isDigit letter = false → letter ≠ c := by
    rintro letter hletter rfl
    rw [h] at hletter
    cases hletter
  have hn := hne 'n' rfl
  have ht := hne 't' rfl
  have hf := hne 'f' rfl
  have hN := hne 'N' rfl
  have hI := hne 'I' rfl
  have hminus := hne '-' rfl
  simp only [wordValues, List.mem_cons, List.not_mem_nil, or_false] at hentry
  rcases hentry with rfl | rfl | rfl | rfl | rfl | rfl <;>
    simp [Text.afterWord?, hn, ht, hf, hN, hI, hminus]

theorem readScalar_of_words (hquote : c ≠ '"')
    (h : ∀ entry ∈ wordValues, Text.afterWord? entry.1 (c :: cs) = none) :
    readScalar (c :: cs) = readNumber (c :: cs) := by
  rw [readScalar.eq_2 _ (by simp [hquote]), List.findSome?_eq_none_iff.mpr]
  intro entry hentry
  exact Option.map_eq_none_iff.mpr (h entry hentry)

/-- **A whole number is read again** if it is not too long. -/
theorem readScalar_intChars {n : Int}
    (hn : (Nat.toDigits 10 n.natAbs).length ≤ Numeral.digitLimit) (h : EndsNumeral rest) :
    readScalar (intChars n ++ rest) = .ok (.int n, rest) := by
  obtain ⟨first, more, hcons, hfirst⟩ := toDigits_eq_cons n.natAbs
  have hquote : first ≠ '"' := by
    rintro rfl
    cases hfirst
  have hminus : first ≠ '-' := by
    rintro rfl
    cases hfirst
  cases n with
  | ofNat n =>
      have hchars : intChars (.ofNat n) ++ rest = Nat.toDigits 10 n ++ rest := rfl
      have hsize : (Int.ofNat n).natAbs = n := rfl
      rw [hsize] at hn hcons
      have hread := readUnsigned_toDigits false (Nat.toDigits 10 n ++ rest) hn h
      rw [hchars]
      rw [hcons, List.cons_append] at hread ⊢
      rw [readScalar_of_words hquote fun entry hentry => (afterWord?_of_isDigit hentry hfirst).1,
        readNumber.eq_2 _ (by simp [hminus]), hread]
      rfl
  | negSucc n =>
      have hchars : intChars (.negSucc n) ++ rest = '-' :: (Nat.toDigits 10 (n + 1) ++ rest) := rfl
      rw [Int.natAbs_negSucc] at hn hcons
      have hread := readUnsigned_toDigits true ('-' :: (Nat.toDigits 10 (n + 1) ++ rest)) hn h
      rw [hchars]
      rw [hcons, List.cons_append] at hread ⊢
      rw [readScalar_of_words (by decide) fun entry hentry =>
          (afterWord?_of_isDigit hentry hfirst).2, readNumber, hread]
      rfl

end Flashcards.Json
