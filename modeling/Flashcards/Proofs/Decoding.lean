import Flashcards.Text.Utf8
import Mathlib.Algebra.GroupWithZero.Nat

/-!
# Stored text is read again

A file may hold bytes or the text that a program wrote, and text that is added to bytes is stored as
UTF-8. Reading takes the bytes through a machine that is between characters or inside one. The bytes
of one character take it from between characters to between characters, with the character read
(`decodeFrom_char`), so a text is read again from its bytes, whatever its characters are.
-/

namespace Flashcards.Utf8

variable {position owed low high seen value first n : Nat} {done : List Char} {byte : UInt8}
  {rest : List UInt8}

/-! ## Steps of the reader -/

theorem decodeFrom_ascii (h : byte.toNat < 0x80) :
    decodeFrom .between position done (byte :: rest)
      = decodeFrom .between (position + 1) (Char.ofNat byte.toNat :: done) rest := by
  exact if_pos h

theorem decodeFrom_first (h : continuation? byte.toNat = some (owed, low, high))
    (hbyte : ¬ byte.toNat < 0x80) :
    decodeFrom .between position done (byte :: rest)
      = decodeFrom (.inside owed low high 1 (byte.toNat % 2 ^ (6 - owed)) byte.toNat)
          (position + 1) done rest := by
  refine (if_neg hbyte).trans ?_
  rw [h]

theorem decodeFrom_next (h : low ≤ byte.toNat ∧ byte.toNat ≤ high) (howed : 1 < owed) :
    decodeFrom (.inside owed low high seen value first) position done (byte :: rest)
      = decodeFrom (.inside (owed - 1) 0x80 0xBF (seen + 1) (value * 64 + byte.toNat % 64) first)
          (position + 1) done rest := by
  exact (if_pos h).trans (if_neg (Nat.not_le_of_lt howed))

theorem decodeFrom_last (h : low ≤ byte.toNat ∧ byte.toNat ≤ high) :
    decodeFrom (.inside 1 low high seen value first) position done (byte :: rest)
      = decodeFrom .between (position + 1) (Char.ofNat (value * 64 + byte.toNat % 64) :: done)
          rest := by
  exact (if_pos h).trans (if_pos (Nat.le_refl 1))

/-! ## First bytes -/

/-- Of three bytes, the second one keeps clear of what two bytes can say, and of surrogates. -/
theorem continuation?_three {second : Nat} (h : 0xE0 ≤ first ∧ first ≤ 0xEF)
    (hsecond : 0x80 ≤ second ∧ second ≤ 0xBF) (hlow : first = 0xE0 → 0xA0 ≤ second)
    (hhigh : first = 0xED → second ≤ 0x9F) :
    ∃ low high, continuation? first = some (2, low, high) ∧ low ≤ second ∧ second ≤ high := by
  unfold continuation?
  rw [if_neg (by omega)]
  split
  · exact ⟨_, _, rfl, hlow ‹_›, hsecond.2⟩
  · split
    · exact ⟨_, _, rfl, hsecond.1, hhigh ‹_›⟩
    · rw [if_pos (by omega)]
      exact ⟨_, _, rfl, hsecond⟩

/-- Of four bytes, the second one keeps clear of what three can say, and of what is too high. -/
theorem continuation?_four {second : Nat} (h : 0xF0 ≤ first ∧ first ≤ 0xF4)
    (hsecond : 0x80 ≤ second ∧ second ≤ 0xBF) (hlow : first = 0xF0 → 0x90 ≤ second)
    (hhigh : first = 0xF4 → second ≤ 0x8F) :
    ∃ low high, continuation? first = some (3, low, high) ∧ low ≤ second ∧ second ≤ high := by
  unfold continuation?
  rw [if_neg (by omega), if_neg (by omega), if_neg (by omega), if_neg (by omega)]
  split
  · exact ⟨_, _, rfl, hlow ‹_›, hsecond.2⟩
  · split
    · exact ⟨_, _, rfl, hsecond⟩
    · rw [if_pos (by omega)]
      exact ⟨_, _, rfl, hsecond.1, hhigh (by omega)⟩

/-! ## Characters -/

variable {v : Nat}

theorem toNat_byte (h : n < 256) : (UInt8.ofNat n).toNat = n := UInt8.toNat_ofNat_of_lt h

theorem decodeFrom_two (h : 0x7F < v) (hv : v ≤ 0x7FF) :
    decodeFrom .between position done
        (UInt8.ofNat (v / 64 % 32 + 192) :: UInt8.ofNat (v % 64 + 128) :: rest)
      = decodeFrom .between (position + 2) (Char.ofNat v :: done) rest := by
  have hfirst : (UInt8.ofNat (v / 64 % 32 + 192)).toNat = v / 64 % 32 + 192 :=
    toNat_byte (by omega)
  have hsecond : (UInt8.ofNat (v % 64 + 128)).toNat = v % 64 + 128 := toNat_byte (by omega)
  have hcontinue : continuation? (v / 64 % 32 + 192) = some (1, 0x80, 0xBF) := if_pos (by omega)
  rw [decodeFrom_first (by rw [hfirst]; exact hcontinue) (by omega), decodeFrom_last (by omega),
    hfirst, hsecond]
  have hvalue : (v / 64 % 32 + 192) % 2 ^ (6 - 1) * 64 + (v % 64 + 128) % 64 = v := by omega
  rw [hvalue]

theorem decodeFrom_three (h : 0x7FF < v) (hv : v < 0xD800 ∨ 0xDFFF < v ∧ v ≤ 0xFFFF) :
    decodeFrom .between position done
        (UInt8.ofNat (v / 4096 % 16 + 224) :: UInt8.ofNat (v / 64 % 64 + 128)
          :: UInt8.ofNat (v % 64 + 128) :: rest)
      = decodeFrom .between (position + 3) (Char.ofNat v :: done) rest := by
  have hfirst : (UInt8.ofNat (v / 4096 % 16 + 224)).toNat = v / 4096 % 16 + 224 :=
    toNat_byte (by omega)
  have hsecond : (UInt8.ofNat (v / 64 % 64 + 128)).toNat = v / 64 % 64 + 128 :=
    toNat_byte (by omega)
  have hthird : (UInt8.ofNat (v % 64 + 128)).toNat = v % 64 + 128 := toNat_byte (by omega)
  obtain ⟨low, high, hcontinue, hrange⟩ :
      ∃ low high, continuation? (v / 4096 % 16 + 224) = some (2, low, high) ∧
        low ≤ v / 64 % 64 + 128 ∧ v / 64 % 64 + 128 ≤ high :=
    continuation?_three (by omega) (by omega) (by omega) (by omega)
  rw [decodeFrom_first (by rw [hfirst]; exact hcontinue) (by omega),
    decodeFrom_next (by rw [hsecond]; exact hrange) (by decide), decodeFrom_last (by omega),
    hfirst, hsecond, hthird]
  have hvalue : ((v / 4096 % 16 + 224) % 2 ^ (6 - 2) * 64 + (v / 64 % 64 + 128) % 64) * 64
      + (v % 64 + 128) % 64 = v := by omega
  rw [hvalue]

theorem decodeFrom_four (h : 0xFFFF < v) (hv : v < 0x110000) :
    decodeFrom .between position done
        (UInt8.ofNat (v / 262144 % 8 + 240) :: UInt8.ofNat (v / 4096 % 64 + 128)
          :: UInt8.ofNat (v / 64 % 64 + 128) :: UInt8.ofNat (v % 64 + 128) :: rest)
      = decodeFrom .between (position + 4) (Char.ofNat v :: done) rest := by
  have hfirst : (UInt8.ofNat (v / 262144 % 8 + 240)).toNat = v / 262144 % 8 + 240 :=
    toNat_byte (by omega)
  have hsecond : (UInt8.ofNat (v / 4096 % 64 + 128)).toNat = v / 4096 % 64 + 128 :=
    toNat_byte (by omega)
  have hthird : (UInt8.ofNat (v / 64 % 64 + 128)).toNat = v / 64 % 64 + 128 :=
    toNat_byte (by omega)
  have hfourth : (UInt8.ofNat (v % 64 + 128)).toNat = v % 64 + 128 := toNat_byte (by omega)
  obtain ⟨low, high, hcontinue, hrange⟩ :
      ∃ low high, continuation? (v / 262144 % 8 + 240) = some (3, low, high) ∧
        low ≤ v / 4096 % 64 + 128 ∧ v / 4096 % 64 + 128 ≤ high :=
    continuation?_four (by omega) (by omega) (by omega) (by omega)
  rw [decodeFrom_first (by rw [hfirst]; exact hcontinue) (by omega),
    decodeFrom_next (by rw [hsecond]; exact hrange) (by decide),
    decodeFrom_next (by omega) (by decide), decodeFrom_last (by omega), hfirst, hsecond, hthird,
    hfourth]
  have hvalue : (((v / 262144 % 8 + 240) % 2 ^ (6 - 3) * 64 + (v / 4096 % 64 + 128) % 64) * 64
      + (v / 64 % 64 + 128) % 64) * 64 + (v % 64 + 128) % 64 = v := by omega
  rw [hvalue]

/-- **A character is read from its bytes**, whatever was read before and comes behind. -/
theorem decodeFrom_char (c : Char) (position : Nat) (done : List Char) (rest : List UInt8) :
    decodeFrom .between position done (String.utf8EncodeChar c ++ rest)
      = decodeFrom .between (position + (String.utf8EncodeChar c).length) (c :: done) rest := by
  have hvalid : c.toNat < 0xD800 ∨ 0xDFFF < c.toNat ∧ c.toNat < 0x110000 := c.valid
  have hchar : Char.ofNat c.toNat = c := Char.ofNat_toNat c
  have hval : c.val.toNat = c.toNat := rfl
  unfold String.utf8EncodeChar
  dsimp only
  rw [hval]
  split
  · have hbyte : (UInt8.ofNat c.toNat).toNat = c.toNat := toNat_byte (by omega)
    rw [List.singleton_append, decodeFrom_ascii (by omega), hbyte, hchar]
    rfl
  · split
    · exact (decodeFrom_two (by omega) ‹_›).trans (by rw [hchar]; rfl)
    · split
      · exact (decodeFrom_three (by omega) (by omega)).trans (by rw [hchar]; rfl)
      · exact (decodeFrom_four (by omega) (by omega)).trans (by rw [hchar]; rfl)

/-! ## Texts -/

theorem decodeFrom_chars (cs : List Char) (position : Nat) (done : List Char) :
    decodeFrom .between position done (cs.flatMap String.utf8EncodeChar)
      = .ok (done.reverse ++ cs) := by
  induction cs generalizing position done with
  | nil =>
      rw [List.append_nil]
      rfl
  | cons c rest ih =>
      rw [List.flatMap_cons, decodeFrom_char, ih, List.reverse_cons, List.append_assoc]
      rfl

/-- The loop that lists an array puts what is left behind what it has. -/
theorem toList_loop (bytes : ByteArray) (i : Nat) (done : List UInt8) :
    ByteArray.toList.loop bytes i done = done.reverse ++ bytes.data.toList.drop i := by
  rw [ByteArray.toList.loop]
  split
  · rename_i hi
    have hlength : i < bytes.data.toList.length := hi
    have hget : bytes.get! i = bytes.data.toList[i] := getElem!_pos bytes.data i hi
    rw [toList_loop bytes (i + 1), hget, List.reverse_cons, List.append_assoc,
      List.drop_eq_getElem_cons hlength]
    rfl
  · rename_i hi
    rw [List.drop_eq_nil_of_le (Nat.le_of_not_lt hi), List.append_nil]
termination_by bytes.size - i

theorem encode_eq (s : String) : encode s = s.toList.flatMap String.utf8EncodeChar := by
  rw [encode, String.toUTF8_eq_toByteArray, ← String.utf8Encode_toList, ByteArray.toList,
    toList_loop, List.utf8Encode, List.toList_data_toByteArray]
  rfl

/-- **A text is read again from its bytes.** -/
theorem decode_encode (s : String) : decode (encode s) = .ok s.toList := by
  rw [encode_eq, decode, decodeFrom_chars]
  rfl

end Flashcards.Utf8
