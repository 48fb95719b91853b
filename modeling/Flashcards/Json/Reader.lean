import Flashcards.Json.Fault
import Flashcards.Json.Value

/-!
# Reading JSON

The reader takes one value off the front of a text and keeps the open lists and objects on a stack
of its own, so how deeply they nest does not matter. Every step takes at least one character. Next
to what JSON allows, `NaN`, `Infinity` and `-Infinity` are numbers. Of members with equal keys the
last one counts. A text with half of a surrogate pair is not read, whatever else is in it.
-/

namespace Flashcards.Json

/-- Why reading stopped: a complaint about the text from `rest` on, a numeral that is too long, or
half of a surrogate pair. -/
inductive Stop
  | complaint (what : Complaint) (rest : List Char)
  | numeral (fault : Numeral.Fault)
  | loneSurrogate

/-- Drops the blanks that may stand between the parts of a JSON text. -/
def skipBlank (cs : List Char) : List Char :=
  cs.dropWhile fun c => c == ' ' || c == '\t' || c == '\n' || c == '\r'

theorem skipBlank_length_le (cs : List Char) : (skipBlank cs).length ≤ cs.length :=
  (List.dropWhile_suffix _).length_le

theorem skipBlank_cons_length {cs rest : List Char} {c : Char} (h : skipBlank cs = c :: rest) :
    rest.length < cs.length := by
  have := skipBlank_length_le cs
  rw [h] at this
  exact this

/-! ## Strings -/

/-- The value of a hexadecimal digit. -/
def hexValue? (c : Char) : Option Nat :=
  if '0' ≤ c ∧ c ≤ '9' then some (c.toNat - 48)
  else if 'a' ≤ c ∧ c ≤ 'f' then some (c.toNat - 87)
  else if 'A' ≤ c ∧ c ≤ 'F' then some (c.toNat - 55)
  else none

/-- Takes four hexadecimal digits off the front. -/
def takeHex4 : List Char → Option (Nat × List Char)
  | a :: b :: c :: d :: rest => do
    let a ← hexValue? a
    let b ← hexValue? b
    let c ← hexValue? c
    let d ← hexValue? d
    some (((a * 16 + b) * 16 + c) * 16 + d, rest)
  | _ => none

/-- The first halves of pairs that stand for one character. -/
def isHighSurrogate (n : Nat) : Bool := 0xD800 ≤ n && n ≤ 0xDBFF

/-- The second halves. -/
def isLowSurrogate (n : Nat) : Bool := 0xDC00 ≤ n && n ≤ 0xDFFF

/-- Reads the character of an escape by number, from behind its `u`. Four digits and one more
character have to follow, and two halves of a pair stand for one character. Half of a pair on its
own stands for none. -/
def readUnit (cs : List Char) : Except Stop (Char × List Char) :=
  match takeHex4 cs with
  | none => .error (.complaint .badUnicodeEscape ('u' :: cs))
  | some (unit, rest) =>
    if rest.isEmpty then .error (.complaint .badUnicodeEscape ('u' :: cs))
    else if isHighSurrogate unit then
      match rest with
      | '\\' :: 'u' :: more =>
        match takeHex4 more with
        | none => .error (.complaint .badUnicodeEscape ('u' :: more))
        | some (second, behind) =>
          if behind.isEmpty then .error (.complaint .badUnicodeEscape ('u' :: more))
          else if isLowSurrogate second then
            .ok (Char.ofNat (0x10000 + (unit - 0xD800) * 0x400 + (second - 0xDC00)), behind)
          else .error .loneSurrogate
      | _ => .error .loneSurrogate
    else if isLowSurrogate unit then .error .loneSurrogate
    else .ok (Char.ofNat unit, rest)

/-- The character that a backslash and this letter stand for. -/
def escaped? : Char → Option Char
  | '"' => some '"'
  | '\\' => some '\\'
  | '/' => some '/'
  | 'b' => some '\x08'
  | 'f' => some '\x0c'
  | 'n' => some '\n'
  | 'r' => some '\r'
  | 't' => some '\t'
  | _ => none

/-- Reads the character of an escape, from behind its backslash. -/
def readEscape (letter : Char) (rest : List Char) : Except Stop (Char × List Char) :=
  if letter = 'u' then readUnit rest
  else
    match escaped? letter with
    | some c => .ok (c, rest)
    | none => .error (.complaint .unknownEscape ('\\' :: letter :: rest))

theorem takeHex4_length {cs rest : List Char} {n : Nat} (h : takeHex4 cs = some (n, rest)) :
    rest.length < cs.length := by
  unfold takeHex4 at h
  split at h
  · simp only [Option.bind_eq_bind, Option.bind_eq_some_iff] at h
    obtain ⟨_, _, _, _, _, _, _, _, h⟩ := h
    simp only [Option.some.injEq, Prod.mk.injEq] at h
    simp only [← h.2, List.length_cons]
    omega
  · simp at h

theorem readUnit_length {cs rest : List Char} {c : Char} (h : readUnit cs = .ok (c, rest)) :
    rest.length < cs.length := by
  unfold readUnit at h
  split at h
  · simp at h
  · rename_i unit behind hq
    have hb := takeHex4_length hq
    repeat' split at h
    all_goals simp only [reduceCtorEq, Except.ok.injEq, Prod.mk.injEq] at h
    all_goals try (obtain ⟨-, rfl⟩ := h)
    all_goals try exact hb
    rename_i hm _ _
    have := takeHex4_length hm
    simp only [List.length_cons] at hb
    omega

theorem readEscape_length {letter c : Char} {cs rest : List Char}
    (h : readEscape letter cs = .ok (c, rest)) : rest.length ≤ cs.length := by
  unfold readEscape at h
  split at h
  · exact Nat.le_of_lt (readUnit_length h)
  · split at h
    · simp only [Except.ok.injEq, Prod.mk.injEq] at h
      simp [h.2]
    · simp at h

/-- Reads the rest of a string, up to and with its closing quote. `start` is the text from the
opening quote on, and `done` what was read, in reverse. -/
def readString (start done : List Char) : List Char → Except Stop (String × List Char)
  | [] => .error (.complaint .unterminatedString start)
  | c :: rest =>
    if c = '"' then .ok (String.ofList done.reverse, rest)
    else if c = '\\' then
      match rest with
      | [] => .error (.complaint .unterminatedString start)
      | letter :: behind =>
        match _h : readEscape letter behind with
        | .error stop => .error stop
        | .ok (c, rest) => readString start (c :: done) rest
    else if c.toNat < 0x20 then .error (.complaint .controlCharacter (c :: rest))
    else readString start (c :: done) rest
termination_by cs => cs.length
decreasing_by
  · have := readEscape_length _h
    simp only [List.length_cons]
    omega
  · simp

theorem readString_length {start done cs rest : List Char} {s : String}
    (h : readString start done cs = .ok (s, rest)) : rest.length < cs.length := by
  fun_induction readString start done cs with
  | case1 => simp at h
  | case2 => simp_all
  | case3 => simp at h
  | case4 => simp at h
  | case5 done letter behind c rest' hesc _ ih =>
    have := readEscape_length hesc
    have := ih h
    simp only [List.length_cons]
    omega
  | case6 => simp at h
  | case7 done c rest' _ _ _ ih =>
    have := ih h
    simp only [List.length_cons]
    omega

/-! ## Numbers -/

/-- The digits of a numeral without sign: a zero, or digits that begin with another one. -/
def takeWhole : List Char → List Char × List Char
  | '0' :: rest => (['0'], rest)
  | cs => (cs.takeWhile Numeral.isDigit, cs.dropWhile Numeral.isDigit)

/-- The digits behind a point, if there are any. -/
def takeFraction : List Char → List Char × List Char
  | '.' :: rest =>
    let digits := rest.takeWhile Numeral.isDigit
    if digits.isEmpty then ([], '.' :: rest) else (digits, rest.dropWhile Numeral.isDigit)
  | cs => ([], cs)

/-- The exponent, if there is one with digits. -/
def takeExponent : List Char → Option Int × List Char
  | e :: rest =>
    if e = 'e' ∨ e = 'E' then
      let (negative, unsigned) := Numeral.takeSign rest
      let digits := unsigned.takeWhile Numeral.isDigit
      if digits.isEmpty then (none, e :: rest)
      else
        let magnitude : Int := Numeral.value digits
        (some (if negative then -magnitude else magnitude), unsigned.dropWhile Numeral.isDigit)
    else (none, e :: rest)
  | [] => (none, [])

/-- Reads a number behind its sign. -/
def readUnsigned (negative : Bool) (start cs : List Char) : Except Stop (Value × List Char) :=
  let (whole, behind) := takeWhole cs
  if whole.isEmpty then .error (.complaint .noValue start)
  else
    let (fraction, behind) := takeFraction behind
    let (exponent, behind) := takeExponent behind
    if fraction.isEmpty && exponent.isNone then
      match Numeral.ofDigits whole with
      | .error fault => .error (.numeral fault)
      | .ok n => .ok (.int (if negative then -n else n), behind)
    else
      let digits := Numeral.value (whole ++ fraction)
      .ok (.float (Decimal.toFloat negative digits (exponent.getD 0 - fraction.length)), behind)

/-- Reads a number. -/
def readNumber : List Char → Except Stop (Value × List Char)
  | '-' :: rest => readUnsigned true ('-' :: rest) rest
  | cs => readUnsigned false cs cs

theorem takeWhole_length {cs : List Char} (h : (takeWhole cs).1.isEmpty = false) :
    (takeWhole cs).2.length < cs.length := by
  unfold takeWhole at h ⊢
  split at h
  · simp
  · have hsum := congrArg List.length
      (List.takeWhile_append_dropWhile (p := Numeral.isDigit) (l := cs))
    have hpos : 0 < (cs.takeWhile Numeral.isDigit).length := by
      rw [List.length_pos_iff]
      intro h0
      simp [h0] at h
    rw [List.length_append] at hsum
    dsimp only
    omega

theorem takeFraction_length (cs : List Char) : (takeFraction cs).2.length ≤ cs.length := by
  unfold takeFraction
  split
  · dsimp only
    split
    · exact Nat.le_refl _
    · exact Nat.le_succ_of_le (List.dropWhile_suffix _).length_le
  · exact Nat.le_refl _

theorem takeSign_length (cs : List Char) : (Numeral.takeSign cs).2.length ≤ cs.length := by
  unfold Numeral.takeSign
  split <;> simp

theorem takeExponent_length (cs : List Char) : (takeExponent cs).2.length ≤ cs.length := by
  unfold takeExponent
  split
  · split
    · dsimp only
      split
      · exact Nat.le_refl _
      · rename_i rest _ _
        have := takeSign_length rest
        exact Nat.le_succ_of_le (Nat.le_trans (List.dropWhile_suffix _).length_le this)
    · exact Nat.le_refl _
  · exact Nat.le_refl _

theorem readUnsigned_length {negative : Bool} {start cs rest : List Char} {v : Value}
    (h : readUnsigned negative start cs = .ok (v, rest)) : rest.length < cs.length := by
  unfold readUnsigned at h
  dsimp only at h
  have hf := takeFraction_length (takeWhole cs).2
  have he := takeExponent_length (takeFraction (takeWhole cs).2).2
  split at h
  · simp at h
  · rename_i hw
    have hw := takeWhole_length (Bool.not_eq_true _ ▸ hw)
    have hr : rest = (takeExponent (takeFraction (takeWhole cs).2).2).2 := by
      split at h
      · split at h <;> simp_all
      · simp_all
    rw [hr]
    omega

theorem readNumber_length {cs rest : List Char} {v : Value}
    (h : readNumber cs = .ok (v, rest)) : rest.length < cs.length := by
  unfold readNumber at h
  split at h
  · exact Nat.lt_succ_of_lt (readUnsigned_length h)
  · exact readUnsigned_length h

/-! ## Values -/

/-- The words that are values. -/
def wordValues : List (List Char × Value) :=
  [("null".toList, .null), ("true".toList, .bool true), ("false".toList, .bool false),
    ("NaN".toList, .float (0.0 / 0.0)), ("Infinity".toList, .float (1.0 / 0.0)),
    ("-Infinity".toList, .float (-1.0 / 0.0))]

/-- Reads a value that is neither a list nor an object. -/
def readScalar (cs : List Char) : Except Stop (Value × List Char) :=
  match cs with
  | '"' :: rest => (readString cs [] rest).map fun (s, behind) => (.str s, behind)
  | _ =>
    match wordValues.findSome? fun (word, v) => (Text.afterWord? word cs).map (v, ·) with
    | some found => .ok found
    | none => readNumber cs

/-- Reads a key and the colon behind it, and skips the blanks after that. -/
def readKey (cs : List Char) : Except Stop (String × List Char) :=
  match cs with
  | '"' :: rest =>
    match readString cs [] rest with
    | .error stop => .error stop
    | .ok (key, behind) =>
      match skipBlank behind with
      | ':' :: rest => .ok (key, skipBlank rest)
      | other => .error (.complaint .noColon other)
  | other => .error (.complaint .noKey other)

theorem readScalar_length {cs rest : List Char} {v : Value}
    (h : readScalar cs = .ok (v, rest)) : rest.length < cs.length := by
  unfold readScalar at h
  split at h
  · rename_i behind
    cases hs : readString ('"' :: behind) [] behind with
    | error stop => simp [hs, Except.map] at h
    | ok pair =>
      obtain ⟨s, left⟩ := pair
      simp only [hs, Except.map, Except.ok.injEq, Prod.mk.injEq] at h
      have := readString_length hs
      simp only [List.length_cons, ← h.2]
      omega
  · split at h
    · rename_i found hfound
      simp only [Except.ok.injEq] at h
      subst h
      obtain ⟨_, hmem, hpair⟩ := List.exists_of_findSome?_eq_some hfound
      simp only [Option.map_eq_some_iff, Prod.mk.injEq] at hpair
      obtain ⟨_, ha, _, rfl⟩ := hpair
      have hlength := Text.afterWord?_length ha
      simp only [wordValues, List.mem_cons, List.not_mem_nil, or_false] at hmem
      rcases hmem with rfl | rfl | rfl | rfl | rfl | rfl <;> simp at hlength <;> omega
    · exact readNumber_length h

theorem readKey_length {cs rest : List Char} {key : String}
    (h : readKey cs = .ok (key, rest)) : rest.length < cs.length := by
  unfold readKey at h
  split at h
  · split at h
    · simp at h
    · rename_i hs
      have hs := readString_length hs
      split at h
      · rename_i behind' hb
        simp only [Except.ok.injEq, Prod.mk.injEq] at h
        have h1 := skipBlank_length_le behind'
        have h2 := skipBlank_cons_length hb
        simp only [List.length_cons, ← h.2]
        omega
      · simp at h
  · simp at h

/-- A list or an object that is still open: its items or members so far, the items in reverse, and
the key of the member to come. -/
inductive Frame
  | list (done : List Value)
  | object (done : Bindings String Value) (key : String)

mutual

/-- Reads a value inside the open lists and objects. -/
def readValue (stack : List Frame) (cs : List Char) : Except Stop (Value × List Char) :=
  match cs with
  | '[' :: rest =>
    match _h : skipBlank rest with
    | ']' :: behind => deliver (.arr []) stack behind
    | _ => readValue (.list [] :: stack) (skipBlank rest)
  | '{' :: rest =>
    match _h : skipBlank rest with
    | '}' :: behind => deliver (.obj []) stack behind
    | _ =>
      match _hk : readKey (skipBlank rest) with
      | .error stop => .error stop
      | .ok (key, behind) => readValue (.object [] key :: stack) behind
  | other =>
    match _hs : readScalar other with
    | .error stop => .error stop
    | .ok (v, behind) => deliver v stack behind
termination_by cs.length
decreasing_by
  · exact Nat.lt_succ_of_lt (skipBlank_cons_length _h)
  · exact Nat.lt_succ_of_le (skipBlank_length_le rest)
  · exact Nat.lt_succ_of_lt (skipBlank_cons_length _h)
  · exact Nat.lt_succ_of_le
      (Nat.le_trans (Nat.le_of_lt (readKey_length _hk)) (skipBlank_length_le rest))
  · exact readScalar_length _hs

/-- Puts a value where the innermost open list or object wants it, and reads on. -/
def deliver (v : Value) (stack : List Frame) (cs : List Char) : Except Stop (Value × List Char) :=
  match stack with
  | [] => .ok (v, cs)
  | .list done :: outer =>
    match _h : skipBlank cs with
    | ']' :: behind => deliver (.arr (v :: done).reverse) outer behind
    | ',' :: behind => readValue (.list (v :: done) :: outer) (skipBlank behind)
    | other => .error (.complaint .noComma other)
  | .object done key :: outer =>
    match _h : skipBlank cs with
    | '}' :: behind => deliver (.obj (Bindings.bind key v done)) outer behind
    | ',' :: behind =>
      match _hk : readKey (skipBlank behind) with
      | .error stop => .error stop
      | .ok (next, rest) => readValue (.object (Bindings.bind key v done) next :: outer) rest
    | other => .error (.complaint .noComma other)
termination_by cs.length
decreasing_by
  · exact skipBlank_cons_length _h
  · exact Nat.lt_of_le_of_lt (skipBlank_length_le behind) (skipBlank_cons_length _h)
  · exact skipBlank_cons_length _h
  · exact Nat.lt_of_lt_of_le (readKey_length _hk)
      (Nat.le_trans (skipBlank_length_le behind) (Nat.le_of_lt (skipBlank_cons_length _h)))

end

/-- What a stop says about the whole text. -/
def Stop.refusal (text : List Char) : Stop → Refusal
  | .complaint what rest =>
    .fault (.malformed (Problem.after what (text.take (text.length - rest.length))))
  | .numeral fault => .fault (.numeral fault)
  | .loneSurrogate => .loneSurrogate

/-- The value that a text stands for. -/
def read (text : List Char) : Except Refusal Value :=
  if text.head? = some '\uFEFF' then
    .error (.fault (.malformed (Problem.after .byteOrderMark [])))
  else
    match readValue [] (skipBlank text) with
    | .error stop => .error (stop.refusal text)
    | .ok (v, behind) =>
      match skipBlank behind with
      | [] => .ok v
      | other => .error ((Stop.complaint .extraData other).refusal text)

end Flashcards.Json
