/-!
# UTF-8

Bytes are read as text by the strict rule: no overlong forms, no surrogates, nothing above
U+10FFFF. A fault says which bytes cannot be read and why: the byte cannot start a character, a
byte that had to continue one does not, or the bytes end inside a character. The bytes of a
character that were fine up to the fault are part of what cannot be read.
-/

namespace Flashcards.Utf8

/-- Why bytes are not UTF-8. -/
inductive Reason
  | badStart
  | badContinuation
  | endOfData
  deriving DecidableEq, Repr

/-- What cannot be read: the bytes from `position` on, `count` of them, the first being `byte`. -/
structure Fault where
  reason : Reason
  position : Nat
  count : Nat
  byte : Nat
  deriving DecidableEq, Repr

/-- The reason in words. -/
def Reason.message : Reason → String
  | .badStart => "invalid start byte"
  | .badContinuation => "invalid continuation byte"
  | .endOfData => "unexpected end of data"

/-- A lower-case hexadecimal byte. -/
def byteText (n : Nat) : String :=
  let digits := Nat.toDigits 16 n
  String.ofList (if digits.length < 2 then '0' :: digits else digits)

/-- The fault in words. -/
def Fault.message (fault : Fault) : String :=
  let place :=
    if fault.count = 1 then s!"byte 0x{byteText fault.byte} in position {fault.position}"
    else s!"bytes in position {fault.position}-{fault.position + fault.count - 1}"
  s!"'utf-8' codec can't decode {place}: {fault.reason.message}"

/-- The bytes that continue a character after its first byte: how many follow, and the range in
which the first of them must lie. -/
def continuation? (first : Nat) : Option (Nat × Nat × Nat) :=
  if 0xC2 ≤ first ∧ first ≤ 0xDF then some (1, 0x80, 0xBF)
  else if first = 0xE0 then some (2, 0xA0, 0xBF)
  else if first = 0xED then some (2, 0x80, 0x9F)
  else if 0xE1 ≤ first ∧ first ≤ 0xEF then some (2, 0x80, 0xBF)
  else if first = 0xF0 then some (3, 0x90, 0xBF)
  else if 0xF1 ≤ first ∧ first ≤ 0xF3 then some (3, 0x80, 0xBF)
  else if first = 0xF4 then some (3, 0x80, 0x8F)
  else none

/-- Where the reader stands: between characters, or inside one with `owed` bytes to come, the
next of them between `low` and `high`, after `seen` bytes that make up `value`. -/
inductive State
  | between
  | inside (owed low high seen value first : Nat)

/-- Reads the bytes from `position` on, with the characters read so far in reverse. -/
def decodeFrom (state : State) (position : Nat) (done : List Char) :
    List UInt8 → Except Fault (List Char)
  | [] =>
    match state with
    | .between => .ok done.reverse
    | .inside _ _ _ seen _ first => .error ⟨.endOfData, position - seen, seen, first⟩
  | byte :: rest =>
    let n := byte.toNat
    match state with
    | .between =>
      if n < 0x80 then decodeFrom .between (position + 1) (Char.ofNat n :: done) rest
      else
        match continuation? n with
        | none => .error ⟨.badStart, position, 1, n⟩
        | some (owed, low, high) =>
          decodeFrom (.inside owed low high 1 (n % 2 ^ (6 - owed)) n) (position + 1) done rest
    | .inside owed low high seen value first =>
      if low ≤ n ∧ n ≤ high then
        let value := value * 64 + n % 64
        if owed ≤ 1 then decodeFrom .between (position + 1) (Char.ofNat value :: done) rest
        else
          decodeFrom (.inside (owed - 1) 0x80 0xBF (seen + 1) value first) (position + 1) done rest
      else .error ⟨.badContinuation, position - seen, seen, first⟩

/-- The text that bytes stand for. -/
def decode (bytes : List UInt8) : Except Fault (List Char) := decodeFrom .between 0 [] bytes

/-- The bytes a text is stored as. -/
def encode (s : String) : List UInt8 := s.toUTF8.toList

end Flashcards.Utf8
