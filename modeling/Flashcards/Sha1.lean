/-!
# SHA-1

The digest of a message: the message is padded to blocks of sixteen words, and each block is mixed
into five words of state in eighty rounds. Ids are cut from digests so that they stay the same
from run to run.
-/

namespace Flashcards.Sha1

/-- The five words of state. -/
structure State where
  a : UInt32
  b : UInt32
  c : UInt32
  d : UInt32
  e : UInt32
  deriving DecidableEq, Repr

/-- The state before the first block. -/
def State.start : State := ⟨0x67452301, 0xEFCDAB89, 0x98BADCFE, 0x10325476, 0xC3D2E1F0⟩

/-- Turns the bits of a word to the left. -/
def rotate (word : UInt32) (amount : UInt32) : UInt32 :=
  (word <<< amount) ||| (word >>> (32 - amount))

/-- A number as bytes, the highest first. -/
def bytesOf : Nat → Nat → List UInt8
  | 0, _ => []
  | count + 1, n => bytesOf count (n / 256) ++ [UInt8.ofNat (n % 256)]

/-- A message and its padding: a one bit, zeros up to 56 bytes of a block, and the length in
bits. -/
def pad (message : List UInt8) : List UInt8 :=
  let length := message.length
  message ++ 0x80 :: List.replicate ((119 - length % 64) % 64) 0 ++ bytesOf 8 (8 * length)

/-- Four bytes as a word, the highest first. -/
def word (a b c d : UInt8) : UInt32 :=
  (a.toUInt32 <<< 24) ||| (b.toUInt32 <<< 16) ||| (c.toUInt32 <<< 8) ||| d.toUInt32

/-- Bytes as words. -/
def wordsOf : List UInt8 → List UInt32
  | a :: b :: c :: d :: rest => word a b c d :: wordsOf rest
  | _ => []

/-- The function and the constant of a round. -/
def roundTerm (round : Nat) (b c d : UInt32) : UInt32 :=
  if round < 20 then ((b &&& c) ||| (~~~b &&& d)) + 0x5A827999
  else if round < 40 then (b ^^^ c ^^^ d) + 0x6ED9EBA1
  else if round < 60 then ((b &&& c) ||| (b &&& d) ||| (c &&& d)) + 0x8F1BBCDC
  else (b ^^^ c ^^^ d) + 0xCA62C1D6

/-- The words of eighty rounds, made from the sixteen of a block. -/
def schedule (block : Array UInt32) : Array UInt32 :=
  (List.range 64).foldl
    (fun words i =>
      let before := fun distance => words.getD (i + 16 - distance) 0
      words.push (rotate (before 3 ^^^ before 8 ^^^ before 14 ^^^ before 16) 1))
    block

/-- One round. -/
def State.round (state : State) (round : Nat) (word : UInt32) : State :=
  { a := rotate state.a 5 + roundTerm round state.b state.c state.d + state.e + word
    b := state.a
    c := rotate state.b 30
    d := state.c
    e := state.d }

/-- Adds two states word by word. -/
def State.add (x y : State) : State := ⟨x.a + y.a, x.b + y.b, x.c + y.c, x.d + y.d, x.e + y.e⟩

/-- Mixes a block into the state. -/
def State.absorb (state : State) (block : List UInt32) : State :=
  let words := schedule block.toArray
  state.add ((List.range 80).foldl (fun s i => s.round i (words.getD i 0)) state)

/-- Mixes the given number of blocks of sixteen words into the state. -/
def absorbBlocks : Nat → State → List UInt32 → State
  | 0, state, _ => state
  | count + 1, state, words => absorbBlocks count (state.absorb (words.take 16)) (words.drop 16)

/-- The digest of a message, twenty bytes long. -/
def digest (message : List UInt8) : List UInt8 :=
  let words := wordsOf (pad message)
  let state := absorbBlocks (words.length / 16) State.start words
  [state.a, state.b, state.c, state.d, state.e].flatMap fun w => bytesOf 4 w.toNat

/-- The digest of a text in its stored form. -/
def digestText (s : String) : List UInt8 := digest s.toUTF8.toList

end Flashcards.Sha1
