import Flashcards.Sha1
import Flashcards.Text.Quoted

/-!
# Identities

A card, a note type and a deck are known by ids that depend on nothing but what they name, so a
second run gives the same ids. They are cut from the digest of a describing text.
-/

namespace Flashcards.Identity

/-- Bytes in hexadecimal digits. -/
def hexText (bytes : List UInt8) : String :=
  String.ofList (bytes.flatMap fun byte => Text.hexDigits 2 byte.toNat)

/-- The describing text of a card. -/
def cardPayload (deckName : String) (noteIndex : Int) (templateName : String) (ordinal : Int) :
    String :=
  s!"{deckName}|{noteIndex}|{templateName}|{ordinal}"

/-- The id of a card: the digest of its describing text, in hexadecimal digits. -/
def cardId (deckName : String) (noteIndex : Int) (templateName : String) (ordinal : Int) :
    String :=
  hexText (Sha1.digestText (cardPayload deckName noteIndex templateName ordinal))

/-- The number that bytes stand for, the highest first. -/
def numberOf (bytes : List UInt8) : Nat := bytes.foldl (fun n byte => 256 * n + byte.toNat) 0

/-- The id of what a text names, below 2³¹ - 1. -/
def numericId (name : String) : Nat := numberOf ((Sha1.digestText name).take 8) % (Nat.pow 2 31 - 1)

end Flashcards.Identity
