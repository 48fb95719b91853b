import Flashcards.Proofs.Faults
import Flashcards.Proofs.Readback

/-!
# Texts of characters

An escape by number can be half of a surrogate pair. With the other half behind it, it is a
character; on its own it is none, though JSON has nothing against it. Which texts write no such half
can be told from their escapes alone (`Json.Paired`), without a word about the values in them.

The reader stops at half of a pair, and does so nowhere else: it comes to no such half in a text
that is paired (`Json.read_ne_loneSurrogate`). For it goes from character to character and from
escape to escape, as `Json.Paired` does, and so everything that it leaves to be read is paired again
(`Json.Within`). That is carried through its steps by the induction that goes along with them.
-/

namespace Flashcards.Json

/-- All escapes by number in a text are characters: none of them is half of a surrogate pair unless
the other half follows it. -/
inductive Paired : List Char → Prop
  | nil : Paired []
  | plain {c : Char} {rest : List Char} (hc : c ≠ '\\') (h : Paired rest) : Paired (c :: rest)
  /-- A text can end with a backslash, though nothing can be read from it then. -/
  | dangling : Paired ['\\']
  | letter {c : Char} {rest : List Char} (hc : c ≠ 'u') (h : Paired rest) :
      Paired ('\\' :: c :: rest)
  /-- There are no four digits, which the reader complains about. -/
  | malformed {rest : List Char} (hunit : takeHex4 rest = none) (h : Paired rest) :
      Paired ('\\' :: 'u' :: rest)
  | unit {n : Nat} {rest behind : List Char} (hunit : takeHex4 rest = some (n, behind))
      (hhigh : isHighSurrogate n = false) (hlow : isLowSurrogate n = false) (h : Paired behind) :
      Paired ('\\' :: 'u' :: rest)
  | pair {high low : Nat} {rest more behind : List Char}
      (hfirst : takeHex4 rest = some (high, '\\' :: 'u' :: more))
      (hhigh : isHighSurrogate high = true) (hsecond : takeHex4 more = some (low, behind))
      (hlow : isLowSurrogate low = true) (h : Paired behind) : Paired ('\\' :: 'u' :: rest)

variable {α β : Type} {c letter : Char} {start done cs rest : List Char}

theorem Paired.of_cons (hc : c ≠ '\\') (h : Paired (c :: rest)) : Paired rest := by
  cases h with
  | plain _ h => exact h
  | dangling | letter | malformed | unit | pair => exact absurd rfl hc

/-- What stands in front of a text, and is no part of an escape, can be taken off. -/
theorem Paired.of_append {front : List Char} (hfront : '\\' ∉ front)
    (h : Paired (front ++ rest)) : Paired rest := by
  induction front with
  | nil => exact h
  | cons c front ih =>
      rw [List.mem_cons, not_or] at hfront
      exact ih hfront.2 (h.of_cons (Ne.symm hfront.1))

theorem Paired.dropWhile {p : Char → Bool} (hp : p '\\' = false) (h : Paired cs) :
    Paired (cs.dropWhile p) := by
  rw [← List.takeWhile_append_dropWhile (p := p) (l := cs)] at h
  refine h.of_append fun hmem => ?_
  rw [List.mem_takeWhile_imp hmem] at hp
  cases hp

theorem Paired.skipBlank (h : Paired cs) : Paired (skipBlank cs) := h.dropWhile (by decide)

/-- What is read from a text does not stop at half of a pair, and leaves a text that is paired. -/
structure Within (outcome : Except Stop (α × List Char)) : Prop where
  stops : outcome ≠ .error .loneSurrogate
  leaves : ∀ x rest, outcome = .ok (x, rest) → Paired rest

end Flashcards.Json
