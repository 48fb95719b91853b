import Flashcards.Numeral
import Flashcards.Text.Cut

/-!
# Cloze deletions

A field's value may hold deletions, parts that a card hides. A deletion is written `{{c`, its
number, `::`, the answer and `}}`, with `::` and a hint after the answer if there is one. The
number has no leading zero, and no closing brace stands in between. The value is a sequence of
such deletions with plain characters between them, found from left to right.
-/

namespace Flashcards.Cloze

/-- A deletion as it is written: the digits of its number, its answer and its hint. -/
structure Deletion where
  digits : List Char
  answer : List Char
  hint : Option (List Char)
  deriving DecidableEq, Repr

/-- A deletion in writing. -/
def Deletion.source (deletion : Deletion) : List Char :=
  '{' :: '{' :: 'c' :: deletion.digits ++ ':' :: ':' :: deletion.answer
    ++ (match deletion.hint with
      | none => []
      | some hint => ':' :: ':' :: hint)
    ++ ['}', '}']

/-- The number of a deletion. -/
def Deletion.ordinal (deletion : Deletion) : Except Numeral.Fault Nat :=
  Numeral.ofDigits deletion.digits

/-- Takes the digits of a number without leading zero off the front. -/
def takeOrdinal (cs : List Char) : List Char × List Char :=
  if cs.head? = some '0' then ([], cs)
  else (cs.takeWhile Numeral.isDigit, cs.dropWhile Numeral.isDigit)

/-- Parts the answer from the hint behind the first pair of colons. -/
def partHint (content : List Char) : List Char × Option (List Char) :=
  match Text.cutAtPair ':' content with
  | none => (content, none)
  | some (answer, hint) => (answer, some hint)

/-- The deletion that begins at the front of a text, and the text behind it. -/
def deletionAt? : List Char → Option (Deletion × List Char)
  | '{' :: '{' :: 'c' :: rest =>
    let (digits, behind) := takeOrdinal rest
    if digits.isEmpty then none
    else
      match behind with
      | ':' :: ':' :: rest =>
        let content := rest.takeWhile (· != '}')
        match rest.dropWhile (· != '}') with
        | '}' :: '}' :: behind =>
          let (answer, hint) := partHint content
          some (⟨digits, answer, hint⟩, behind)
        | _ => none
      | _ => none
  | _ => none

theorem takeOrdinal_length_le (cs : List Char) : (takeOrdinal cs).2.length ≤ cs.length := by
  unfold takeOrdinal
  split
  · exact Nat.le_refl _
  · exact (List.dropWhile_suffix _).length_le

/-- What a deletion at the front is made of, piece by piece. -/
theorem deletionAt?_eq_some {cs behind : List Char} {deletion : Deletion}
    (h : deletionAt? cs = some (deletion, behind)) :
    ∃ rest after, cs = '{' :: '{' :: 'c' :: rest ∧ deletion.digits ≠ [] ∧
      takeOrdinal rest = (deletion.digits, ':' :: ':' :: after) ∧
      after.dropWhile (· != '}') = '}' :: '}' :: behind ∧
      partHint (after.takeWhile (· != '}')) = (deletion.answer, deletion.hint) := by
  unfold deletionAt? at h
  split at h
  · rename_i rest
    dsimp only at h
    split at h
    · cases h
    · rename_i hdigits
      split at h
      · rename_i after hafter
        split at h
        · rename_i tail htail
          cases h
          exact ⟨rest, after, rfl, by simpa using hdigits, Prod.ext rfl hafter, htail, rfl⟩
        · cases h
      · cases h
  · cases h

theorem deletionAt?_length {cs behind : List Char} {deletion : Deletion}
    (h : deletionAt? cs = some (deletion, behind)) : behind.length < cs.length := by
  obtain ⟨rest, after, rfl, -, hordinal, hdrop, -⟩ := deletionAt?_eq_some h
  have hrest := takeOrdinal_length_le rest
  have hafter := (List.dropWhile_suffix (l := after) (· != '}')).length_le
  rw [hordinal] at hrest
  rw [hdrop] at hafter
  simp only [List.length_cons] at hrest hafter ⊢
  omega

/-- A plain character of a value, or a deletion in it. -/
inductive Part
  | plain (c : Char)
  | deletion (deletion : Deletion)
  deriving DecidableEq, Repr

/-- A value as plain characters and deletions, in order. -/
def parts (cs : List Char) : List Part :=
  match _h : deletionAt? cs with
  | some (deletion, behind) => .deletion deletion :: parts behind
  | none =>
    match cs with
    | [] => []
    | c :: rest => .plain c :: parts rest
termination_by cs.length
decreasing_by
  · exact deletionAt?_length _h
  · simp

end Flashcards.Cloze
