import Flashcards.Cloze.Deletion

/-!
# The deletions of a value

What the deletions of a value are: their numbers, answers and hints, and where in the value they
stand. A value makes one card for each number in it, however often the number occurs.
-/

namespace Flashcards.Cloze

/-- A deletion of a value, and the offsets at which it begins and ends. -/
structure Span where
  ordinal : Nat
  answer : String
  hint : Option String
  start : Nat
  stop : Nat
  deriving DecidableEq, Repr

/-- The spans of parts that begin at an offset. -/
def spansFrom (start : Nat) : List Part → Except Numeral.Fault (List Span)
  | [] => .ok []
  | .plain _ :: rest => spansFrom (start + 1) rest
  | .deletion deletion :: rest => do
    let ordinal ← deletion.ordinal
    let stop := start + deletion.source.length
    let more ← spansFrom stop rest
    .ok (⟨ordinal, String.ofList deletion.answer, deletion.hint.map String.ofList, start, stop⟩
      :: more)

/-- The spans of a value, from left to right. -/
def spans (value : String) : Except Numeral.Fault (List Span) := spansFrom 0 (parts value.toList)

/-- Puts a number into an increasing list, unless it is there already. -/
def insertOrdinal (n : Nat) : List Nat → List Nat
  | [] => [n]
  | m :: rest =>
    if n < m then n :: m :: rest
    else if n = m then m :: rest
    else m :: insertOrdinal n rest

/-- The given numbers in increasing order, each once. -/
def sortOrdinals (numbers : List Nat) : List Nat := numbers.foldr insertOrdinal []

/-- The numbers of the deletions of a value, in increasing order. -/
def ordinals (value : String) : Except Numeral.Fault (List Nat) :=
  (spans value).map fun spans => sortOrdinals (spans.map Span.ordinal)

/-- How many cards a value makes. -/
def count (value : String) : Except Numeral.Fault Nat := (ordinals value).map List.length

theorem mem_insertOrdinal {n m : Nat} {numbers : List Nat} :
    m ∈ insertOrdinal n numbers ↔ m = n ∨ m ∈ numbers := by
  induction numbers with
  | nil => simp [insertOrdinal]
  | cons k rest ih =>
    unfold insertOrdinal
    split
    · simp
    · split
      · rename_i hk
        subst hk
        simp
      · simp [ih]
        constructor <;> (rintro (h | h | h) <;> simp [h])

theorem mem_sortOrdinals {m : Nat} {numbers : List Nat} :
    m ∈ sortOrdinals numbers ↔ m ∈ numbers := by
  induction numbers with
  | nil => simp [sortOrdinals]
  | cons n rest ih =>
    unfold sortOrdinals at ih ⊢
    simp [mem_insertOrdinal, ih]

end Flashcards.Cloze
