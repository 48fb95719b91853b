import Flashcards.Text.Blank

/-!
# Cutting text at separators

A text with `n` separators has `n + 1` pieces, so the first piece is always there and is kept
apart from the further ones. Everything that is cut (filter keywords, tag lists, paths, lines)
goes through `cut`; joining the pieces again gives the text back.
-/

namespace Flashcards.Text

/-- The first piece of a text and the pieces after each separator. -/
def cut (isSeparator : Char → Bool) : List Char → List Char × List (List Char)
  | [] => ([], [])
  | c :: rest =>
    let (piece, more) := cut isSeparator rest
    if isSeparator c then ([], piece :: more) else (c :: piece, more)

/-- All pieces of a text, in order. -/
def pieces (isSeparator : Char → Bool) (cs : List Char) : List (List Char) :=
  let (piece, more) := cut isSeparator cs
  piece :: more

theorem pieces_ne_nil (isSeparator : Char → Bool) (cs : List Char) :
    pieces isSeparator cs ≠ [] := by
  simp [pieces]

/-- Cuts at the first place where `mark` stands twice in a row: what is before, what is after. -/
def cutAtPair (mark : Char) : List Char → Option (List Char × List Char)
  | [] => none
  | [_] => none
  | a :: b :: rest =>
    if a = mark ∧ b = mark then some ([], rest)
    else (cutAtPair mark (b :: rest)).map fun (before, after) => (a :: before, after)

/-- The text is the part before the pair, the pair, and the part after it. -/
theorem eq_of_cutAtPair {mark : Char} {cs before after : List Char}
    (h : cutAtPair mark cs = some (before, after)) :
    cs = before ++ mark :: mark :: after := by
  fun_induction cutAtPair mark cs generalizing before with
  | case1 => simp at h
  | case2 => simp at h
  | case3 a b rest hab =>
    obtain ⟨rfl, rfl⟩ := hab
    simp only [Option.some.injEq, Prod.mk.injEq] at h
    simp [← h.1, h.2]
  | case4 a b rest hab ih =>
    simp only [Option.map_eq_some_iff, Prod.mk.injEq] at h
    obtain ⟨⟨x, y⟩, hx, rfl, rfl⟩ := h
    rw [List.cons_append, ← ih hx]

/-- What follows the given word, if the text begins with it. -/
def afterWord? : List Char → List Char → Option (List Char)
  | [], cs => some cs
  | _ :: _, [] => none
  | w :: word, c :: cs => if w = c then afterWord? word cs else none

theorem afterWord?_eq_some_iff {word cs behind : List Char} :
    afterWord? word cs = some behind ↔ cs = word ++ behind := by
  fun_induction afterWord? word cs with
  | case1 => simp [eq_comm]
  | case2 => simp
  | case3 word c cs ih => simp [ih]
  | case4 w word c cs h => simp [Ne.symm h]

theorem afterWord?_length {word cs behind : List Char} (h : afterWord? word cs = some behind) :
    behind.length + word.length = cs.length := by
  simp [afterWord?_eq_some_iff.1 h, Nat.add_comm]

/-- The words of a text: its longest stretches without blanks. -/
def words (s : String) : List String :=
  ((pieces isBlank s.toList).filter (· ≠ [])).map String.ofList

/-- The pieces of a string between single separator characters. -/
def splitAt (separator : Char) (s : String) : List String :=
  (pieces (· == separator) s.toList).map String.ofList

/-- Writes `replacement` for every occurrence of a character. -/
def replaceChar (old replacement : Char) (s : String) : String :=
  String.ofList (s.toList.map fun c => if c = old then replacement else c)

end Flashcards.Text
