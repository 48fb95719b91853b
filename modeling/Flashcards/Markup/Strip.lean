import Flashcards.Text.Blank

/-!
# Plain text from markup

The text filter keeps what a reader sees: tags are dropped, and line break tags become line
breaks. A tag is a pair of angle brackets with something in between.
-/

namespace Flashcards.Markup

/-- What follows a line break tag at the front: `br`, then blanks, then a slash or none. -/
def afterBreak? : List Char → Option (List Char)
  | '<' :: '/' :: b :: r :: '>' :: rest =>
    if b.toLower = 'b' ∧ r.toLower = 'r' then some rest else none
  | '<' :: b :: r :: rest =>
    if b.toLower = 'b' ∧ r.toLower = 'r' then
      match rest.dropWhile Text.isBlank with
      | '/' :: '>' :: behind => some behind
      | '>' :: behind => some behind
      | _ => none
    else none
  | _ => none

/-- What follows a tag at the front. -/
def afterTag? : List Char → Option (List Char)
  | '<' :: rest =>
    if rest.head? = some '>' then none
    else
      match rest.dropWhile (· != '>') with
      | '>' :: behind => some behind
      | _ => none
  | _ => none

theorem afterBreak?_length {cs behind : List Char} (h : afterBreak? cs = some behind) :
    behind.length < cs.length := by
  unfold afterBreak? at h
  split at h
  · split at h <;> simp_all
    omega
  · rename_i rest _
    have hd := (List.dropWhile_suffix (l := rest) Text.isBlank).length_le
    split at h
    · split at h
      all_goals try (simp at h; done)
      all_goals
        rename_i hb
        rw [hb] at hd
        simp only [Option.some.injEq] at h
        subst h
        simp only [List.length_cons] at *
        omega
    · simp at h
  · simp at h

theorem afterTag?_length {cs behind : List Char} (h : afterTag? cs = some behind) :
    behind.length < cs.length := by
  unfold afterTag? at h
  split at h
  · rename_i rest
    have hd := (List.dropWhile_suffix (l := rest) (· != '>')).length_le
    split at h
    · simp at h
    · split at h
      · rename_i hb
        rw [hb] at hd
        simp only [Option.some.injEq] at h
        subst h
        simp only [List.length_cons] at *
        omega
      · simp at h
  · simp at h

/-- Writes a line feed for every line break tag. -/
def breaksToLines (cs : List Char) : List Char :=
  match _h : afterBreak? cs with
  | some behind => '\n' :: breaksToLines behind
  | none =>
    match cs with
    | [] => []
    | c :: rest => c :: breaksToLines rest
termination_by cs.length
decreasing_by
  · exact afterBreak?_length _h
  · simp

/-- Drops every tag. -/
def dropTags (cs : List Char) : List Char :=
  match _h : afterTag? cs with
  | some behind => dropTags behind
  | none =>
    match cs with
    | [] => []
    | c :: rest => c :: dropTags rest
termination_by cs.length
decreasing_by
  · exact afterTag?_length _h
  · simp

/-- The text a reader sees. -/
def strip (cs : List Char) : List Char := dropTags (breaksToLines cs)

end Flashcards.Markup
