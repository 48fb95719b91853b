import Flashcards.Proofs.Text
import Flashcards.Template.Token

/-!
# Where tokens begin and end

What `scanFrom` does at the front of a text, one lemma for each thing that can stand there: text to
the end, text before a tag, a tag, and a tag that is never closed. A proof about all tokens of a
template is an induction over the text with these four steps.
-/

namespace Flashcards.Template

open Text

theorem leadingText_of_ne_nil {literal : List Char} (h : literal ≠ []) (position : Nat) :
    leadingText literal position = [.text literal position] := by
  unfold leadingText
  rw [if_neg (by simpa using h)]

/-! ## One step of the scan -/

theorem scanFrom_of_none {cs : List Char} (h : cutAtPair '{' cs = none) (position : Nat) :
    scanFrom position cs = ⟨leadingText cs position, none⟩ := by
  rw [scanFrom]
  split
  · rfl
  · rename_i hsome
    rw [h] at hsome
    cases hsome

theorem scanFrom_of_open {cs before rest : List Char}
    (hopen : cutAtPair '{' cs = some (before, rest)) (hclose : cutAtPair '}' rest = none)
    (position : Nat) :
    scanFrom position cs = ⟨leadingText before position, some (position + before.length)⟩ := by
  rw [scanFrom]
  split
  · rename_i hnone
    rw [hopen] at hnone
    cases hnone
  · rename_i hsome
    rw [hopen] at hsome
    cases hsome
    split
    · rfl
    · rename_i hsome
      rw [hclose] at hsome
      cases hsome

theorem scanFrom_of_tag {cs before rest body behind : List Char}
    (hopen : cutAtPair '{' cs = some (before, rest))
    (hclose : cutAtPair '}' rest = some (body, behind)) (position : Nat) :
    scanFrom position cs
      = ⟨leadingText before position
            ++ .tag body (position + before.length)
              :: (scanFrom (position + before.length + body.length + 4) behind).tokens,
          (scanFrom (position + before.length + body.length + 4) behind).stopped⟩ := by
  rw [scanFrom]
  split
  · rename_i hnone
    rw [hopen] at hnone
    cases hnone
  · rename_i hsome
    rw [hopen] at hsome
    cases hsome
    split
    · rename_i hnone
      rw [hclose] at hnone
      cases hnone
    · rename_i hsome
      rw [hclose] at hsome
      cases hsome
      rfl

/-! ## What stands at the front -/

/-- A text without an opening pair is one token. -/
theorem scanFrom_plain {cs : List Char} (h : NoPair '{' cs) (position : Nat) :
    scanFrom position cs = ⟨leadingText cs position, none⟩ :=
  scanFrom_of_none (cutAtPair_eq_none_iff.mpr h) position

/-- A tag goes up to the first closing pair, and the scan goes on behind it. -/
theorem scanFrom_tag {body : List Char} (h : NoPair '}' (body ++ ['}'])) (position : Nat)
    (behind : List Char) :
    scanFrom position ('{' :: '{' :: (body ++ '}' :: '}' :: behind))
      = ⟨.tag body position :: (scanFrom (position + body.length + 4) behind).tokens,
          (scanFrom (position + body.length + 4) behind).stopped⟩ := by
  have hopen : cutAtPair '{' ('{' :: '{' :: (body ++ '}' :: '}' :: behind))
      = some ([], body ++ '}' :: '}' :: behind) := rfl
  have hclose : cutAtPair '}' (body ++ '}' :: '}' :: behind) = some (body, behind) :=
    cutAtPair_eq_some_iff.mpr ⟨rfl, h⟩
  exact scanFrom_of_tag hopen hclose position

/-- Text that does not run into the pair behind it is a token of its own. -/
theorem scanFrom_text {literal : List Char} (hne : literal ≠ [])
    (h : NoPair '{' (literal ++ ['{'])) (position : Nat) (rest : List Char) :
    scanFrom position (literal ++ '{' :: '{' :: rest)
      = ⟨.text literal position
            :: (scanFrom (position + literal.length) ('{' :: '{' :: rest)).tokens,
          (scanFrom (position + literal.length) ('{' :: '{' :: rest)).stopped⟩ := by
  have hfront : cutAtPair '{' (literal ++ '{' :: '{' :: rest) = some (literal, rest) :=
    cutAtPair_eq_some_iff.mpr ⟨rfl, h⟩
  have hopen : cutAtPair '{' ('{' :: '{' :: rest) = some ([], rest) := rfl
  -- whether the tag behind the text is ever closed makes no difference to the text
  cases hclose : cutAtPair '}' rest with
  | none =>
      rw [scanFrom_of_open hfront hclose, scanFrom_of_open hopen hclose,
        leadingText_of_ne_nil hne]
      rfl
  | some found =>
      rw [scanFrom_of_tag hfront hclose, scanFrom_of_tag hopen hclose, leadingText_of_ne_nil hne]
      rfl

end Flashcards.Template
