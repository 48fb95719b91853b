import Flashcards.Text.Cut

/-!
# Cutting a template into tokens

A template is plain text with tags in it. A tag begins at two opening braces and ends at the next
two closing ones, so tags do not nest. Nothing is lost: the tokens, written one after the other,
are the template again.
-/

namespace Flashcards.Template

/-- A stretch of a template, and the offset at which it begins. -/
inductive Token
  /-- Text between tags. -/
  | text (literal : List Char) (position : Nat)
  /-- What stands between the braces of a tag. -/
  | tag (body : List Char) (position : Nat)
  deriving DecidableEq, Repr

/-- The tokens of a template up to its end, or up to a tag that is never closed. -/
structure Scan where
  tokens : List Token
  /-- Where the tag begins that is never closed. -/
  stopped : Option Nat
  deriving DecidableEq, Repr

/-- The token of the text in front of a tag, if there is any. -/
def leadingText (literal : List Char) (position : Nat) : List Token :=
  if literal.isEmpty then [] else [.text literal position]

/-- Cuts the rest of a template, which begins at `position`. -/
def scanFrom (position : Nat) (cs : List Char) : Scan :=
  match _hopen : Text.cutAtPair '{' cs with
  | none => ⟨leadingText cs position, none⟩
  | some (before, rest) =>
    let start := position + before.length
    match _hclose : Text.cutAtPair '}' rest with
    | none => ⟨leadingText before position, some start⟩
    | some (body, behind) =>
      let more := scanFrom (start + body.length + 4) behind
      ⟨leadingText before position ++ .tag body start :: more.tokens, more.stopped⟩
termination_by cs.length
decreasing_by
  have h1 := congrArg List.length (Text.eq_of_cutAtPair _hopen)
  have h2 := congrArg List.length (Text.eq_of_cutAtPair _hclose)
  simp only [List.length_append, List.length_cons] at h1 h2
  omega

/-- The tokens of a template. -/
def scan (template : String) : Scan := scanFrom 0 template.toList

/-- The piece of the template that a token was cut from. -/
def Token.source : Token → List Char
  | .text literal _ => literal
  | .tag body _ => '{' :: '{' :: body ++ ['}', '}']

/-- The offset at which a token begins. -/
def Token.position : Token → Nat
  | .text _ position => position
  | .tag _ position => position

end Flashcards.Template
