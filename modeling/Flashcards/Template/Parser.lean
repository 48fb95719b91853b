import Flashcards.Template.Error
import Flashcards.Template.Nodes
import Flashcards.Template.Token

/-!
# Reading templates

Each token of a template is a mark of its tree: what a tag is shows in its first character that is
not blank. The marks are taken in order, and the sections that are still open wait on a stack, so
sections may nest to any depth. A keyword that names no filter is passed over, or refused where
the policy is strict.
-/

namespace Flashcards.Template

/-- What is done about a keyword that names no filter. -/
inductive Policy
  | lenient
  | strict
  deriving DecidableEq, Repr

/-! ## Tags -/

/-- The filters that keywords name. -/
def filtersOf (policy : Policy) : List (List Char) → Except Error (List Filter)
  | [] => .ok []
  | word :: rest =>
    let keyword := String.ofList (Text.trim word)
    match Filter.ofKeyword? keyword, policy with
    | some filter, _ => (filtersOf policy rest).map (filter :: ·)
    | none, .lenient => filtersOf policy rest
    | none, .strict => .error (.unknownFilter keyword)

/-- The field of a tag: the name stands behind the last colon, keywords in front of it. -/
def readField (policy : Policy) (body : List Char) : Except Error FieldRef :=
  let parts := Text.pieces (· == ':') body
  let name := parts.getLast (Text.pieces_ne_nil _ _)
  (filtersOf policy parts.dropLast).map fun filters =>
    ⟨String.ofList (Text.trim name), filters⟩

/-- The name behind the first character of a tag. -/
def nameOf (cs : List Char) : String := String.ofList (Text.trim cs)

/-- The mark that a tag stands for. -/
def readTag (policy : Policy) (body : List Char) : Except Error Mark :=
  match Text.trim body with
  | '#' :: name => .ok (.opening (nameOf name) false)
  | '^' :: name => .ok (.opening (nameOf name) true)
  | '/' :: name => .ok (.closing (nameOf name))
  | trimmed => (readField policy trimmed).map .field

/-- The mark that a token stands for. -/
def Token.mark (policy : Policy) : Token → Except Error Mark
  | .text literal _ => .ok (.text (String.ofList literal))
  | .tag body _ => readTag policy body

/-! ## Sections -/

/-- A section that is still open, and the nodes in front of it, last one first. -/
structure OpenSection where
  name : String
  negate : Bool
  before : Nodes
  deriving DecidableEq, Repr

/-- A tree in the making: the nodes of the innermost open section, last one first, and the open
sections from the innermost to the outermost. -/
structure Draft where
  body : Nodes
  opened : List OpenSection
  deriving DecidableEq, Repr

namespace Draft

/-- The draft before the first mark. -/
def empty : Draft := ⟨.nil, []⟩

/-- Adds a mark. -/
def add (draft : Draft) : Mark → Except Error Draft
  | .text literal => .ok { draft with body := .text literal draft.body }
  | .field ref => .ok { draft with body := .field ref draft.body }
  | .opening name negate => .ok ⟨.nil, ⟨name, negate, draft.body⟩ :: draft.opened⟩
  | .closing name =>
    match draft.opened with
    | [] => .error (.mismatchedClose none name)
    | inner :: outer =>
      if inner.name = name then
        .ok ⟨.block inner.name inner.negate draft.body.reverse inner.before, outer⟩
      else .error (.mismatchedClose (some inner.name) name)

/-- Adds the marks of tokens, in order. -/
def addTokens (policy : Policy) : Draft → List Token → Except Error Draft
  | draft, [] => .ok draft
  | draft, token :: rest => do
    let mark ← token.mark policy
    let draft ← draft.add mark
    draft.addTokens policy rest

/-- The tree, once no section is open. -/
def finish (draft : Draft) : Except Error Nodes :=
  match draft.opened with
  | [] => .ok draft.body.reverse
  | inner :: _ => .error (.unterminatedSection inner.name)

end Draft

/-- Reads a template. -/
def parse (policy : Policy) (template : String) : Except Error Nodes := do
  let cut := scan template
  let draft ← Draft.empty.addTokens policy cut.tokens
  match cut.stopped with
  | some position => .error (.unterminatedTag position)
  | none => draft.finish

end Flashcards.Template
