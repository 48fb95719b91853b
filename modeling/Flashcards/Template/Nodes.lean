import Flashcards.Filter.Kind

/-!
# Template trees

A template that was read is a sequence of texts, fields and sections, and a section has such a
sequence inside. Laid out flat, a tree is a sequence of marks in which each section has one opening
and one closing mark.
-/

namespace Flashcards.Template

/-- A field of the note, and the filters its value passes through: the last one first. -/
structure FieldRef where
  name : String
  filters : List Filter
  deriving DecidableEq, Repr

/-- What a template consists of, in order. -/
inductive Nodes
  | nil
  | text (literal : String) (rest : Nodes)
  | field (ref : FieldRef) (rest : Nodes)
  /-- A section is shown where its field is set or, negated, where it is not. -/
  | block (name : String) (negate : Bool) (body rest : Nodes)
  deriving DecidableEq, Repr

/-- One step through a tree in document order. -/
inductive Mark
  | text (literal : String)
  | field (ref : FieldRef)
  | opening (name : String) (negate : Bool)
  | closing (name : String)
  deriving DecidableEq, Repr

namespace Nodes

/-- Puts the nodes of the first sequence, last one first, in front of the second. -/
def reverseOnto : Nodes → Nodes → Nodes
  | .nil, tail => tail
  | .text literal rest, tail => reverseOnto rest (.text literal tail)
  | .field ref rest, tail => reverseOnto rest (.field ref tail)
  | .block name negate body rest, tail => reverseOnto rest (.block name negate body tail)

/-- The nodes of a sequence, last one first. What is inside sections stays as it is. -/
def reverse (nodes : Nodes) : Nodes := reverseOnto nodes .nil

/-- How many steps it takes to visit every node and every end of a sequence. -/
def size : Nodes → Nat
  | .nil => 1
  | .text _ rest => 1 + rest.size
  | .field _ rest => 1 + rest.size
  | .block _ _ body rest => 1 + body.size + rest.size

/-- The marks of a tree, in front of further ones. -/
def marksOnto : Nodes → List Mark → List Mark
  | .nil, more => more
  | .text literal rest, more => .text literal :: rest.marksOnto more
  | .field ref rest, more => .field ref :: rest.marksOnto more
  | .block name negate body rest, more =>
    .opening name negate :: body.marksOnto (.closing name :: rest.marksOnto more)

/-- The marks of a tree. -/
def marks (nodes : Nodes) : List Mark := nodes.marksOnto []

theorem marksOnto_eq (nodes : Nodes) (more : List Mark) :
    nodes.marksOnto more = nodes.marks ++ more := by
  unfold marks
  induction nodes generalizing more with
  | nil => rfl
  | text literal rest ih => simp [marksOnto, ih more]
  | field ref rest ih => simp [marksOnto, ih more]
  | block name negate body rest ihb ihr =>
    rw [marksOnto, ihb, ihr, marksOnto, ihb (.closing name :: rest.marksOnto [])]
    simp

/-- The fields shown, in document order, inside sections too. -/
def fieldRefs (nodes : Nodes) : List FieldRef :=
  nodes.marks.filterMap fun
    | .field ref => some ref
    | _ => none

/-- The names of the sections, in document order of where they open. -/
def sectionNames (nodes : Nodes) : List String :=
  nodes.marks.filterMap fun
    | .opening name _ => some name
    | _ => none

/-- The fields that pass through the cloze filter, each once, in document order. -/
def clozeFields (nodes : Nodes) : List String :=
  ((nodes.fieldRefs.filter fun ref => ref.filters.contains .cloze).map FieldRef.name).eraseDups

end Nodes

end Flashcards.Template
