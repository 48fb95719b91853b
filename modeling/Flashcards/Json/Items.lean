import Flashcards.Failure
import Flashcards.Json.Value

/-!
# The items of a value

Settings and result files are not checked in advance, so a value that should be a list may be of
any kind. A list has its items, an object its keys and a text its characters; nothing else has
items.
-/

namespace Flashcards.Json.Value

/-- The items of a value, if its kind has any. -/
def items? : Value → Option (List Value)
  | .arr items => some items
  | .obj members => some (members.map fun (key, _) => .str key)
  | .str s => some (s.toList.map fun c => .str c.toString)
  | _ => none

/-- The items of a value. -/
def items (v : Value) : Except ShapeFault (List Value) :=
  match v.items? with
  | some items => .ok items
  | none => .error (.notIterable v.kind)

/-- The texts of items from the given index on. -/
def textsFrom (index : Nat) : List Value → Except ShapeFault (List String)
  | [] => .ok []
  | .str s :: rest => (textsFrom (index + 1) rest).map (s :: ·)
  | other :: _ => .error (.itemNotText index other.kind)

/-- The items of a value with a separator between them; all have to be texts. -/
def joined (separator : String) (v : Value) : Except ShapeFault String :=
  match v.items? with
  | some items => (textsFrom 0 items).map separator.intercalate
  | none => .error .notJoinable

/-- The value under a key, or another one where the key is missing. -/
def memberOr (members : Bindings String Value) (key : String) (default : Value) : Value :=
  (Bindings.find? key members).getD default

end Flashcards.Json.Value
