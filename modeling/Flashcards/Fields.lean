import Flashcards.Failure
import Flashcards.Json.Value

/-!
# Fields of a note

A note binds texts to field names. A field that is missing and one that is empty mean the same: it
has the empty value and is not set.
-/

namespace Flashcards

/-- The texts of a note by field name. -/
abbrev Fields := Bindings String String

namespace Fields

/-- The value of a field, empty where it is missing. -/
def value (fields : Fields) (name : String) : String := (Bindings.find? name fields).getD ""

/-- Whether a field has anything in it. -/
def isSet (fields : Fields) (name : String) : Bool := fields.value name != ""

/-- The fields that the members of an object bind. All values have to be texts. -/
def ofMembers : List (String × Json.Value) → Except InputFault Fields
  | [] => .ok []
  | (name, .str s) :: rest => (ofMembers rest).map ((name, s) :: ·)
  | (name, other) :: _ => .error (.fieldNotText name other.kind)

/-- The fields that a value describes. -/
def ofValue : Json.Value → Except InputFault Fields
  | .obj members => ofMembers members
  | other => .error (.fieldsNotObject other.kind)

theorem value_bind (fields : Fields) (name other text : String) :
    Fields.value (Bindings.bind name text fields) other
      = if name = other then text else fields.value other := by
  unfold value
  rw [Bindings.find?_bind]
  split <;> rfl

end Fields

end Flashcards
