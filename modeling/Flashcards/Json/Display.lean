import Flashcards.Decimal.Shortest
import Flashcards.Json.Value

/-!
# Values inside text

Where a message or a page shows a value, a text stands for itself and everything else is written
as a literal: texts inside lists and objects in quotes, numbers in the shortest form.
-/

namespace Flashcards.Json

/-- The words that stand for numbers without digits in a literal. -/
def literalWords : Decimal.Words := ⟨"nan", "inf"⟩

mutual

/-- A value as a literal. -/
def Value.literal : Value → String
  | .null => "None"
  | .bool b => if b then "True" else "False"
  | .int n => toString n
  | .float x => Decimal.write literalWords x
  | .str s => Text.quoted s
  | .arr items => "[" ++ ", ".intercalate (itemLiterals items) ++ "]"
  | .obj members => "\x7b" ++ ", ".intercalate (memberLiterals members) ++ "\x7d"
termination_by structural v => v

/-- The literals of the items of a list. -/
def itemLiterals : List Value → List String
  | [] => []
  | item :: rest => item.literal :: itemLiterals rest
termination_by structural items => items

/-- The literals of the members of an object. -/
def memberLiterals : List (String × Value) → List String
  | [] => []
  | member :: rest => memberLiteral member :: memberLiterals rest
termination_by structural members => members

/-- A key and a value as literals. -/
def memberLiteral : String × Value → String
  | (key, value) => Text.quoted key ++ ": " ++ value.literal
termination_by structural member => member

end

/-- A value as it stands in a text. -/
def Value.text : Value → String
  | .str s => s
  | other => other.literal

/-- A value as it is put into a message. A number may have too many digits for that. -/
def Value.shown : Value → Except Numeral.Fault String
  | .int n => Numeral.write n
  | other => .ok other.text

end Flashcards.Json
