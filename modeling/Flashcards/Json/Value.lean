import Flashcards.Bindings
import Flashcards.Decimal.Double
import Flashcards.Numeral

/-!
# JSON values

Data files hold JSON. Whole numbers and numbers with a point or an exponent are kept apart, as is
the order of an object's members.
-/

namespace Flashcards.Json

/-- A JSON value. -/
inductive Value
  | null
  | bool (b : Bool)
  | int (n : Int)
  | float (x : Float)
  | str (s : String)
  | arr (items : List Value)
  | obj (members : List (String × Value))
  deriving Inhabited

namespace Value

/-- The name messages have for the kind of a value. -/
def kind : Value → String
  | .null => "NoneType"
  | .bool _ => "bool"
  | .int _ => "int"
  | .float _ => "float"
  | .str _ => "str"
  | .arr _ => "list"
  | .obj _ => "dict"

/-- Whether a value counts as given: nothing, false, zero and what is empty do not. -/
def isGiven : Value → Bool
  | .null => false
  | .bool b => b
  | .int n => n != 0
  | .float x => x != 0.0
  | .str s => s != ""
  | .arr items => !items.isEmpty
  | .obj members => !members.isEmpty

/-- A list of texts as a value. -/
def ofStrings (texts : List String) : Value := .arr (texts.map .str)

/-- The texts of a list of texts. -/
def strings? : List Value → Option (List String)
  | [] => some []
  | .str s :: rest => (strings? rest).map (s :: ·)
  | _ :: _ => none

/-- A value read as a whole number: a text as a numeral, a fraction without what is behind the
point. -/
def toInt : Value → Except Numeral.Fault Int
  | .bool b => .ok (if b then 1 else 0)
  | .int n => .ok n
  | .float x =>
    match Decimal.Double.ofFloat x with
    | .undefined => .error .undefined
    | .infinite _ => .error .infinite
    | .finite negative mantissa exponent =>
      let whole := Decimal.wholePart mantissa exponent
      .ok (if negative then -whole else whole)
  | .str s => Numeral.ofText s
  | other => .error (.notNumeric other.kind)

end Value

end Flashcards.Json
