import Flashcards.Decimal.Shortest
import Flashcards.Json.Value
import Flashcards.Text.Quoted

/-!
# Writing JSON

A value is written on one line, or with every item of a list and every member of an object on a
line of its own, two blanks deeper than the brackets around it. Empty lists and objects are two
brackets either way. Only what JSON forbids inside a string is escaped; all other characters are
written as they are.
-/

namespace Flashcards.Json

/-- How a value is spread over lines. -/
inductive Layout
  | oneLine
  | indented
  deriving DecidableEq, Repr

/-- A line end and the indentation of the given depth. -/
def lineBreak (depth : Nat) : List Char := '\n' :: List.replicate (2 * depth) ' '

/-- What stands between a bracket and what it encloses. -/
def Layout.edge : Layout → Nat → List Char
  | .oneLine, _ => []
  | .indented, depth => lineBreak depth

/-- What stands between a comma and what follows it. -/
def Layout.between : Layout → Nat → List Char
  | .oneLine, _ => [' ']
  | .indented, depth => lineBreak depth

/-- A character inside a string. -/
def stringChar (c : Char) : List Char :=
  if c = '"' ∨ c = '\\' then ['\\', c]
  else if c = '\n' then ['\\', 'n']
  else if c = '\r' then ['\\', 'r']
  else if c = '\t' then ['\\', 't']
  else if c = '\x08' then ['\\', 'b']
  else if c = '\x0c' then ['\\', 'f']
  else if c.toNat < 0x20 then '\\' :: 'u' :: Text.hexDigits 4 c.toNat
  else [c]

/-- A string in double quotes. -/
def stringChars (s : String) : List Char := '"' :: s.toList.flatMap stringChar ++ ['"']

/-- A whole number in decimal digits. -/
def intChars : Int → List Char
  | .ofNat n => Nat.toDigits 10 n
  | .negSucc n => '-' :: Nat.toDigits 10 (n + 1)

/-- The words that stand for numbers without digits in JSON. -/
def numberWords : Decimal.Words := ⟨"NaN", "Infinity"⟩

mutual

/-- A value, inside brackets of the given depth. -/
def Value.chars (layout : Layout) (depth : Nat) : Value → List Char
  | .null => ['n', 'u', 'l', 'l']
  | .bool true => ['t', 'r', 'u', 'e']
  | .bool false => ['f', 'a', 'l', 's', 'e']
  | .int n => intChars n
  | .float x => (Decimal.write numberWords x).toList
  | .str s => stringChars s
  | .arr [] => ['[', ']']
  | .arr (item :: rest) =>
    '[' :: layout.edge (depth + 1) ++ item.chars layout (depth + 1)
      ++ moreItems layout (depth + 1) rest ++ layout.edge depth ++ [']']
  | .obj [] => ['{', '}']
  | .obj (member :: rest) =>
    '{' :: layout.edge (depth + 1) ++ memberChars layout (depth + 1) member
      ++ moreMembers layout (depth + 1) rest ++ layout.edge depth ++ ['}']
termination_by structural v => v

/-- The further items of a list. -/
def moreItems (layout : Layout) (depth : Nat) : List Value → List Char
  | [] => []
  | item :: rest =>
    ',' :: layout.between depth ++ item.chars layout depth ++ moreItems layout depth rest
termination_by structural items => items

/-- The further members of an object. -/
def moreMembers (layout : Layout) (depth : Nat) : List (String × Value) → List Char
  | [] => []
  | member :: rest =>
    ',' :: layout.between depth ++ memberChars layout depth member
      ++ moreMembers layout depth rest
termination_by structural members => members

/-- A key and its value. -/
def memberChars (layout : Layout) (depth : Nat) : String × Value → List Char
  | (key, value) => stringChars key ++ ':' :: ' ' :: value.chars layout depth
termination_by structural member => member

end

/-- A value on one line. -/
def Value.oneLine (v : Value) : String := String.ofList (v.chars .oneLine 0)

/-- A value with a line for each item and member. -/
def Value.indented (v : Value) : String := String.ofList (v.chars .indented 0)

end Flashcards.Json
