import Flashcards.Text.Cut
import Flashcards.Text.Digit
import Flashcards.Text.Quoted

/-!
# Whole numbers in text

A whole number is written with an optional sign and decimal digits of any script; single
underscores may stand between digits and blanks around the whole. A numeral of more than 4300
digits is refused before anything is computed from it, and before the text behind it is looked at.
A number that would take more digits than that is not written either.
-/

namespace Flashcards.Numeral

/-- Why something is not read as a whole number. -/
inductive Fault
  /-- The numeral has more digits than the limit allows. -/
  | tooLong (digits : Nat)
  /-- The number has more digits than the limit allows to write. -/
  | unwritable
  /-- The text is not a numeral. -/
  | malformed (text : String)
  /-- The number is not a number. -/
  | undefined
  /-- The number is infinite. -/
  | infinite
  /-- A value of this kind is neither a text nor a number. -/
  | notNumeric (kind : String)
  deriving DecidableEq, Repr

/-- The most digits a numeral may have. -/
def digitLimit : Nat := 4300

/-- The fault in words. A quoted text is cut after 200 characters. -/
def Fault.message : Fault → String
  | .tooLong digits =>
    s!"Exceeds the limit ({digitLimit} digits) for integer string conversion: "
      ++ s!"value has {digits} digits; use sys.set_int_max_str_digits() to increase the limit"
  | .unwritable =>
    s!"Exceeds the limit ({digitLimit} digits) for integer string conversion; "
      ++ "use sys.set_int_max_str_digits() to increase the limit"
  | .malformed text =>
    "invalid literal for int() with base 10: "
      ++ String.ofList ((Text.quoted text).toList.take 200)
  | .undefined => "cannot convert float NaN to integer"
  | .infinite => "cannot convert float infinity to integer"
  | .notNumeric kind =>
    "int() argument must be a string, a bytes-like object or a real number, not '"
      ++ kind ++ "'"

/-- The number that ASCII digits stand for. -/
def value (digits : List Char) : Nat :=
  digits.foldl (fun n c => 10 * n + (c.toNat - 48)) 0

/-- The number that ASCII digits stand for, within the limit. -/
def ofDigits (digits : List Char) : Except Fault Nat :=
  if digitLimit < digits.length then .error (.tooLong digits.length) else .ok (value digits)

/-- A whole number in decimal digits, within the limit. -/
def write (n : Int) : Except Fault String :=
  if digitLimit < (toString n.natAbs).length then .error .unwritable else .ok (toString n)

/-- Whether a character is an ASCII digit. -/
def isDigit (c : Char) : Bool := '0' ≤ c && c ≤ '9'

/-- The blanks allowed around a numeral, of the ASCII ones. -/
def isAsciiBlank (c : Char) : Bool := c == ' ' || ('\t' ≤ c && c ≤ '\r')

/-- Writes a character of any script in ASCII: a digit by its value, a blank as a space, and what
has no place in a numeral as a question mark. -/
def asciiForm (c : Char) : Char :=
  if c.toNat < 127 then c
  else if Text.isBlank c then ' '
  else
    match Text.digitValue? c with
    | some digit => Char.ofNat (48 + digit)
    | none => '?'

/-- Splits off the sign: whether it is a minus, and what follows. -/
def takeSign : List Char → Bool × List Char
  | '-' :: rest => (true, rest)
  | '+' :: rest => (false, rest)
  | rest => (false, rest)

/-- The whole number that a text stands for. -/
def ofText (text : String) : Except Fault Int :=
  let cs := (text.toList.map asciiForm).dropWhile isAsciiBlank
  let (negative, unsigned) := takeSign cs
  let inNumeral := fun c => isDigit c || c == '_'
  let groups := Text.pieces (· == '_') (unsigned.takeWhile inNumeral)
  if groups.any List.isEmpty then .error (.malformed text)
  else do
    let magnitude ← ofDigits groups.flatten
    if (unsigned.dropWhile inNumeral).all isAsciiBlank then
      .ok (if negative then -magnitude else magnitude)
    else .error (.malformed text)

end Flashcards.Numeral
