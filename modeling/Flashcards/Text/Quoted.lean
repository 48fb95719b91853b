import Flashcards.Text.Printable

/-!
# Quoted text

Messages show names and keywords in quotes, so that blanks and invisible characters can be told
apart. The quote is a single one unless the text holds single quotes and no double ones. Inside,
the quote in use and the backslash are escaped, and characters without a mark are written by
their code point, in as few of two, four or eight hexadecimal digits as will do.
-/

namespace Flashcards.Text

/-- The hexadecimal digit of a value below sixteen. -/
def hexDigit (n : Nat) : Char :=
  if n < 10 then Char.ofNat (48 + n) else Char.ofNat (87 + n)

/-- The lowest `width` hexadecimal digits of a number, in lower case. -/
def hexDigits : Nat → Nat → List Char
  | 0, _ => []
  | width + 1, n => hexDigits width (n / 16) ++ [hexDigit (n % 16)]

/-- A character as it stands inside quotes of the given kind. -/
def quoteChar (quoteMark : Char) (c : Char) : List Char :=
  if c = quoteMark ∨ c = '\\' then ['\\', c]
  else if c = '\n' then ['\\', 'n']
  else if c = '\r' then ['\\', 'r']
  else if c = '\t' then ['\\', 't']
  else if isPrintable c then [c]
  else if c.toNat < 0x100 then '\\' :: 'x' :: hexDigits 2 c.toNat
  else if c.toNat < 0x10000 then '\\' :: 'u' :: hexDigits 4 c.toNat
  else '\\' :: 'U' :: hexDigits 8 c.toNat

/-- The quote a text is put in: double only where that saves escaping. -/
def quoteMarkFor (cs : List Char) : Char :=
  if cs.contains '\'' && !cs.contains '"' then '"' else '\''

/-- A text in quotes. -/
def quoted (s : String) : String :=
  let cs := s.toList
  let mark := quoteMarkFor cs
  String.ofList (mark :: cs.flatMap (quoteChar mark) ++ [mark])

/-- A list of texts, each in quotes. -/
def quotedList (items : List String) : String :=
  "[" ++ ", ".intercalate (items.map quoted) ++ "]"

end Flashcards.Text
