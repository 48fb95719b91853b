import Flashcards.Numeral

/-!
# What is wrong with a JSON text

A text that is not JSON is refused at its first offending character. The message says what was
expected there and where it stands: its line and column, counted from one, and its offset, counted
from zero. Only a line feed starts a line.
-/

namespace Flashcards.Json

/-- What is wrong at a place of a text. -/
inductive Complaint
  | noValue
  | noKey
  | noColon
  | noComma
  | unterminatedString
  | controlCharacter
  | unknownEscape
  | badUnicodeEscape
  | extraData
  | byteOrderMark
  deriving DecidableEq, Repr

/-- The complaint in words. -/
def Complaint.message : Complaint → String
  | .noValue => "Expecting value"
  | .noKey => "Expecting property name enclosed in double quotes"
  | .noColon => "Expecting ':' delimiter"
  | .noComma => "Expecting ',' delimiter"
  | .unterminatedString => "Unterminated string starting at"
  | .controlCharacter => "Invalid control character at"
  | .unknownEscape => "Invalid \\escape"
  | .badUnicodeEscape => "Invalid \\uXXXX escape"
  | .extraData => "Extra data"
  | .byteOrderMark => "Unexpected UTF-8 BOM (decode using utf-8-sig)"

/-- A complaint and the place it is about. -/
structure Problem where
  complaint : Complaint
  line : Nat
  column : Nat
  position : Nat
  deriving DecidableEq, Repr

/-- The problem in words. -/
def Problem.message (problem : Problem) : String :=
  s!"{problem.complaint.message}: line {problem.line} column {problem.column} "
    ++ s!"(char {problem.position})"

/-- The place in a text that has the given characters in front of it. -/
def Problem.after (complaint : Complaint) (before : List Char) : Problem :=
  { complaint
    line := before.count '\n' + 1
    column := (before.reverse.takeWhile (· != '\n')).length + 1
    position := before.length }

/-- Why a text cannot be read as a JSON value. -/
inductive Fault
  | malformed (problem : Problem)
  /-- A whole number in the text has too many digits. -/
  | numeral (fault : Numeral.Fault)
  deriving DecidableEq, Repr

/-- The fault in words. -/
def Fault.message : Fault → String
  | .malformed problem => problem.message
  | .numeral fault => fault.message

/-- Why no value is read from a text. -/
inductive Refusal
  | fault (cause : Fault)
  /-- An escape by number is half of a surrogate pair without the other half. JSON has nothing
  against it, but it stands for no character, and texts here are made of characters. So it is told
  apart from all faults of a text. -/
  | loneSurrogate
  deriving DecidableEq, Repr

/-- The refusal in words. -/
def Refusal.message : Refusal → String
  | .fault cause => cause.message
  | .loneSurrogate => "Lone surrogate"

end Flashcards.Json
