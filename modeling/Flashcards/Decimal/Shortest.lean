import Flashcards.Decimal.Double

/-!
# Shortest decimals

A double is written with the fewest digits that read back as the same double; among those, the
decimal nearest to it. The numbers that read back as a double form an interval around it, which
holds its ends when the mantissa is even. On the grid of decimals with a given number of digits
it is enough to look at the two neighbours of the double.
-/

namespace Flashcards.Decimal

/-- A double and the interval of numbers that are read as it, as numerators over one common
denominator. -/
structure Interval where
  low : Nat
  middle : Nat
  high : Nat
  denominator : Nat
  closed : Bool

/-- The interval of the double `mantissa * 2 ^ exponent`. Below a power of two the next double is
only half as far away, unless the exponent is the least there is. -/
def intervalOf (mantissa : Nat) (exponent : Int) : Interval :=
  let below := if mantissa = twoPow 52 ∧ exponent ≠ -1074 then 1 else 2
  let scale := if 2 ≤ exponent then twoPow (exponent - 2).toNat else 1
  let denominator := if exponent < 2 then twoPow (2 - exponent).toNat else 1
  { low := (4 * mantissa - below) * scale
    middle := 4 * mantissa * scale
    high := (4 * mantissa + 2) * scale
    denominator
    closed := mantissa % 2 = 0 }

/-- Whether `candidate` steps of the grid `10 ^ power` lie in the interval. -/
def Interval.holds (interval : Interval) (power : Int) (candidate : Nat) : Bool :=
  let (value, scale) :=
    if 0 ≤ power then (candidate * tenPow power.toNat * interval.denominator, 1)
    else (candidate * interval.denominator, tenPow (-power).toNat)
  let low := interval.low * scale
  let high := interval.high * scale
  if interval.closed then low ≤ value && value ≤ high else low < value && value < high

/-- The grid point in the interval that is nearest to its middle, the even one of two. -/
def Interval.onGrid? (interval : Interval) (power : Int) : Option Nat :=
  let (numerator, denominator) :=
    if 0 ≤ power then (interval.middle, interval.denominator * tenPow power.toNat)
    else (interval.middle * tenPow (-power).toNat, interval.denominator)
  let nearest := roundQuotient numerator denominator
  let floor := numerator / denominator
  let other := if nearest = floor then floor + 1 else floor
  if interval.holds power nearest then some nearest
  else if interval.holds power other then some other
  else none

/-- How many digits stand before the point of a positive quotient, counting zeros behind the point
as negative digits. -/
def magnitude (numerator denominator : Nat) : Int :=
  if denominator ≤ numerator then (Nat.toDigits 10 (numerator / denominator)).length
  else
    let zeros? := (List.range 400).find? fun k => denominator ≤ numerator * tenPow (k + 1)
    Int.negOfNat (zeros?.getD 400)

/-- Tries ever finer grids, with one digit more each time. -/
def shortestFrom (interval : Interval) (size : Int) : Nat → Int → Nat × Int
  | 0, _ => (interval.middle / interval.denominator, 0)
  | more + 1, count =>
    match interval.onGrid? (size - count) with
    | some candidate => (candidate, size - count)
    | none => shortestFrom interval size more (count + 1)

/-- The digits and the power of ten of the shortest decimal that reads back as the double
`mantissa * 2 ^ exponent`, which is not zero. -/
def shortest (mantissa : Nat) (exponent : Int) : Nat × Int :=
  let interval := intervalOf mantissa exponent
  shortestFrom interval (magnitude interval.middle interval.denominator) 17 1

/-- Digits without the zeros at their end. -/
def dropTrailingZeros (digits : List Char) : List Char :=
  (digits.reverse.dropWhile (· == '0')).reverse

/-- Positive numbers are written positionally while the point stands within these bounds. -/
def positionalRange (point : Int) : Bool := -4 < point && point ≤ 16

/-- Digits with the point after `point` of them. A whole number keeps one zero behind the point. -/
def writePositional (digits : List Char) (point : Int) : List Char :=
  if point ≤ 0 then '0' :: '.' :: List.replicate (-point).toNat '0' ++ digits
  else if digits.length ≤ point.toNat then
    digits ++ List.replicate (point.toNat - digits.length) '0' ++ ['.', '0']
  else digits.take point.toNat ++ '.' :: digits.drop point.toNat

/-- Digits with the point after the first, and an exponent of at least two digits. -/
def writeScientific (digits : List Char) (point : Int) : List Char :=
  let power := point - 1
  let exponentDigits := Nat.toDigits 10 power.natAbs
  let padded := if exponentDigits.length < 2 then '0' :: exponentDigits else exponentDigits
  digits.take 1 ++ (if digits.length ≤ 1 then [] else '.' :: digits.drop 1)
    ++ 'e' :: (if power < 0 then '-' else '+') :: padded

/-- The text of a finite double without its sign. -/
def writeMagnitude (mantissa : Nat) (exponent : Int) : List Char :=
  if mantissa = 0 then ['0', '.', '0']
  else
    let (digits, power) := shortest mantissa exponent
    let all := Nat.toDigits 10 digits
    let kept := dropTrailingZeros all
    let point := power + all.length
    if positionalRange point then writePositional kept point else writeScientific kept point

/-- How the values without digits are written. -/
structure Words where
  undefined : String
  infinite : String

/-- The text of a double. -/
def write (words : Words) (x : Float) : String :=
  match Double.ofFloat x with
  | .undefined => words.undefined
  | .infinite negative => (if negative then "-" else "") ++ words.infinite
  | .finite negative mantissa exponent =>
    String.ofList ((if negative then ['-'] else []) ++ writeMagnitude mantissa exponent)

end Flashcards.Decimal
