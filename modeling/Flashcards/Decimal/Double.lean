/-!
# Double-precision numbers

A finite double is a whole mantissa times a power of two. Reading a decimal picks the double
nearest to it, the one with the even mantissa when two are equally near. All of this is exact
arithmetic on natural numbers; a double is made from its bits only at the end.
-/

namespace Flashcards.Decimal

/-- A power of two. -/
def twoPow (exponent : Nat) : Nat := Nat.pow 2 exponent

/-- A power of ten. -/
def tenPow (exponent : Nat) : Nat := Nat.pow 10 exponent

/-- What a double stands for. -/
inductive Double
  | undefined
  | infinite (negative : Bool)
  /-- The number `mantissa * 2 ^ exponent`, with the sign in front. -/
  | finite (negative : Bool) (mantissa : Nat) (exponent : Int)
  deriving DecidableEq, Repr

/-- Takes the bits of a double apart. -/
def Double.ofFloat (x : Float) : Double :=
  let bits := x.toBits.toNat
  let negative := bits / twoPow 63 == 1
  let exponent : Nat := bits / twoPow 52 % twoPow 11
  let fraction : Nat := bits % twoPow 52
  if exponent = 2047 then
    if fraction = 0 then .infinite negative else .undefined
  else if exponent = 0 then .finite negative fraction (-1074)
  else .finite negative (twoPow 52 + fraction) ((exponent : Int) - 1075)

/-- The whole part of a finite double. -/
def wholePart (mantissa : Nat) (exponent : Int) : Nat :=
  if 0 ≤ exponent then mantissa * twoPow exponent.toNat else mantissa / twoPow (-exponent).toNat

/-- The whole number nearest to a quotient, the even one of two equally near. -/
def roundQuotient (numerator denominator : Nat) : Nat :=
  let quotient := numerator / denominator
  let twice := 2 * (numerator % denominator)
  if twice < denominator then quotient
  else if denominator < twice then quotient + 1
  else quotient + quotient % 2

/-- A numerator and a denominator, scaled by a power of two. -/
def scaleTwo (numerator denominator : Nat) (exponent : Int) : Nat × Nat :=
  if 0 ≤ exponent then (numerator * twoPow exponent.toNat, denominator)
  else (numerator, denominator * twoPow (-exponent).toNat)

/-- The exponent at which a positive quotient has a mantissa of 53 bits, or the least exponent
there is. -/
def exponentFor (numerator denominator : Nat) : Int :=
  let guess : Int := (numerator.log2 : Int) - (denominator.log2 : Int) - 52
  let (n, d) := scaleTwo numerator denominator (-guess)
  max (-1074) (if n / d < twoPow 52 then guess - 1 else guess)

/-- The bits of the double nearest to a positive quotient. -/
def nearestBits (numerator denominator : Nat) : Nat :=
  let exponent := exponentFor numerator denominator
  let (n, d) := scaleTwo numerator denominator (-exponent)
  let mantissa := roundQuotient n d
  if mantissa < twoPow 52 then mantissa
  else
    let biased := (exponent + 1075).toNat
    let (mantissa, biased) :=
      if mantissa = twoPow 53 then (twoPow 52, biased + 1) else (mantissa, biased)
    if 2047 ≤ biased then 2047 * twoPow 52 else biased * twoPow 52 + (mantissa - twoPow 52)

/-- The bits of the double nearest to `digits * 10 ^ exponent`. Past 310 digits before the point
the result is infinite, and with 330 zeros behind it, zero. -/
def bitsOfDecimal (digits : Nat) (exponent : Int) : Nat :=
  if digits = 0 then 0
  else
    let magnitude : Int := (Nat.toDigits 10 digits).length + exponent
    if 310 < magnitude then 2047 * twoPow 52
    else if magnitude < -330 then 0
    else if 0 ≤ exponent then nearestBits (digits * tenPow exponent.toNat) 1
    else nearestBits digits (tenPow (-exponent).toNat)

/-- The double nearest to a decimal. -/
def toFloat (negative : Bool) (digits : Nat) (exponent : Int) : Float :=
  Float.ofBits (UInt64.ofNat
    (bitsOfDecimal digits exponent + if negative then twoPow 63 else 0))

end Flashcards.Decimal
