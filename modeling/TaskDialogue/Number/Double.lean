/-!
# Binary floating-point numbers

A double is its 64-bit word. Every finite magnitude is a natural number of units
of 2⁻¹⁰⁷⁴, the least positive double, so rounding is exact arithmetic on natural
numbers. The arithmetic of the processor is not used.
-/
namespace TaskDialogue

/-- A binary64 number, given by its sign, exponent and fraction fields. -/
structure Double where
  bits : UInt64
deriving DecidableEq, Repr, Inhabited

namespace Double

def signWeight : Nat := 0x8000000000000000

/-- The weight of the last exponent bit: the fraction has the 52 bits below it. -/
def exponentWeight : Nat := 0x10000000000000

/-- Whether the sign bit is set; zero has a sign too. -/
def isNegative (x : Double) : Bool := signWeight ≤ x.bits.toNat

def exponentField (x : Double) : Nat := x.bits.toNat / exponentWeight % 2048

def fractionField (x : Double) : Nat := x.bits.toNat % exponentWeight

/-- Neither an infinity nor a NaN. -/
def isFinite (x : Double) : Bool := x.exponentField < 2047

def isNaN (x : Double) : Bool := !x.isFinite && x.fractionField != 0

/-- The significand as an integer, with the bit that normal numbers leave out. -/
def significand (x : Double) : Nat :=
  if x.exponentField = 0 then x.fractionField else exponentWeight + x.fractionField

/-- How often the significand is doubled: a finite magnitude is
`significand * 2 ^ doublings` units. -/
def doublings (x : Double) : Nat := x.exponentField - 1

/-- The magnitude of a finite double in units of 2⁻¹⁰⁷⁴. -/
def units (x : Double) : Nat := x.significand <<< x.doublings

def unitsPerOne : Nat := 1 <<< 1074

/-- The word below the sign bit of an infinity. -/
def infinityWord : Nat := 2047 * exponentWeight

/-- The double with this sign and this word below the sign bit. -/
def ofWord (negative : Bool) (word : Nat) : Double :=
  ⟨UInt64.ofNat (if negative then signWeight + word else word)⟩

def infinity (negative : Bool) : Double := ofWord negative infinityWord

def zero (negative : Bool) : Double := ofWord negative 0

def nan : Double := ofWord false (infinityWord + exponentWeight / 2)

/-- The quotient rounded to the nearest integer, a half to the even one. -/
def roundQuotient (num den : Nat) : Nat :=
  let quotient := num / den
  let twice := 2 * (num % den)
  if twice < den then quotient
  else if den < twice then quotient + 1
  else quotient + quotient % 2

/-- The double nearest to `num / den` units, a half to the even significand. A
significand that rounds up to the next power of two carries into the exponent
field, and past the greatest finite double the result is an infinity. -/
def ofUnits (negative : Bool) (num den : Nat) : Double :=
  let guess := num.log2 - den.log2 - 53
  let doublings := if num / (den <<< guess) < 2 * exponentWeight then guess else guess + 1
  let word := doublings * exponentWeight + roundQuotient num (den <<< doublings)
  ofWord negative (min word infinityWord)

/-- The double nearest to the quotient of two natural numbers. -/
def ofRatio (negative : Bool) (num den : Nat) : Double :=
  ofUnits negative (num * unitsPerOne) den

def ofNat (n : Nat) : Double := ofRatio false n 1

def ofInt (n : Int) : Double := ofRatio (n < 0) n.natAbs 1

/-- The double nearest to `digits * 10 ^ exponent`. Exponents far outside the
range of doubles are settled without the power. -/
def ofScientific (negative : Bool) (digits : Nat) (exponent : Int) : Double :=
  let order : Int := digits.log2 * 30103 / 100000 + exponent
  if digits = 0 || order < -400 then zero negative
  else if 400 < order then infinity negative
  else if 0 ≤ exponent then ofRatio negative (digits * Nat.pow 10 exponent.toNat) 1
  else ofRatio negative digits (Nat.pow 10 (-exponent).toNat)

/-- The magnitude of the product of two finite doubles, rounded. -/
def mulMagnitude (x y : Double) : Double :=
  ofRatio false (x.units * y.units) (unitsPerOne * unitsPerOne)

/-- The magnitude of the quotient of two finite doubles, rounded, for a divisor
other than zero. -/
def divMagnitude (x y : Double) : Double := ofRatio false x.units y.units

def negate (x : Double) : Double := ⟨x.bits ^^^ 0x8000000000000000⟩

end Double
end TaskDialogue
