namespace ShellCore

/-!
# Binary floating point numbers of 64 bits

A number is its interchange format: a sign, an eleven bit exponent field and a
fraction of 52 bits. Its value is taken in exact integer arithmetic, and a
quotient of natural numbers is rounded to the nearest number, ties to even.
-/

/-- A floating point number, by the bits of its interchange format. -/
structure Binary64 where
  bits : UInt64
  deriving Repr, DecidableEq

namespace Binary64

/-- Whether the sign bit is set. -/
def isNegative
    (number : Binary64) :
    Bool :=
  Nat.pow 2 63 ≤ number.bits.toNat

/-- The exponent field. -/
def exponentField
    (number : Binary64) :
    Nat :=
  number.bits.toNat / Nat.pow 2 52 % Nat.pow 2 11

/-- The fraction field. -/
def fraction
    (number : Binary64) :
    Nat :=
  number.bits.toNat % Nat.pow 2 52

/-- Whether the number is neither infinite nor undefined. -/
def isFinite
    (number : Binary64) :
    Bool :=
  number.exponentField < Nat.pow 2 11 - 1

/-- Whether the number is undefined. -/
def isNaN
    (number : Binary64) :
    Bool :=
  !number.isFinite && number.fraction ≠ 0

/-- Whether the number is a zero of either sign. -/
def isZero
    (number : Binary64) :
    Bool :=
  number.bits.toNat % Nat.pow 2 63 = 0

/-- The integer significand of a finite number. -/
def significand
    (number : Binary64) :
    Nat :=
  if number.exponentField = 0 then
    number.fraction
  else
    Nat.pow 2 52 + number.fraction

/-- The power of two that scales the significand of a finite number. -/
def exponent
    (number : Binary64) :
    Int :=
  max 1 number.exponentField - 1075

/-- The number of the given magnitude bits and sign. -/
def ofMagnitude
    (negative : Bool)
    (magnitude : Nat) :
    Binary64 where
  bits := UInt64.ofNat (if negative then Nat.pow 2 63 + magnitude else magnitude)

/-- The magnitude bits of an infinity. -/
def infiniteMagnitude : Nat :=
  (Nat.pow 2 11 - 1) * Nat.pow 2 52

/-- Positive infinity. -/
def infinity : Binary64 :=
  ofMagnitude false infiniteMagnitude

/-- Negative infinity. -/
def negativeInfinity : Binary64 :=
  ofMagnitude true infiniteMagnitude

/-- An undefined number. -/
def nan : Binary64 :=
  ofMagnitude false (infiniteMagnitude + Nat.pow 2 51)

/-- The number of the opposite sign. -/
def negate
    (number : Binary64) :
    Binary64 :=
  ofMagnitude (!number.isNegative) (number.bits.toNat % Nat.pow 2 63)

/-- The integer nearest to a quotient; of two nearest, the even one. -/
def roundQuotient
    (numerator denominator : Nat) :
    Nat :=
  let quotient := numerator / denominator
  let remainder := numerator % denominator
  if 2 * remainder > denominator ∨ (2 * remainder = denominator ∧ quotient % 2 = 1) then
    quotient + 1
  else
    quotient

/-- The numerator and denominator of a quotient multiplied by a power of two. -/
def scaleByPower
    (numerator denominator : Nat)
    (power : Int) :
    Nat × Nat :=
  (numerator * Nat.pow 2 power.toNat, denominator * Nat.pow 2 (-power).toNat)

/-- The greatest power of two that is no greater than a positive quotient. -/
def floorLog2
    (numerator denominator : Nat) :
    Int :=
  let guess : Int := numerator.log2 - denominator.log2
  let scaled := scaleByPower numerator denominator (-guess)
  if scaled.2 ≤ scaled.1 then guess else guess - 1

/--
The number nearest to a quotient, ties to the even significand. A quotient
beyond the greatest finite number by half a unit or more is infinite.
-/
def ofQuotient
    (negative : Bool)
    (numerator denominator : Nat) :
    Binary64 :=
  if numerator = 0 ∨ denominator = 0 then
    ofMagnitude negative 0
  else
    let exponent := max (floorLog2 numerator denominator - 52) (-1074)
    let scaled := scaleByPower numerator denominator (-exponent)
    let significand := roundQuotient scaled.1 scaled.2
    ofMagnitude negative
      (min infiniteMagnitude ((exponent + 1074).toNat * Nat.pow 2 52 + significand))

/-- The number nearest to a natural number. -/
def ofNat
    (value : Nat) :
    Binary64 :=
  ofQuotient false value 1

/-- The rounded product of two finite numbers. -/
def multiply
    (left right : Binary64) :
    Binary64 :=
  let scaled :=
    scaleByPower (left.significand * right.significand) 1 (left.exponent + right.exponent)
  ofQuotient (left.isNegative != right.isNegative) scaled.1 scaled.2

/-- The rounded quotient of two finite numbers, the second not zero. -/
def divide
    (left right : Binary64) :
    Binary64 :=
  let scaled :=
    scaleByPower left.significand right.significand (left.exponent - right.exponent)
  ofQuotient (left.isNegative != right.isNegative) scaled.1 scaled.2

end Binary64

end ShellCore
