import ShellCore.Binary64.Basic

namespace ShellCore.Binary64

/-!
# Shortest decimals

The shortest decimal of a finite number has the fewest digits among the decimals
that round to the number, and is the nearest of those. It is found by trying one
digit, two digits and so on: on the grid of decimals with that many digits, only
the two neighbours of the value can be the nearest that round to the number.
-/

/-- A natural number scaled by a power of ten. -/
structure Decimal where
  coefficient : Nat
  exponent : Int
  deriving Repr, DecidableEq

/-- Which of two equally near decimals is taken. -/
inductive Tie where
  | upward
  | toEven
  deriving Repr, DecidableEq

/-- A positive quotient of natural numbers. -/
structure Quotient where
  numerator : Nat
  denominator : Nat
  deriving Repr, DecidableEq

namespace Quotient

/-- Multiply by a power of two. -/
def scaleByTwo
    (quotient : Quotient)
    (power : Int) :
    Quotient where
  numerator := quotient.numerator * Nat.pow 2 power.toNat
  denominator := quotient.denominator * Nat.pow 2 (-power).toNat

/-- Multiply by a power of ten. -/
def scaleByTen
    (quotient : Quotient)
    (power : Int) :
    Quotient where
  numerator := quotient.numerator * Nat.pow 10 power.toNat
  denominator := quotient.denominator * Nat.pow 10 (-power).toNat

/-- The order of quotients. -/
def le
    (left right : Quotient) :
    Bool :=
  left.numerator * right.denominator ≤ right.numerator * left.denominator

/-- The integer part. -/
def floor
    (quotient : Quotient) :
    Nat :=
  quotient.numerator / quotient.denominator

/-- A natural number. -/
def ofNat
    (value : Nat) :
    Quotient where
  numerator := value
  denominator := 1

/-- The greatest power of ten that is no greater than the quotient. -/
def floorLog10
    (quotient : Quotient) :
    Int :=
  let guess := floorLog2 quotient.numerator quotient.denominator * 30103 / 100000
  if (ofNat 1).le (quotient.scaleByTen (-(guess + 1))) then
    guess + 1
  else if (ofNat 1).le (quotient.scaleByTen (-guess)) then
    guess
  else
    guess - 1

end Quotient

/-- The reals that round to a number: an interval around its value. -/
structure RoundingInterval where
  low : Quotient
  value : Quotient
  high : Quotient
  closed : Bool
  deriving Repr, DecidableEq

namespace RoundingInterval

/--
The interval of a finite number, in quarters of its unit. Below a power of two
the numbers lie twice as close, and the ends round to even significands.
-/
def ofNumber
    (number : Binary64) :
    RoundingInterval :=
  let quarters := 4 * number.significand
  let below :=
    if number.fraction = 0 ∧ 1 < number.exponentField then quarters - 1 else quarters - 2
  let unit (count : Nat) := (Quotient.ofNat count).scaleByTwo (number.exponent - 2)
  { low := unit below
    value := unit quarters
    high := unit (quarters + 2)
    closed := number.significand % 2 = 0 }

/-- Whether a coefficient on the grid of a power of ten rounds to the number. -/
def admits
    (interval : RoundingInterval)
    (grid : Int)
    (coefficient : Nat) :
    Bool :=
  let candidate := (Quotient.ofNat coefficient).scaleByTen grid
  if interval.closed then
    interval.low.le candidate && candidate.le interval.high
  else
    !candidate.le interval.low && !interval.high.le candidate

/-- The nearest coefficient on a grid, if one there rounds to the number. -/
def nearest?
    (interval : RoundingInterval)
    (tie : Tie)
    (grid : Int) :
    Option Nat :=
  let scaled := interval.value.scaleByTen (-grid)
  let below := scaled.floor
  let twice := 2 * scaled.numerator
  let middle := (2 * below + 1) * scaled.denominator
  match interval.admits grid below, interval.admits grid (below + 1) with
  | false, false => none
  | true, false => some below
  | false, true => some (below + 1)
  | true, true =>
      if twice < middle then some below
      else if middle < twice then some (below + 1)
      else
        match tie with
        | .upward => some (below + 1)
        | .toEven => some (if below % 2 = 0 then below else below + 1)

/-- Try grids of one more digit each until one has a decimal that rounds to the number. -/
def search
    (interval : RoundingInterval)
    (tie : Tie) :
    Nat →
    Int →
    Decimal
  | 0, grid => ⟨(interval.value.scaleByTen (-grid)).floor, grid⟩
  | tries + 1, grid =>
      match interval.nearest? tie grid with
      | some coefficient => ⟨coefficient, grid⟩
      | none => interval.search tie tries (grid - 1)

end RoundingInterval

/-- The shortest decimal of a finite number that is not zero. -/
def shortest
    (number : Binary64)
    (tie : Tie) :
    Decimal :=
  let interval := RoundingInterval.ofNumber number
  interval.search tie 17 interval.value.floorLog10

end ShellCore.Binary64
