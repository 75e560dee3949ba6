import ShellCore.Json.Basic
import ShellCore.Text.Numeral

namespace ShellCore.Json

/-!
# Reading JSON numbers

An integer that fits a word of 64 bits is read exactly. Any other number is read
from a significand of at most 64 bits, the digits beyond it only counted, and a
power of ten: both are rounded, and so is their product or quotient.
-/

/-- The greatest value of an unsigned word of 64 bits. -/
def maxWord : Nat :=
  UInt64.size - 1

/-- The value of an ASCII digit. -/
def digitValue
    (digit : Char) :
    Nat :=
  digit.toNat - '0'.toNat

/-- A significand and the power of ten that scales it. -/
structure Scaled where
  significand : Nat
  power : Int
  deriving Repr, DecidableEq

/-- Read the digits before the point; those that no longer fit scale the rest. -/
def pushWholeDigits
    (scaled : Scaled) :
    List Char →
    Scaled
  | [] => scaled
  | digit :: rest =>
      let next := 10 * scaled.significand + digitValue digit
      if next ≤ maxWord then
        pushWholeDigits ⟨next, scaled.power⟩ rest
      else
        ⟨scaled.significand, scaled.power + (rest.length + 1)⟩

/-- Read the digits behind the point up to the first that does not fit. -/
def pushFractionDigits
    (scaled : Scaled) :
    List Char →
    Scaled
  | [] => scaled
  | digit :: rest =>
      let next := 10 * scaled.significand + digitValue digit
      if next ≤ maxWord then
        pushFractionDigits ⟨next, scaled.power - 1⟩ rest
      else
        scaled

/-- A power of ten, rounded. -/
def powerOfTen
    (power : Nat) :
    Binary64 :=
  Binary64.ofQuotient false (Nat.pow 10 power) 1

/--
Scale a number by a power of ten, in steps of at most 308; a result beyond the
finite numbers is refused. Two steps down leave nothing but zero.
-/
def scaleFloat?
    (number : Binary64)
    (power : Int) :
    Nat →
    Option Binary64
  | 0 => some number
  | steps + 1 =>
      if power.natAbs ≤ 308 then
        if 0 ≤ power then
          let product := number.multiply (powerOfTen power.natAbs)
          if product.isFinite then some product else none
        else
          some (number.divide (powerOfTen power.natAbs))
      else if number.isZero then
        some number
      else if 0 ≤ power then
        none
      else
        scaleFloat? (number.divide (powerOfTen 308)) (power + 308) steps

/-- The parts of a written number. -/
structure NumberText where
  negative : Bool
  whole : List Char
  fraction : Option (List Char)
  exponent : Option (Bool × List Char)
  deriving Repr, DecidableEq

/-- The power of ten that exponent digits write, unless it is out of a signed word of 32 bits. -/
def readPower?
    (digits : List Char) :
    Option Nat :=
  let value := digits.foldl (fun total digit => 10 * total + digitValue digit) 0
  if value < Nat.pow 2 31 then some value else none

/-- The floating number of a written number. -/
def NumberText.float?
    (text : NumberText) :
    Option Binary64 := do
  let whole := pushWholeDigits ⟨0, 0⟩ text.whole
  let scaled := pushFractionDigits whole (text.fraction.getD [])
  let magnitude ←
    match text.exponent with
    | none => scaleFloat? (Binary64.ofNat scaled.significand) scaled.power 4
    | some (below, digits) =>
        match readPower? digits with
        | some power =>
            let signed : Int := if below then -power else power
            scaleFloat? (Binary64.ofNat scaled.significand) (scaled.power + signed) 4
        | none =>
            if below || scaled.significand == 0 then
              some (Binary64.ofNat 0)
            else
              none
  some (if text.negative then magnitude.negate else magnitude)

/-- The number that a text writes: an integer if it can be one. -/
def NumberText.number?
    (text : NumberText) :
    Option JsonNumber :=
  let value := text.whole.foldl (fun total digit => 10 * total + digitValue digit) 0
  if text.fraction.isNone && text.exponent.isNone && !text.negative && value ≤ maxWord then
    some (.integer value)
  else if text.fraction.isNone && text.exponent.isNone && text.negative && value ≠ 0 &&
      value ≤ Nat.pow 2 63 then
    some (.integer (-(value : Int)))
  else
    text.float?.map .float

/-- Split the leading ASCII digits off. -/
def spanDigits
    (characters : List Char) :
    List Char × List Char :=
  characters.span Char.isDigit

/-- Read an exponent part, if one begins here. -/
def readExponent? :
    List Char →
    Option (Option (Bool × List Char) × List Char)
  | marker :: rest =>
      if marker = 'e' ∨ marker = 'E' then
        let (below, unsigned) :=
          match rest with
          | '-' :: digits => (true, digits)
          | '+' :: digits => (false, digits)
          | digits => (false, digits)
        let (digits, rest) := spanDigits unsigned
        if digits.isEmpty then none else some (some (below, digits), rest)
      else
        some (none, marker :: rest)
  | [] => some (none, [])

/-- Read a fraction part, if one begins here. -/
def readFraction? :
    List Char →
    Option (Option (List Char) × List Char)
  | '.' :: rest =>
      let (digits, rest) := spanDigits rest
      if digits.isEmpty then none else some (some digits, rest)
  | characters => some (none, characters)

/-- Read a number from the front of a text. -/
def readNumber?
    (characters : List Char) :
    Option (JsonNumber × List Char) := do
  let (negative, unsigned) :=
    match characters with
    | '-' :: rest => (true, rest)
    | rest => (false, rest)
  let (whole, rest) := spanDigits unsigned
  if whole.isEmpty || (whole.head? == some '0' && 1 < whole.length) then
    none
  else
    let (fraction, rest) ← readFraction? rest
    let (exponent, rest) ← readExponent? rest
    let number ← NumberText.number? ⟨negative, whole, fraction, exponent⟩
    some (number, rest)

end ShellCore.Json
