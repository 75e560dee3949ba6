import ShellCore.Binary64.Shortest

namespace ShellCore.Binary64

/-!
# Layouts of decimal text

A layout fixes how the shortest digits of a number are written: which magnitudes
are positional, whether whole numbers keep a fraction, and the special texts.
-/

/-- How a number is written. -/
structure Layout where
  /-- Which of two equally near shortest decimals is written. -/
  tie : Tie
  /-- The powers of ten of the first digit that are written in place. -/
  isPositional : Int → Bool
  /-- Whether a whole number in place is written with a fraction of zero. -/
  wholeFraction : Bool
  nanText : String
  infinityText : String
  negativeInfinityText : String

/-- The digits of a decimal in place, with `places` of them before the point. -/
def writeInPlace
    (wholeFraction : Bool)
    (digits : String)
    (places : Int) :
    String :=
  let count : Int := digits.length
  if places ≤ 0 then
    "0." ++ String.ofList (List.replicate (-places).toNat '0') ++ digits
  else if count ≤ places then
    digits ++ String.ofList (List.replicate (places - count).toNat '0') ++
      (if wholeFraction then ".0" else "")
  else
    String.ofList (digits.toList.take places.toNat) ++ "." ++
      String.ofList (digits.toList.drop places.toNat)

/-- The digits of a decimal with one of them before the point, and its power of ten. -/
def writeScaled
    (digits : String)
    (power : Int) :
    String :=
  let first := String.ofList (digits.toList.take 1)
  let rest := String.ofList (digits.toList.drop 1)
  first ++ (if rest.isEmpty then "" else "." ++ rest) ++
    (if power < 0 then "e-" else "e+") ++ toString power.natAbs

/-- Divide out the trailing zeros of a coefficient, at most as many as `fuel`. -/
def Decimal.trim
    (decimal : Decimal) :
    Nat →
    Decimal
  | 0 => decimal
  | fuel + 1 =>
      if decimal.coefficient ≠ 0 ∧ decimal.coefficient % 10 = 0 then
        Decimal.trim ⟨decimal.coefficient / 10, decimal.exponent + 1⟩ fuel
      else
        decimal

namespace Layout

/-- Write the magnitude of a finite number. -/
def writeMagnitude
    (layout : Layout)
    (number : Binary64) :
    String :=
  if number.isZero then
    writeInPlace layout.wholeFraction "0" 1
  else
    let decimal := (number.shortest layout.tie).trim 18
    let digits := toString decimal.coefficient
    let power := decimal.exponent + digits.length - 1
    if layout.isPositional power then
      writeInPlace layout.wholeFraction digits (power + 1)
    else
      writeScaled digits power

/-- Write a number. -/
def write
    (layout : Layout)
    (number : Binary64) :
    String :=
  if number.isNaN then
    layout.nanText
  else if number.isFinite then
    (if number.isNegative then "-" else "") ++ layout.writeMagnitude number
  else if number.isNegative then
    layout.negativeInfinityText
  else
    layout.infinityText

end Layout

end ShellCore.Binary64
