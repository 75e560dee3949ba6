namespace ShellCore.Text

/-!
# Decimal numerals

Numerals are ASCII digits after an optional sign, and must fit the word that is
read. A numeral that is too large is no numeral of that word at all.
-/

/-- Append a digit to a number, if the character is an ASCII digit. -/
def pushDigit?
    (value : Nat)
    (character : Char) :
    Option Nat :=
  if character.isDigit then
    some (10 * value + (character.toNat - '0'.toNat))
  else
    none

/-- The number written by a nonempty sequence of ASCII digits. -/
def readDigits? :
    List Char →
    Option Nat
  | [] => none
  | digits => digits.foldlM pushDigit? 0

/-- The integer written by digits after an optional sign of either kind. -/
def readSigned? :
    List Char →
    Option Int
  | '-' :: digits => (readDigits? digits).map fun value => -(value : Int)
  | '+' :: digits => (readDigits? digits).map Int.ofNat
  | digits => (readDigits? digits).map Int.ofNat

/-- The number written by digits after an optional plus sign. -/
def readUnsigned? :
    List Char →
    Option Nat
  | '+' :: digits => readDigits? digits
  | digits => readDigits? digits

/-- The signed 64-bit integer that a text writes. -/
def readInt64?
    (text : String) :
    Option Int64 := do
  let value ← readSigned? text.toList
  if Int64.minValue.toInt ≤ value ∧ value ≤ Int64.maxValue.toInt then
    some (Int64.ofInt value)
  else
    none

/-- The signed 32-bit integer that a text writes. -/
def readInt32?
    (text : String) :
    Option Int32 := do
  let value ← readSigned? text.toList
  if Int32.minValue.toInt ≤ value ∧ value ≤ Int32.maxValue.toInt then
    some (Int32.ofInt value)
  else
    none

/-- The unsigned 64-bit position that a text writes. -/
def readPosition?
    (text : String) :
    Option Nat := do
  let value ← readUnsigned? text.toList
  if value < UInt64.size then
    some value
  else
    none

end ShellCore.Text
