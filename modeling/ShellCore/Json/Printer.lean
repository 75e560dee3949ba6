import ShellCore.Binary64.Layout
import ShellCore.Json.Basic

namespace ShellCore.Json

/-!
# Compact JSON text

Documents are written without spaces. Strings escape only what they must.
-/

/--
Numbers in documents: in place from five places behind the point to sixteen
before it, with a fraction; a tie goes to the even digit; no text for what is
not finite.
-/
def numberLayout : Binary64.Layout where
  tie := .toEven
  isPositional := fun power => -5 ≤ power && power ≤ 15
  wholeFraction := true
  nanText := "null"
  infinityText := "null"
  negativeInfinityText := "null"

/-- The text of a number. -/
def writeNumber :
    JsonNumber →
    String
  | .integer value => toString value
  | .float value => numberLayout.write value

/-- The hexadecimal digit of a number below sixteen. -/
def hexDigit
    (value : Nat) :
    Char :=
  if value < 10 then
    Char.ofNat ('0'.toNat + value)
  else
    Char.ofNat ('a'.toNat + (value - 10))

/-- The characters that stand for a character inside a string. -/
def escapeChar
    (character : Char) :
    List Char :=
  if character = '"' then ['\\', '"']
  else if character = '\\' then ['\\', '\\']
  else if character = '\n' then ['\\', 'n']
  else if character = '\r' then ['\\', 'r']
  else if character = '\t' then ['\\', 't']
  else if character.toNat = 8 then ['\\', 'b']
  else if character.toNat = 12 then ['\\', 'f']
  else if character.toNat < 32 then
    ['\\', 'u', '0', '0', hexDigit (character.toNat / 16), hexDigit (character.toNat % 16)]
  else [character]

/-- The text of a string. -/
def writeString
    (text : String) :
    String :=
  "\"" ++ String.ofList (text.toList.flatMap escapeChar) ++ "\""

mutual

/-- The text of a document. -/
def write :
    Json →
    String
  | .null => "null"
  | .bool true => "true"
  | .bool false => "false"
  | .number value => writeNumber value
  | .string text => writeString text
  | .array items => "[" ++ writeItems items ++ "]"
  | .object fields => "\x7b" ++ writeFields fields ++ "\x7d"

/-- The texts of the items of an array, separated by commas. -/
def writeItems :
    List Json →
    String
  | [] => ""
  | [item] => write item
  | item :: rest => write item ++ "," ++ writeItems rest

/-- The texts of the fields of an object, separated by commas. -/
def writeFields :
    List (String × Json) →
    String
  | [] => ""
  | [(name, value)] => writeString name ++ ":" ++ write value
  | (name, value) :: rest =>
      writeString name ++ ":" ++ write value ++ "," ++ writeFields rest

end

end ShellCore.Json
