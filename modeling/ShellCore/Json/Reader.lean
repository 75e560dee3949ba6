import ShellCore.Json.Numeral

namespace ShellCore.Json

/-!
# Reading JSON text

A reader takes characters off the front of a text. The readers of nested
documents count down a depth that the length of the text bounds.
-/

/-- Whether a character may stand between the parts of a document. -/
def isSpace
    (character : Char) :
    Bool :=
  character = ' ' || character = '\n' || character = '\r' || character = '\t'

/-- Drop the space in front of a text. -/
def skipSpace
    (characters : List Char) :
    List Char :=
  characters.dropWhile isSpace

/-- The value of a hexadecimal digit. -/
def hexValue?
    (digit : Char) :
    Option Nat :=
  if digit.isDigit then some (digit.toNat - '0'.toNat)
  else if 'a' ≤ digit ∧ digit ≤ 'f' then some (digit.toNat - 'a'.toNat + 10)
  else if 'A' ≤ digit ∧ digit ≤ 'F' then some (digit.toNat - 'A'.toNat + 10)
  else none

/-- Read four hexadecimal digits. -/
def readUnit? :
    List Char →
    Option (Nat × List Char)
  | a :: b :: c :: d :: rest => do
      let a ← hexValue? a
      let b ← hexValue? b
      let c ← hexValue? c
      let d ← hexValue? d
      some (((a * 16 + b) * 16 + c) * 16 + d, rest)
  | _ => none

/-- Read what follows the mark of an escaped code unit, with its pair if it needs one. -/
def readEscapedUnit?
    (characters : List Char) :
    Option (Char × List Char) := do
  let (unit, rest) ← readUnit? characters
  if 0xD800 ≤ unit ∧ unit ≤ 0xDBFF then
    match rest with
    | '\\' :: 'u' :: rest =>
        let (low, rest) ← readUnit? rest
        if 0xDC00 ≤ low ∧ low ≤ 0xDFFF then
          some (Char.ofNat (0x10000 + (unit - 0xD800) * 0x400 + (low - 0xDC00)), rest)
        else
          none
    | _ => none
  else if 0xDC00 ≤ unit ∧ unit ≤ 0xDFFF then
    none
  else
    some (Char.ofNat unit, rest)

/-- Read the characters of a string up to its closing quote. -/
def readStringRest? :
    Nat →
    List Char →
    Option (List Char × List Char)
  | 0, _ => none
  | _ + 1, [] => none
  | _ + 1, '"' :: rest => some ([], rest)
  | fuel + 1, '\\' :: mark :: rest => do
      let (character, rest) ←
        match mark with
        | '"' => some ('"', rest)
        | '\\' => some ('\\', rest)
        | '/' => some ('/', rest)
        | 'b' => some (Char.ofNat 8, rest)
        | 'f' => some (Char.ofNat 12, rest)
        | 'n' => some ('\n', rest)
        | 'r' => some ('\r', rest)
        | 't' => some ('\t', rest)
        | 'u' => readEscapedUnit? rest
        | _ => none
      let (text, rest) ← readStringRest? fuel rest
      some (character :: text, rest)
  | fuel + 1, character :: rest => do
      if character = '\\' ∨ character.toNat < 32 then
        none
      else
        let (text, rest) ← readStringRest? fuel rest
        some (character :: text, rest)

/-- Read a string behind its opening quote. -/
def readString?
    (characters : List Char) :
    Option (String × List Char) := do
  let (text, rest) ← readStringRest? (characters.length + 1) characters
  some (String.ofList text, rest)

/-- Read a fixed word. -/
def readWord?
    (word : String)
    (value : Json)
    (characters : List Char) :
    Option (Json × List Char) :=
  if word.toList.isPrefixOf characters then
    some (value, characters.drop word.length)
  else
    none

mutual

/-- Read a document. -/
def readValue? :
    Nat →
    List Char →
    Option (Json × List Char)
  | 0, _ => none
  | fuel + 1, characters =>
      match skipSpace characters with
      | '"' :: rest => (readString? rest).map fun (text, rest) => (.string text, rest)
      | '[' :: rest =>
          match skipSpace rest with
          | ']' :: rest => some (.array [], rest)
          | rest => (readItems? fuel rest).map fun (items, rest) => (.array items, rest)
      | '\x7b' :: rest =>
          match skipSpace rest with
          | '\x7d' :: rest => some (.object [], rest)
          | rest => (readFields? fuel rest).map fun (fields, rest) => (ofFields fields, rest)
      | 'n' :: rest => readWord? "null" .null ('n' :: rest)
      | 't' :: rest => readWord? "true" (.bool true) ('t' :: rest)
      | 'f' :: rest => readWord? "false" (.bool false) ('f' :: rest)
      | characters =>
          (readNumber? characters).map fun (value, rest) => (.number value, rest)

/-- Read the items of an array and its closing bracket. -/
def readItems? :
    Nat →
    List Char →
    Option (List Json × List Char)
  | 0, _ => none
  | fuel + 1, characters => do
      let (item, rest) ← readValue? fuel characters
      match skipSpace rest with
      | ']' :: rest => some ([item], rest)
      | ',' :: rest =>
          let (items, rest) ← readItems? fuel rest
          some (item :: items, rest)
      | _ => none

/-- Read the fields of an object and its closing brace. -/
def readFields? :
    Nat →
    List Char →
    Option (List (String × Json) × List Char)
  | 0, _ => none
  | fuel + 1, characters => do
      match skipSpace characters with
      | '"' :: rest =>
          let (name, rest) ← readString? rest
          match skipSpace rest with
          | ':' :: rest =>
              let (value, rest) ← readValue? fuel rest
              match skipSpace rest with
              | '\x7d' :: rest => some ([(name, value)], rest)
              | ',' :: rest =>
                  let (fields, rest) ← readFields? fuel rest
                  some ((name, value) :: fields, rest)
              | _ => none
          | _ => none
      | _ => none

end

/-- The document that a text writes. -/
def read?
    (text : String) :
    Option Json := do
  let characters := text.toList
  let (document, rest) ← readValue? (2 * characters.length + 2) characters
  if (skipSpace rest).isEmpty then
    some document
  else
    none

end ShellCore.Json
