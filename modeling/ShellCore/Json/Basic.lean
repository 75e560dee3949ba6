import ShellCore.Binary64.Basic

namespace ShellCore

/-!
# JSON documents

A number is an integer if it was written as one and fits a word of 64 bits,
signed or unsigned; any other number is floating. The fields of an object stand
in the order of their names, each name once.
-/

/-- A JSON number. -/
inductive JsonNumber where
  | integer (value : Int)
  | float (value : Binary64)
  deriving Repr, DecidableEq

/-- A JSON document. -/
inductive Json where
  | null
  | bool (value : Bool)
  | number (value : JsonNumber)
  | string (value : String)
  | array (items : List Json)
  | object (fields : List (String × Json))
  deriving Repr

namespace Json

instance : Inhabited Json where
  default := .null

/-- An integer number. -/
def ofInt
    (value : Int) :
    Json :=
  .number (.integer value)

/-- A natural number. -/
def ofNat
    (value : Nat) :
    Json :=
  ofInt value

/-- A document, or null in its absence. -/
def ofOption
    (encode : α → Json) :
    Option α →
    Json
  | none => .null
  | some value => encode value

/-- Put a field at its place in a list ordered by name, replacing one of the same name. -/
def insertField
    (name : String)
    (value : Json) :
    List (String × Json) →
    List (String × Json)
  | [] => [(name, value)]
  | (other, held) :: rest =>
      if name = other then
        (name, value) :: rest
      else if name < other then
        (name, value) :: (other, held) :: rest
      else
        (other, held) :: insertField name value rest

/-- The object of the listed fields; a later field replaces an earlier one of its name. -/
def ofFields
    (fields : List (String × Json)) :
    Json :=
  .object (fields.foldl (fun ordered field => insertField field.1 field.2 ordered) [])

/-- The value of a field in a list of fields. -/
def findField?
    (name : String)
    (fields : List (String × Json)) :
    Option Json :=
  (fields.find? fun field => field.1 = name).map (·.2)

/-- The value of a field of an object. -/
def field?
    (document : Json)
    (name : String) :
    Option Json :=
  match document with
  | .object fields => findField? name fields
  | _ => none

/-- The text of a string. -/
def string? :
    Json →
    Option String
  | .string value => some value
  | _ => none

/-- The truth value of a boolean. -/
def bool? :
    Json →
    Option Bool
  | .bool value => some value
  | _ => none

/-- The value of a number written as an integer. -/
def integer? :
    Json →
    Option Int
  | .number (.integer value) => some value
  | _ => none

/-- The items of an array. -/
def array? :
    Json →
    Option (List Json)
  | .array items => some items
  | _ => none

/-- The value of an integer within inclusive bounds. -/
def integerIn?
    (low high : Int)
    (document : Json) :
    Option Int := do
  let value ← document.integer?
  if low ≤ value ∧ value ≤ high then
    some value
  else
    none

/-- The value of an integer that fits an unsigned word of 32 bits. -/
def word32?
    (document : Json) :
    Option UInt32 :=
  (document.integerIn? 0 (UInt32.size - 1)).map fun value => UInt32.ofNat value.toNat

/-- The value of an integer that fits an unsigned word of 64 bits. -/
def word64?
    (document : Json) :
    Option UInt64 :=
  (document.integerIn? 0 (UInt64.size - 1)).map fun value => UInt64.ofNat value.toNat

/-- The value of an integer that fits a signed word of 32 bits. -/
def int32?
    (document : Json) :
    Option Int32 :=
  (document.integerIn? Int32.minValue.toInt Int32.maxValue.toInt).map Int32.ofInt

/-- The value of an integer that fits a signed word of 64 bits. -/
def int64?
    (document : Json) :
    Option Int64 :=
  (document.integerIn? Int64.minValue.toInt Int64.maxValue.toInt).map Int64.ofInt

/-- The items of an array, each decoded. -/
def listOf?
    (decode : Json → Option α)
    (document : Json) :
    Option (List α) := do
  let items ← document.array?
  items.mapM decode

end Json

end ShellCore
