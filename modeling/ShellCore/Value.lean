import ShellCore.Json.Printer

namespace ShellCore

/-!
# Typed values

Value-returning calls traffic in typed values. A value is written either as a
JSON document or as the text that a word makes of it: strings stand bare there,
containers as JSON. The entries of a dictionary stand in the order of their keys.
-/

/-- A typed value. -/
inductive Value where
  | null
  | bool (value : Bool)
  | int (value : Int64)
  | float (value : Binary64)
  | str (value : String)
  | list (items : List Value)
  | dict (entries : List (String × Value))
  deriving Repr

namespace Value

instance : Inhabited Value where
  default := .null

/-- The name of a value's type, for error messages. -/
def typeName :
    Value →
    String
  | .null => "Null"
  | .bool _ => "Bool"
  | .int _ => "Int"
  | .float _ => "Float"
  | .str _ => "Str"
  | .list _ => "List"
  | .dict _ => "Dict"

/-- Whether a value counts as true: it is neither absent, zero nor empty. -/
def isTruthy :
    Value →
    Bool
  | .null => false
  | .bool value => value
  | .int value => value ≠ 0
  | .float value => !value.isZero
  | .str value => !value.isEmpty
  | .list items => !items.isEmpty
  | .dict entries => !entries.isEmpty

mutual

/-- The document of a value; a number that is not finite has none but null. -/
def toJson :
    Value →
    Json
  | .null => .null
  | .bool value => .bool value
  | .int value => .number (.integer value.toInt)
  | .float value => if value.isFinite then .number (.float value) else .null
  | .str value => .string value
  | .list items => .array (toJsonItems items)
  | .dict entries => .object (toJsonEntries entries)

/-- The documents of the items of a list. -/
def toJsonItems :
    List Value →
    List Json
  | [] => []
  | item :: rest => toJson item :: toJsonItems rest

/-- The documents of the entries of a dictionary. -/
def toJsonEntries :
    List (String × Value) →
    List (String × Json)
  | [] => []
  | (key, value) :: rest => (key, toJson value) :: toJsonEntries rest

end

/-- The value of a number: an integer if it fits a signed word of 64 bits. -/
def ofNumber :
    JsonNumber →
    Value
  | .integer value =>
      if Int64.minValue.toInt ≤ value ∧ value ≤ Int64.maxValue.toInt then
        .int (Int64.ofInt value)
      else
        .float (Binary64.ofQuotient (value < 0) value.natAbs 1)
  | .float value => .float value

mutual

/-- The value of a document. -/
def ofJson :
    Json →
    Value
  | .null => .null
  | .bool value => .bool value
  | .number value => ofNumber value
  | .string value => .str value
  | .array items => .list (ofJsonItems items)
  | .object fields => .dict (ofJsonFields fields)

/-- The values of the items of an array. -/
def ofJsonItems :
    List Json →
    List Value
  | [] => []
  | item :: rest => ofJson item :: ofJsonItems rest

/-- The values of the fields of an object. -/
def ofJsonFields :
    List (String × Json) →
    List (String × Value)
  | [] => []
  | (name, value) :: rest => (name, ofJson value) :: ofJsonFields rest

end

/--
Numbers in words: always in place, whole numbers without a fraction; a tie goes
to the greater digit.
-/
def numberLayout : Binary64.Layout where
  tie := .upward
  isPositional := fun _ => true
  wholeFraction := false
  nanText := "NaN"
  infinityText := "inf"
  negativeInfinityText := "-inf"

/-- The text that a word makes of a value. -/
def display :
    Value →
    String
  | .null => ""
  | .bool true => "true"
  | .bool false => "false"
  | .int value => toString value.toInt
  | .float value => numberLayout.write value
  | .str value => value
  | .list items => (toJson (.list items)).write
  | .dict entries => (toJson (.dict entries)).write

end Value

end ShellCore
