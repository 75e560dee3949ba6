import ShellCore.Proofs.Text.Numeral
import ShellCore.Value

namespace ShellCore

/-!
# Values through JSON

A value is read back from its document as it was, but for floating numbers that are not
finite, which JSON has no text for. A document is written again as it was if its numbers
are those that values hold: integers of 64 bits with a sign, and finite floating ones.
-/

namespace Value

mutual

/-- The value with null in the place of every floating number that is not finite. -/
def nullNonFinite :
    Value →
    Value
  | .null => .null
  | .bool value => .bool value
  | .int value => .int value
  | .float value => if value.isFinite then .float value else .null
  | .str value => .str value
  | .list items => .list (nullNonFiniteItems items)
  | .dict entries => .dict (nullNonFiniteEntries entries)

/-- The items of a list with null in the place of every number that is not finite. -/
def nullNonFiniteItems :
    List Value →
    List Value
  | [] => []
  | item :: rest => nullNonFinite item :: nullNonFiniteItems rest

/-- The entries of a dictionary with null in the place of every number that is not finite. -/
def nullNonFiniteEntries :
    List (String × Value) →
    List (String × Value)
  | [] => []
  | (key, value) :: rest => (key, nullNonFinite value) :: nullNonFiniteEntries rest

end

mutual

/-- The floating numbers in a value. -/
def floats :
    Value →
    List Binary64
  | .float value => [value]
  | .list items => floatsOfItems items
  | .dict entries => floatsOfEntries entries
  | _ => []

/-- The floating numbers in the items of a list. -/
def floatsOfItems :
    List Value →
    List Binary64
  | [] => []
  | item :: rest => floats item ++ floatsOfItems rest

/-- The floating numbers in the entries of a dictionary. -/
def floatsOfEntries :
    List (String × Value) →
    List Binary64
  | [] => []
  | (_, value) :: rest => floats value ++ floatsOfEntries rest

end

end Value

namespace Json

mutual

/-- The numbers in a document. -/
def numbers :
    Json →
    List JsonNumber
  | .number value => [value]
  | .array items => numbersOfItems items
  | .object fields => numbersOfFields fields
  | _ => []

/-- The numbers in the items of an array. -/
def numbersOfItems :
    List Json →
    List JsonNumber
  | [] => []
  | item :: rest => numbers item ++ numbersOfItems rest

/-- The numbers in the fields of an object. -/
def numbersOfFields :
    List (String × Json) →
    List JsonNumber
  | [] => []
  | (_, value) :: rest => numbers value ++ numbersOfFields rest

end

end Json

/-- Whether a number is one that a value holds: a signed integer of 64 bits, or a finite one. -/
def JsonNumber.IsHeld :
    JsonNumber →
    Prop
  | .integer value => Text.FitsInt64 value
  | .float value => value.isFinite = true

namespace Value

section Reading

/-- An integer of 64 bits is an integer again, over its whole range. -/
theorem ofNumber_toInt
    (value : Int64) :
    ofNumber (.integer value.toInt) = .int value := by
  have fits : Text.FitsInt64 value.toInt := ⟨value.minValue_le_toInt, value.toInt_le⟩
  have isInt : ofNumber (.integer value.toInt) = .int (Int64.ofInt value.toInt) := if_pos fits
  rw [isInt, Int64.ofInt_toInt]

mutual

/-- A value is read back from its document, but for numbers that are not finite. -/
theorem ofJson_toJson :
    ∀ value : Value, ofJson value.toJson = value.nullNonFinite
  | .null => rfl
  | .bool _ => rfl
  | .int value => ofNumber_toInt value
  | .float value => by
      by_cases isFinite : value.isFinite <;>
        simp [toJson, nullNonFinite, ofJson, isFinite, ofNumber]
  | .str _ => rfl
  | .list items => congrArg Value.list (ofJsonItems_toJsonItems items)
  | .dict entries => congrArg Value.dict (ofJsonFields_toJsonEntries entries)

theorem ofJsonItems_toJsonItems :
    ∀ items : List Value, ofJsonItems (toJsonItems items) = nullNonFiniteItems items
  | [] => rfl
  | item :: rest => by
      simp [toJsonItems, ofJsonItems, nullNonFiniteItems, ofJson_toJson item,
        ofJsonItems_toJsonItems rest]

theorem ofJsonFields_toJsonEntries :
    ∀ entries : List (String × Value),
      ofJsonFields (toJsonEntries entries) = nullNonFiniteEntries entries
  | [] => rfl
  | (key, value) :: rest => by
      simp [toJsonEntries, ofJsonFields, nullNonFiniteEntries, ofJson_toJson value,
        ofJsonFields_toJsonEntries rest]

end

end Reading

section Writing

mutual

/-- What is lost has no text either: the document stays the same. -/
theorem toJson_nullNonFinite :
    ∀ value : Value, value.nullNonFinite.toJson = value.toJson
  | .null => rfl
  | .bool _ => rfl
  | .int _ => rfl
  | .float value => by
      by_cases isFinite : value.isFinite <;> simp [nullNonFinite, toJson, isFinite]
  | .str _ => rfl
  | .list items => congrArg Json.array (toJsonItems_nullNonFiniteItems items)
  | .dict entries => congrArg Json.object (toJsonEntries_nullNonFiniteEntries entries)

theorem toJsonItems_nullNonFiniteItems :
    ∀ items : List Value, toJsonItems (nullNonFiniteItems items) = toJsonItems items
  | [] => rfl
  | item :: rest => by
      simp [nullNonFiniteItems, toJsonItems, toJson_nullNonFinite item,
        toJsonItems_nullNonFiniteItems rest]

theorem toJsonEntries_nullNonFiniteEntries :
    ∀ entries : List (String × Value),
      toJsonEntries (nullNonFiniteEntries entries) = toJsonEntries entries
  | [] => rfl
  | (key, value) :: rest => by
      simp [nullNonFiniteEntries, toJsonEntries, toJson_nullNonFinite value,
        toJsonEntries_nullNonFiniteEntries rest]

end

/-- A number is written again as it was if values hold such numbers, and only then. -/
theorem toJson_ofNumber_eq_iff
    (number : JsonNumber) :
    (ofNumber number).toJson = .number number ↔ number.IsHeld := by
  cases number with
  | float value =>
      by_cases isFinite : value.isFinite <;>
        simp [ofNumber, toJson, isFinite, JsonNumber.IsHeld]
  | integer value =>
      by_cases fits : Text.FitsInt64 value
      · have same : (Int64.ofInt value).toInt = value :=
          Int64.toInt_ofInt_of_le fits.1 (Int.lt_of_le_of_lt fits.2 (by decide))
        have isInt : ofNumber (.integer value) = .int (Int64.ofInt value) := if_pos fits
        simp [isInt, toJson, same, JsonNumber.IsHeld, fits]
      · have isFloat :
            ofNumber (.integer value) =
              .float (Binary64.ofQuotient (value < 0) value.natAbs 1) :=
          if_neg fits
        -- Whether that is written as a number or as null, it is no integer any more.
        rw [isFloat, toJson]
        split <;> simp [JsonNumber.IsHeld, fits]

mutual

/-- A document is written again as it was if all its numbers are, and only then. -/
theorem toJson_ofJson_eq_iff :
    ∀ document : Json,
      (ofJson document).toJson = document ↔ ∀ number ∈ document.numbers, number.IsHeld
  | .null => by simp [ofJson, toJson, Json.numbers]
  | .bool _ => by simp [ofJson, toJson, Json.numbers]
  | .number value => by simp [ofJson, Json.numbers, toJson_ofNumber_eq_iff]
  | .string _ => by simp [ofJson, toJson, Json.numbers]
  | .array items => by simp [ofJson, toJson, Json.numbers, toJsonItems_ofJsonItems_eq_iff items]
  | .object fields => by
      simp [ofJson, toJson, Json.numbers, toJsonEntries_ofJsonFields_eq_iff fields]

theorem toJsonItems_ofJsonItems_eq_iff :
    ∀ items : List Json,
      toJsonItems (ofJsonItems items) = items ↔
        ∀ number ∈ Json.numbersOfItems items, number.IsHeld
  | [] => by simp [ofJsonItems, toJsonItems, Json.numbersOfItems]
  | item :: rest => by
      simp [ofJsonItems, toJsonItems, Json.numbersOfItems, toJson_ofJson_eq_iff item,
        toJsonItems_ofJsonItems_eq_iff rest, List.mem_append, or_imp, forall_and]

theorem toJsonEntries_ofJsonFields_eq_iff :
    ∀ fields : List (String × Json),
      toJsonEntries (ofJsonFields fields) = fields ↔
        ∀ number ∈ Json.numbersOfFields fields, number.IsHeld
  | [] => by simp [ofJsonFields, toJsonEntries, Json.numbersOfFields]
  | (name, value) :: rest => by
      simp [ofJsonFields, toJsonEntries, Json.numbersOfFields, toJson_ofJson_eq_iff value,
        toJsonEntries_ofJsonFields_eq_iff rest, List.mem_append, or_imp, forall_and]

end

end Writing

section Losses

mutual

/-- Nothing is replaced exactly if every floating number is finite. -/
theorem nullNonFinite_eq_iff :
    ∀ value : Value, value.nullNonFinite = value ↔ ∀ number ∈ value.floats, number.isFinite
  | .null => by simp [nullNonFinite, floats]
  | .bool _ => by simp [nullNonFinite, floats]
  | .int _ => by simp [nullNonFinite, floats]
  | .float value => by
      by_cases isFinite : value.isFinite <;> simp [nullNonFinite, floats, isFinite]
  | .str _ => by simp [nullNonFinite, floats]
  | .list items => by simp [nullNonFinite, floats, nullNonFiniteItems_eq_iff items]
  | .dict entries => by simp [nullNonFinite, floats, nullNonFiniteEntries_eq_iff entries]

theorem nullNonFiniteItems_eq_iff :
    ∀ items : List Value,
      nullNonFiniteItems items = items ↔ ∀ number ∈ floatsOfItems items, number.isFinite
  | [] => by simp [nullNonFiniteItems, floatsOfItems]
  | item :: rest => by
      simp [nullNonFiniteItems, floatsOfItems, nullNonFinite_eq_iff item,
        nullNonFiniteItems_eq_iff rest, or_imp, forall_and]

theorem nullNonFiniteEntries_eq_iff :
    ∀ entries : List (String × Value),
      nullNonFiniteEntries entries = entries ↔
        ∀ number ∈ floatsOfEntries entries, number.isFinite
  | [] => by simp [nullNonFiniteEntries, floatsOfEntries]
  | (key, value) :: rest => by
      simp [nullNonFiniteEntries, floatsOfEntries, nullNonFinite_eq_iff value,
        nullNonFiniteEntries_eq_iff rest, or_imp, forall_and]

end

end Losses

/--
Read back from its document, a value has null for the floating numbers that are not
finite, and all else as it was; the document does not change. A document of numbers that
values hold is written again as it was, and no other is.
-/
theorem json_keeps_values :
    (∀ value : Value,
      ofJson value.toJson = value.nullNonFinite ∧
        (ofJson value.toJson).toJson = value.toJson ∧
        (ofJson value.toJson = value ↔ ∀ number ∈ value.floats, number.isFinite)) ∧
      ∀ document : Json,
        (ofJson document).toJson = document ↔ ∀ number ∈ document.numbers, number.IsHeld := by
  constructor
  · intro value
    rw [ofJson_toJson]
    exact ⟨rfl, toJson_nullNonFinite value, nullNonFinite_eq_iff value⟩
  · exact toJson_ofJson_eq_iff

/-- The ends of the range of integers, a negative zero, and a whole number that is floating. -/
def extremeNumbers : Value :=
  .dict [("ends", .list [.int Int64.minValue, .int Int64.maxValue]),
    ("floating", .list [.float ⟨0x8000000000000000⟩, .float ⟨0x4000000000000000⟩])]

/-- An integer that takes 64 bits without a sign. -/
def unsignedNumber : Json :=
  .array [.ofNat 18446744073709551615]

theorem extreme_numbers_are_kept :
    (∀ number ∈ extremeNumbers.floats, number.isFinite) ∧
      ofJson extremeNumbers.toJson = extremeNumbers ∧
      (ofJson unsignedNumber).toJson ≠ unsignedNumber := by
  have areFinite : ∀ number ∈ extremeNumbers.floats, number.isFinite := by decide
  refine ⟨areFinite, (json_keeps_values.1 extremeNumbers).2.2.mpr areFinite, ?_⟩
  intro same
  have isHeld := (json_keeps_values.2 unsignedNumber).mp same (.integer 18446744073709551615)
  exact absurd (isHeld (.head _)).2 (by decide)

end Value

end ShellCore
