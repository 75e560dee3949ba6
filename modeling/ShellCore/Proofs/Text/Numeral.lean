import Mathlib.Data.List.Basic
import Mathlib.Data.Nat.Digits.Defs
import ShellCore.Text.Blank
import ShellCore.Text.Numeral

namespace ShellCore.Text

/-!
# What a numeral writes

A numeral is a nonempty row of decimal digits after an optional sign. It writes an
integer of any magnitude, also between blanks. What is read as a word of 64 bits is
the integer that the text writes, if that fits.
-/

/-- The number that a digit stands for. -/
def digitValue
    (digit : Char) :
    Nat :=
  digit.toNat - '0'.toNat

/-- The number that a row of digits writes, its last digit counting ones. -/
def digitsValue
    (digits : List Char) :
    Nat :=
  Nat.ofDigits 10 (digits.reverse.map digitValue)

/-- A nonempty row of decimal digits. -/
def IsDigits
    (characters : List Char) :
    Prop :=
  characters ≠ [] ∧ characters.all Char.isDigit = true

/-- Decimal digits after an optional sign spell an integer. -/
inductive Spells : List Char → Int → Prop where
  | unsigned {digits : List Char} :
      IsDigits digits →
      Spells digits (digitsValue digits)
  | positive {digits : List Char} :
      IsDigits digits →
      Spells ('+' :: digits) (digitsValue digits)
  | negative {digits : List Char} :
      IsDigits digits →
      Spells ('-' :: digits) (-(digitsValue digits : Int))

/-- The text spells an integer, between blanks. -/
def Writes
    (text : String)
    (value : Int) :
    Prop :=
  ∃ lead numeral trail,
    text.toList = lead ++ numeral ++ trail ∧
      lead.all isBlank = true ∧ trail.all isBlank = true ∧ Spells numeral value

/-- The integer is a signed word of 64 bits. -/
def FitsInt64
    (value : Int) :
    Prop :=
  Int64.minValue.toInt ≤ value ∧ value ≤ Int64.maxValue.toInt

instance (value : Int) : Decidable (FitsInt64 value) :=
  inferInstanceAs (Decidable (_ ∧ _))

section Digits

/-- Pushing digits onto a number writes them behind it. -/
theorem foldlM_pushDigit?
    {digits : List Char}
    (areDigits : digits.all Char.isDigit = true)
    (number : Nat) :
    digits.foldlM pushDigit? number =
      some (Nat.ofDigits 10 (digits.reverse.map digitValue ++ [number])) := by
  induction digits generalizing number with
  | nil => simp
  | cons digit digits inductionHypothesis =>
      rw [List.all_cons, Bool.and_eq_true] at areDigits
      have pushed : pushDigit? number digit = some (digitValue digit + 10 * number) := by
        rw [pushDigit?, if_pos areDigits.1, Nat.add_comm]
        rfl
      rw [List.foldlM_cons, pushed, Option.bind_eq_bind, Option.bind_some,
        inductionHypothesis areDigits.2, List.reverse_cons, List.map_append, List.append_assoc,
        Nat.ofDigits_append, Nat.ofDigits_append]
      simp [Nat.ofDigits_cons]

theorem all_isDigit_of_foldlM
    {digits : List Char}
    {number value : Nat}
    (read : digits.foldlM pushDigit? number = some value) :
    digits.all Char.isDigit = true := by
  induction digits generalizing number with
  | nil => rfl
  | cons digit digits inductionHypothesis =>
      rw [List.foldlM_cons, Option.bind_eq_bind, Option.bind_eq_some_iff] at read
      obtain ⟨next, pushed, rest⟩ := read
      rw [pushDigit?] at pushed
      split at pushed
      next isDigit => rw [List.all_cons, isDigit, inductionHypothesis rest, Bool.and_self]
      next => cases pushed

/-- Digits are read as the number that they write, and nothing else is read. -/
theorem readDigits?_eq_some_iff
    {characters : List Char}
    {value : Nat} :
    readDigits? characters = some value ↔
      IsDigits characters ∧ value = digitsValue characters := by
  cases characters with
  | nil => exact ⟨nofun, fun written => absurd rfl written.1.1⟩
  | cons first rest =>
      have folds : readDigits? (first :: rest) = (first :: rest).foldlM pushDigit? 0 := rfl
      have fromZero :
          Nat.ofDigits 10 ((first :: rest).reverse.map digitValue ++ [0]) =
            digitsValue (first :: rest) := by
        rw [Nat.ofDigits_append, digitsValue]
        simp
      rw [folds]
      constructor
      · intro read
        have areDigits := all_isDigit_of_foldlM read
        rw [foldlM_pushDigit? areDigits, fromZero] at read
        exact ⟨⟨List.cons_ne_nil _ _, areDigits⟩, (Option.some.inj read).symm⟩
      · rintro ⟨⟨_, areDigits⟩, rfl⟩
        rw [foldlM_pushDigit? areDigits, fromZero]

theorem map_readDigits?_eq_some_iff
    {digits : List Char}
    {sign : Nat → Int}
    {value : Int} :
    (readDigits? digits).map sign = some value ↔
      IsDigits digits ∧ sign (digitsValue digits) = value := by
  rw [Option.map_eq_some_iff]
  constructor
  · rintro ⟨number, read, rfl⟩
    obtain ⟨areDigits, rfl⟩ := readDigits?_eq_some_iff.mp read
    exact ⟨areDigits, rfl⟩
  · rintro ⟨areDigits, rfl⟩
    exact ⟨_, readDigits?_eq_some_iff.mpr ⟨areDigits, rfl⟩, rfl⟩

theorem readSigned?_minus
    (digits : List Char) :
    readSigned? ('-' :: digits) = (readDigits? digits).map fun number => -Int.ofNat number := by
  rw [readSigned?]
  cases readDigits? digits <;> rfl

/-- A numeral is read as the integer that it spells, and nothing else is read. -/
theorem readSigned?_eq_some_iff
    {characters : List Char}
    {value : Int} :
    readSigned? characters = some value ↔ Spells characters value := by
  constructor
  · intro read
    unfold readSigned? at read
    split at read
    next digits =>
      obtain ⟨areDigits, rfl⟩ :=
        map_readDigits?_eq_some_iff.mp ((readSigned?_minus digits).symm.trans read)
      exact .negative areDigits
    next digits =>
      obtain ⟨areDigits, rfl⟩ := map_readDigits?_eq_some_iff.mp read
      exact .positive areDigits
    next =>
      obtain ⟨areDigits, rfl⟩ := map_readDigits?_eq_some_iff.mp read
      exact .unsigned areDigits
  · intro spells
    cases spells with
    | negative areDigits =>
        exact (readSigned?_minus _).trans (map_readDigits?_eq_some_iff.mpr ⟨areDigits, rfl⟩)
    | positive areDigits => exact map_readDigits?_eq_some_iff.mpr ⟨areDigits, rfl⟩
    | unsigned areDigits =>
        unfold readSigned?
        split
        · cases areDigits.2
        · cases areDigits.2
        · exact map_readDigits?_eq_some_iff.mpr ⟨areDigits, rfl⟩

end Digits

section Blanks

/-- A digit is not blank. -/
theorem isBlank_of_isDigit
    {character : Char}
    (isDigit : character.isDigit = true) :
    isBlank character = false := by
  rw [Char.isDigit, Bool.and_eq_true, decide_eq_true_eq, decide_eq_true_eq] at isDigit
  have low : 48 ≤ character.toNat := UInt32.le_iff_toNat_le.mp isDigit.1
  have high : character.toNat ≤ 57 := UInt32.le_iff_toNat_le.mp isDigit.2
  simp only [isBlank, blankRanges, List.any_cons, List.any_nil, Bool.or_eq_false_iff,
    Bool.and_eq_false_iff, decide_eq_false_iff_not, and_true]
  omega

/-- A numeral begins and ends with characters that are not blank. -/
theorem Spells.edges
    {numeral : List Char}
    {value : Int}
    (spells : Spells numeral value) :
    (∀ character ∈ numeral.head?, isBlank character = false) ∧
      ∀ character ∈ numeral.getLast?, isBlank character = false := by
  have digitsEnd :
      ∀ {digits : List Char} (lead : List Char), IsDigits digits →
        ∀ character ∈ (lead ++ digits).getLast?, isBlank character = false := by
    intro digits lead areDigits character isLast
    rw [List.getLast?_append_of_ne_nil _ areDigits.1] at isLast
    exact isBlank_of_isDigit
      (List.all_eq_true.mp areDigits.2 character (List.mem_of_mem_getLast? isLast))
  cases spells with
  | unsigned areDigits =>
      refine ⟨fun character isFirst => ?_, digitsEnd [] areDigits⟩
      exact isBlank_of_isDigit
        (List.all_eq_true.mp areDigits.2 character (List.mem_of_mem_head? isFirst))
  | positive areDigits =>
      refine ⟨fun character isFirst => ?_, digitsEnd ['+'] areDigits⟩
      cases isFirst
      decide
  | negative areDigits =>
      refine ⟨fun character isFirst => ?_, digitsEnd ['-'] areDigits⟩
      cases isFirst
      decide

/-- Dropping blanks drops a blank lead and stops where it ends. -/
theorem dropWhile_isBlank
    {lead rest : List Char}
    (blank : lead.all isBlank = true)
    (stops : ∀ character ∈ rest.head?, isBlank character = false) :
    (lead ++ rest).dropWhile isBlank = rest := by
  rw [List.dropWhile_append_of_pos (List.all_eq_true.mp blank)]
  cases rest with
  | nil => rfl
  | cons first rest => exact List.dropWhile_cons_of_neg (by rw [stops first rfl]; decide)

/-- Trimming drops the blanks around what begins and ends with other characters. -/
theorem trimChars_append
    {lead core trail : List Char}
    (blankLead : lead.all isBlank = true)
    (blankTrail : trail.all isBlank = true)
    (isCore : core ≠ [])
    (starts : ∀ character ∈ core.head?, isBlank character = false)
    (ends : ∀ character ∈ core.getLast?, isBlank character = false) :
    trimChars (lead ++ core ++ trail) = core := by
  have startsAll : ∀ character ∈ (core ++ trail).head?, isBlank character = false := by
    intro character isFirst
    obtain ⟨first, rest, rfl⟩ := List.exists_cons_of_ne_nil isCore
    exact starts character isFirst
  have blankBack : trail.reverse.all isBlank = true := by
    rwa [List.all_reverse]
  have endsBack : ∀ character ∈ core.reverse.head?, isBlank character = false := by
    rwa [List.head?_reverse]
  rw [trimChars, List.append_assoc, dropWhile_isBlank blankLead startsAll, List.reverse_append,
    dropWhile_isBlank blankBack endsBack, List.reverse_reverse]

/-- A text is its trimmed part with blanks around it. -/
theorem exists_trimChars
    (characters : List Char) :
    ∃ lead trail,
      characters = lead ++ trimChars characters ++ trail ∧
        lead.all isBlank = true ∧ trail.all isBlank = true := by
  let rest := characters.dropWhile isBlank
  refine ⟨characters.takeWhile isBlank, (rest.reverse.takeWhile isBlank).reverse, ?_,
    List.all_takeWhile, by rw [List.all_reverse]; exact List.all_takeWhile⟩
  have back : trimChars characters ++ (rest.reverse.takeWhile isBlank).reverse = rest := by
    rw [trimChars, ← List.reverse_append, List.takeWhile_append_dropWhile, List.reverse_reverse]
  rw [List.append_assoc, back, List.takeWhile_append_dropWhile]

/-- A text writes an integer exactly if its trimmed part is read as that. -/
theorem writes_iff
    {text : String}
    {value : Int} :
    Writes text value ↔ readSigned? (trim text).toList = some value := by
  rw [readSigned?_eq_some_iff, trim, String.toList_ofList]
  constructor
  · rintro ⟨lead, numeral, trail, shape, blankLead, blankTrail, spells⟩
    have isNumeral : numeral ≠ [] := by
      cases spells with
      | unsigned areDigits => exact areDigits.1
      | positive | negative => exact List.cons_ne_nil _ _
    rw [shape, trimChars_append blankLead blankTrail isNumeral spells.edges.1 spells.edges.2]
    exact spells
  · intro spells
    obtain ⟨lead, trail, shape, blankLead, blankTrail⟩ := exists_trimChars text.toList
    exact ⟨lead, _, trail, shape, blankLead, blankTrail, spells⟩

end Blanks

/-- A text writes one integer at most. -/
theorem Writes.unique
    {text : String}
    {value other : Int}
    (writes : Writes text value)
    (alsoWrites : Writes text other) :
    other = value :=
  Option.some.inj ((writes_iff.mp alsoWrites).symm.trans (writes_iff.mp writes))

/-- What fits 64 bits is read as it is written. -/
theorem Writes.read
    {text : String}
    {value : Int}
    (writes : Writes text value)
    (fits : FitsInt64 value) :
    ∃ word, readInt64? (trim text) = some word ∧ word.toInt = value := by
  refine ⟨Int64.ofInt value, ?_, Int64.toInt_ofInt_of_le fits.1 ?_⟩
  · rw [readInt64?, writes_iff.mp writes]
    exact if_pos fits
  · exact Int.lt_of_le_of_lt fits.2 (by decide)

/-- Nothing else is read: no other text, and no integer that does not fit. -/
theorem read_eq_none
    {text : String}
    (noValue : ∀ value, Writes text value → ¬ FitsInt64 value) :
    readInt64? (trim text) = none := by
  rw [readInt64?]
  cases read : readSigned? (trim text).toList with
  | none => rfl
  | some value => exact if_neg (noValue value (writes_iff.mpr read))

end ShellCore.Text
