import ShellCore.Evaluation.Arithmetic
import ShellCore.Proofs.Text.Numeral

namespace ShellCore

/-!
# What an operand denotes

The text of an operand denotes an integer: none of it is zero, a numeral is what it
writes, and a name is what the value of its variable denotes. An operand is read as
the word that it denotes, and refused exactly if it denotes nothing.
-/

namespace Text

/-- What is read as a word of 64 bits is what the text writes. -/
theorem read_eq_some_iff
    {text : String}
    {number : Int64} :
    readInt64? (trim text) = some number ↔ Writes text number.toInt := by
  constructor
  · intro read
    obtain ⟨value, signed, fits⟩ := Option.bind_eq_some_iff.mp read
    split at fits
    next bounds =>
      cases fits
      rw [Int64.toInt_ofInt_of_le bounds.1 (Int.lt_of_le_of_lt bounds.2 (by decide))]
      exact writes_iff.mpr signed
    next => cases fits
  · intro writes
    obtain ⟨word, read, same⟩ := writes.read ⟨number.minValue_le_toInt, number.toInt_le⟩
    rw [read, Int64.toInt_inj.mp same]

/-- A text whose numeral, if it writes one, is too long is not read. -/
theorem read_eq_none_iff
    {text : String} :
    readInt64? (trim text) = none ↔ ∀ value, Writes text value → ¬ FitsInt64 value := by
  constructor
  · intro unread value writes fits
    obtain ⟨word, read, -⟩ := writes.read fits
    cases unread.symm.trans read
  · exact read_eq_none

/-- A blank text writes nothing. -/
theorem not_writes_of_blank
    {text : String}
    {value : Int}
    (blank : trim text = "") :
    ¬ Writes text value := by
  rw [writes_iff, blank]
  exact nofun

end Text

namespace Arithmetic

open Text

/-- A text denotes zero if it is blank, and else the word of 64 bits that it writes. -/
inductive TextDenotes
    (text : String) :
    Int →
    Prop where
  | blank :
      trim text = "" →
      TextDenotes text 0
  | numeral {number : Int} :
      Writes text number →
      FitsInt64 number →
      TextDenotes text number

/-- What the value of a variable denotes: by its type, or else by the text it is displayed as. -/
def ValueDenotes
    (value : Option Value)
    (number : Int) :
    Prop :=
  match value with
  | none => number = 0
  | some .null => number = 0
  | some (.bool holds) => number = if holds then 1 else 0
  | some (.int word) => number = word.toInt
  | some value => TextDenotes value.display number

/-- What the text of an operand denotes in a scope. -/
inductive Denotes
    (scope : Scope)
    (text : String) :
    Int →
    Prop where
  | own {number : Int} :
      TextDenotes text number →
      Denotes scope text number
  | variable {number : Int} :
      isName (trim text).toList = true →
      ValueDenotes (scope.lookup? (trim text)) number →
      Denotes scope text number

/-- The error of an operand that denotes nothing. -/
def refusal
    (scope : Scope)
    (text : String) :
    ArithError :=
  if isName (trim text).toList then
    .invalidVariable (trim text) (trim (scope.expand (trim text)))
  else
    .invalidOperand (trim text)

section Texts

variable {text : String}

/-- The word of 64 bits that a text denotes. -/
def readText?
    (text : String) :
    Option Int64 :=
  if (trim text).isEmpty then some 0 else readInt64? (trim text)

theorem readText?_eq_some_iff
    {number : Int64} :
    readText? text = some number ↔ TextDenotes text number.toInt := by
  unfold readText?
  split
  next blank =>
    have isBlank : trim text = "" := String.isEmpty_iff.mp blank
    constructor
    · intro read
      cases read
      exact .blank isBlank
    · intro denotes
      generalize same : number.toInt = value at denotes
      cases denotes with
      | blank _ => exact congrArg some (Int64.toInt_inj.mp same).symm
      | numeral writes _ => exact absurd writes (not_writes_of_blank isBlank)
  next notBlank =>
    rw [read_eq_some_iff]
    constructor
    · exact fun writes => .numeral writes ⟨number.minValue_le_toInt, number.toInt_le⟩
    · intro denotes
      generalize number.toInt = value at denotes
      cases denotes with
      | blank blank => exact absurd (String.isEmpty_iff.mpr blank) notBlank
      | numeral writes _ => exact writes

theorem readText?_eq_none_iff :
    readText? text = none ↔ ∀ number, ¬ TextDenotes text number := by
  unfold readText?
  split
  next blank =>
    constructor
    · exact nofun
    · exact fun nothing => absurd (.blank (String.isEmpty_iff.mp blank)) (nothing 0)
  next notBlank =>
    rw [read_eq_none_iff]
    constructor
    · rintro unread number (blank | ⟨writes, fits⟩)
      · exact notBlank (String.isEmpty_iff.mpr blank)
      · exact unread number writes fits
    · exact fun nothing number writes fits => nothing number (.numeral writes fits)

/-- A row of digits is not a name. -/
theorem isName_of_isDigits
    {digits : List Char}
    (areDigits : IsDigits digits) :
    isName digits = false := by
  obtain ⟨first, rest, rfl⟩ := List.exists_cons_of_ne_nil areDigits.1
  have isDigit : first.isDigit = true := List.all_eq_true.mp areDigits.2 first (.head rest)
  rw [Char.isDigit, Bool.and_eq_true, decide_eq_true_eq, decide_eq_true_eq] at isDigit
  have high : first.toNat ≤ 57 := UInt32.le_iff_toNat_le.mp isDigit.2
  have notUpper : first.isUpper = false :=
    decide_eq_false fun upper => absurd (UInt32.le_iff_toNat_le.mp upper.1) (by simp; omega)
  have notLower : first.isLower = false :=
    Bool.and_eq_false_iff.mpr (.inl (decide_eq_false fun lower =>
      absurd (UInt32.le_iff_toNat_le.mp lower) (by simp; omega)))
  have notAlpha : first.isAlpha = false := Bool.or_eq_false_iff.mpr ⟨notUpper, notLower⟩
  have notUnderscore : first ≠ '_' := by
    rintro rfl
    exact absurd high (by decide)
  simp [isName, notAlpha, notUnderscore]

/-- A name neither is blank nor writes a numeral. -/
theorem readText?_of_isName
    (name : isName (trim text).toList = true) :
    readText? text = none := by
  rw [readText?_eq_none_iff]
  rintro number (blank | ⟨writes, -⟩)
  · rw [blank] at name
    cases name
  · have spells := readSigned?_eq_some_iff.mp (writes_iff.mp writes)
    generalize (trim text).toList = characters at name spells
    cases spells with
    | unsigned areDigits => cases (isName_of_isDigits areDigits).symm.trans name
    | positive _ => cases name
    | negative _ => cases name

end Texts

section Values

/-- The word of 64 bits that the value of a variable denotes. -/
def readValue? :
    Option Value →
    Option Int64
  | none => some 0
  | some .null => some 0
  | some (.bool value) => some (if value then 1 else 0)
  | some (.int value) => some value
  | some value => readText? value.display

variable {value : Option Value}

/-- A value is read as what it denotes, or refused by the text that it is displayed as. -/
theorem valueOperand_eq
    (name : String) :
    valueOperand name value =
      (readValue? value).elim
        (.error (.invalidVariable name (trim ((value.map Value.display).getD "")))) .ok := by
  unfold valueOperand
  split
  next => rfl
  next => rfl
  next => rfl
  next => rfl
  next value notNull notInt notBool =>
    rw [readValue?, readText?]
    · dsimp only
      split
      · rfl
      · cases read : readInt64? (trim value.display) <;> simp
    · exact notNull
    · exact notBool
    · exact notInt

/-- A word is what a fixed word is if it is its integer. -/
theorem some_eq_some_iff_toInt
    {fixed number : Int64}
    {value : Int}
    (same : fixed.toInt = value) :
    some fixed = some number ↔ number.toInt = value := by
  rw [Option.some_inj, ← same, Int64.toInt_inj, eq_comm]

theorem readValue?_eq_some_iff
    {number : Int64} :
    readValue? value = some number ↔ ValueDenotes value number.toInt := by
  unfold readValue? ValueDenotes
  split
  next => exact some_eq_some_iff_toInt rfl
  next => exact some_eq_some_iff_toInt rfl
  next holds => exact some_eq_some_iff_toInt (by cases holds <;> rfl)
  next => exact some_eq_some_iff_toInt rfl
  next => exact readText?_eq_some_iff

theorem readValue?_eq_none_iff :
    readValue? value = none ↔ ∀ number, ¬ ValueDenotes value number := by
  unfold readValue? ValueDenotes
  split
  next => exact ⟨nofun, fun nothing => absurd rfl (nothing 0)⟩
  next => exact ⟨nofun, fun nothing => absurd rfl (nothing 0)⟩
  next holds => exact ⟨nofun, fun nothing => absurd rfl (nothing _)⟩
  next => exact ⟨nofun, fun nothing => absurd rfl (nothing _)⟩
  next => exact readText?_eq_none_iff

end Values

section Operands

variable {scope : Scope} {text : String}

/-- The word of 64 bits that the text of an operand denotes in a scope. -/
def readOperand?
    (scope : Scope)
    (text : String) :
    Option Int64 :=
  if isName (trim text).toList then readValue? (scope.lookup? (trim text)) else readText? text

/-- An operand is read as what it denotes, or else refused. -/
theorem operand_eq :
    operand scope text = (readOperand? scope text).elim (.error (refusal scope text)) .ok := by
  have byText :
      operand scope text =
        (readText? text).elim
          (if isName (trim text).toList then
            valueOperand (trim text) (scope.lookup? (trim text))
          else
            .error (.invalidOperand (trim text)))
          .ok := by
    rw [operand, readText?]
    split
    · rfl
    · cases read : readInt64? (trim text) <;> simp
  rw [byText, readOperand?, refusal]
  split
  next name =>
    rw [readText?_of_isName name, valueOperand_eq, Scope.expand]
    cases scope.lookup? (trim text) <;> rfl
  next => rfl

/-- What an operand is read as is what it denotes. -/
theorem readOperand?_eq_some_iff
    {number : Int64} :
    readOperand? scope text = some number ↔ Denotes scope text number.toInt := by
  unfold readOperand?
  split
  next name =>
    rw [readValue?_eq_some_iff]
    constructor
    · exact .variable name
    · rintro (own | ⟨-, denotes⟩)
      · cases (readText?_eq_some_iff.mpr own).symm.trans (readText?_of_isName name)
      · exact denotes
  next notName =>
    rw [readText?_eq_some_iff]
    constructor
    · exact .own
    · rintro (own | ⟨name, -⟩)
      · exact own
      · exact absurd name notName

theorem readOperand?_eq_none_iff :
    readOperand? scope text = none ↔ ∀ number, ¬ Denotes scope text number := by
  unfold readOperand?
  split
  next name =>
    rw [readValue?_eq_none_iff]
    constructor
    · rintro nothing number (own | ⟨-, denotes⟩)
      · exact readText?_eq_none_iff.mp (readText?_of_isName name) number own
      · exact nothing number denotes
    · exact fun nothing number denotes => nothing number (.variable name denotes)
  next notName =>
    rw [readText?_eq_none_iff]
    constructor
    · rintro nothing number (own | ⟨name, -⟩)
      · exact nothing number own
      · exact notName name
    · exact fun nothing number own => nothing number (.own own)

/-- An operand is the word that its text denotes. -/
theorem operand_eq_ok_iff
    {number : Int64} :
    operand scope text = .ok number ↔ Denotes scope text number.toInt := by
  rw [operand_eq, ← readOperand?_eq_some_iff]
  cases readOperand? scope text <;> simp

/-- An operand is refused exactly if its text denotes nothing. -/
theorem operand_eq_error_iff
    {cause : ArithError} :
    operand scope text = .error cause ↔
      (∀ number, ¬ Denotes scope text number) ∧ cause = refusal scope text := by
  rw [operand_eq, ← readOperand?_eq_none_iff]
  cases readOperand? scope text <;> simp [eq_comm]

/-- What denotes a number denotes a word of 64 bits. -/
theorem TextDenotes.exists_word
    {number : Int}
    (denotes : TextDenotes text number) :
    ∃ word : Int64, word.toInt = number := by
  cases denotes with
  | blank _ => exact ⟨0, rfl⟩
  | numeral _ fits =>
      exact ⟨.ofInt number, Int64.toInt_ofInt_of_le fits.1 (Int.lt_of_le_of_lt fits.2 (by decide))⟩

theorem ValueDenotes.exists_word
    {value : Option Value}
    {number : Int}
    (denotes : ValueDenotes value number) :
    ∃ word : Int64, word.toInt = number := by
  unfold ValueDenotes at denotes
  split at denotes
  next => exact ⟨0, denotes.symm⟩
  next => exact ⟨0, denotes.symm⟩
  next holds => exact ⟨if holds then 1 else 0, by rw [denotes]; cases holds <;> rfl⟩
  next word => exact ⟨word, denotes.symm⟩
  next => exact denotes.exists_word

theorem Denotes.exists_word
    {number : Int}
    (denotes : Denotes scope text number) :
    ∃ word : Int64, word.toInt = number := by
  rcases denotes with own | ⟨-, denotes⟩
  · exact own.exists_word
  · exact denotes.exists_word

end Operands

end Arithmetic

end ShellCore
