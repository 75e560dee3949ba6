namespace ShellCore.Text

/-!
# Byte columns

Columns count the bytes of a text's UTF-8 form. A column is a boundary if no
character reaches across it; only boundaries can begin or end a slice.
-/

/-- The number of bytes of a character sequence. -/
def byteLength :
    List Char →
    Nat
  | [] => 0
  | character :: rest => character.utf8Size + byteLength rest

/-- The characters from a byte column on, if it is a boundary. -/
def dropBytes? :
    List Char →
    Nat →
    Option (List Char)
  | characters, 0 => some characters
  | [], _ + 1 => none
  | character :: rest, column + 1 =>
      if character.utf8Size ≤ column + 1 then
        dropBytes? rest (column + 1 - character.utf8Size)
      else
        none

/-- The characters before a byte column, if it is a boundary. -/
def takeBytes? :
    List Char →
    Nat →
    Option (List Char)
  | _, 0 => some []
  | [], _ + 1 => none
  | character :: rest, column + 1 =>
      if character.utf8Size ≤ column + 1 then
        (takeBytes? rest (column + 1 - character.utf8Size)).map (character :: ·)
      else
        none

/-- The characters between two byte columns in order, if both are boundaries. -/
def sliceBytes?
    (characters : List Char)
    (first last : Nat) :
    Option (List Char) :=
  if first ≤ last then
    (dropBytes? characters first).bind fun rest => takeBytes? rest (last - first)
  else
    none

/-- Whether a byte column is a boundary of a character sequence. -/
def isBoundary
    (characters : List Char)
    (column : Nat) :
    Bool :=
  (dropBytes? characters column).isSome

@[simp] theorem byteLength_nil :
    byteLength [] = 0 :=
  rfl

@[simp] theorem byteLength_cons
    (character : Char)
    (rest : List Char) :
    byteLength (character :: rest) = character.utf8Size + byteLength rest :=
  rfl

theorem byteLength_append
    (left right : List Char) :
    byteLength (left ++ right) = byteLength left + byteLength right := by
  induction left with
  | nil => simp
  | cons character rest ih => simp [ih, Nat.add_assoc]

/-- Dropping the bytes of a leading part leaves what follows it. -/
theorem dropBytes?_append
    (left right : List Char) :
    dropBytes? (left ++ right) (byteLength left) = some right := by
  induction left with
  | nil => cases right <;> rfl
  | cons character rest ih =>
      have positive := character.utf8Size_pos
      obtain ⟨size, sized⟩ : ∃ size, character.utf8Size + byteLength rest = size + 1 :=
        ⟨character.utf8Size + byteLength rest - 1, by omega⟩
      have enough : character.utf8Size ≤ size + 1 := by omega
      have remaining : size + 1 - character.utf8Size = byteLength rest := by omega
      simp [dropBytes?, sized, enough, remaining, ih]

/-- Taking the bytes of a leading part yields that part. -/
theorem takeBytes?_append
    (left right : List Char) :
    takeBytes? (left ++ right) (byteLength left) = some left := by
  induction left with
  | nil => cases right <;> rfl
  | cons character rest ih =>
      have positive := character.utf8Size_pos
      obtain ⟨size, sized⟩ : ∃ size, character.utf8Size + byteLength rest = size + 1 :=
        ⟨character.utf8Size + byteLength rest - 1, by omega⟩
      have enough : character.utf8Size ≤ size + 1 := by omega
      have remaining : size + 1 - character.utf8Size = byteLength rest := by omega
      simp [takeBytes?, sized, enough, remaining, ih]

/-- A middle part is the slice between the bytes before it and its own end. -/
theorem sliceBytes?_append
    (before middle after : List Char) :
    sliceBytes? (before ++ (middle ++ after)) (byteLength before)
        (byteLength before + byteLength middle) =
      some middle := by
  simp [sliceBytes?, dropBytes?_append, takeBytes?_append]

end ShellCore.Text
