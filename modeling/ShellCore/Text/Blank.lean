namespace ShellCore.Text

/-!
# Blank characters

The characters of the Unicode property White_Space, and trimming by it.
-/

/-- The inclusive code point ranges of the property White_Space. -/
def blankRanges : List (Nat × Nat) :=
  [(0x0009, 0x000D), (0x0020, 0x0020), (0x0085, 0x0085), (0x00A0, 0x00A0),
    (0x1680, 0x1680), (0x2000, 0x200A), (0x2028, 0x2029), (0x202F, 0x202F),
    (0x205F, 0x205F), (0x3000, 0x3000)]

/-- Whether a character has the property White_Space. -/
def isBlank
    (character : Char) :
    Bool :=
  blankRanges.any fun range =>
    range.1 ≤ character.toNat && character.toNat ≤ range.2

/-- Drop the blank characters at both ends. -/
def trimChars
    (characters : List Char) :
    List Char :=
  ((characters.dropWhile isBlank).reverse.dropWhile isBlank).reverse

/-- Drop the blank characters at both ends of a text. -/
def trim
    (text : String) :
    String :=
  String.ofList (trimChars text.toList)

end ShellCore.Text
