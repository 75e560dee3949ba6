import ShellCore.Source.Basic
import ShellCore.Text.Blank

namespace ShellCore

/-!
# Lexemes

A text is cut into lexemes from left to right, each the longest that its first
characters can begin. Spaces and tabs separate lexemes and belong to none; every
other character belongs to exactly one. A lexeme is cut by its kind and by the
number of characters that follow its first.
-/

/-- The two quotes that open a string. -/
inductive Quote where
  | single
  | double
  deriving Repr, DecidableEq

namespace Quote

/-- The character of a quote. -/
def char :
    Quote →
    Char
  | .single => '\''
  | .double => '"'

end Quote

/-- What the first characters of a text begin. -/
structure LexemeShape where
  kind : TokenKind
  /-- The number of characters after the first. -/
  following : Nat
  /-- The quote of a string that the text leaves open. -/
  opens : Option Quote
  deriving Repr, DecidableEq

namespace LexemeShape

/-- A lexeme that leaves no string open. -/
def plain
    (kind : TokenKind)
    (following : Nat) :
    LexemeShape where
  kind := kind
  following := following
  opens := none

end LexemeShape

/-- The number of leading characters of a class. -/
def countWhile
    (holds : Char → Bool)
    (characters : List Char) :
    Nat :=
  (characters.takeWhile holds).length

/-- Whether a character ends a word wherever it stands. -/
def isWordBreak
    (character : Char) :
    Bool :=
  Text.isBlank character ||
    character ∈ ['\'', '"', '|', '&', ';', '<', '>', '(', ')', '\x7b', '\x7d']

/-- Whether a character can stand inside a word. -/
def isWordPart
    (character : Char) :
    Bool :=
  !isWordBreak character

/-- Whether a character can begin a word. -/
def isWordStart
    (character : Char) :
    Bool :=
  isWordPart character && character ≠ '#'

/--
The number of characters behind an opening double quote that belong to the
string, and whether its closing quote is the last of them. A backslash takes the
next character with it, but at the end of a line it ends the string's part.
-/
def doubleQuotedLength :
    List Char →
    Nat × Bool
  | [] => (0, false)
  | '"' :: _ => (1, true)
  | ['\\'] => (0, false)
  | '\\' :: '\n' :: _ => (0, false)
  | '\\' :: _ :: rest =>
      let (length, closed) := doubleQuotedLength rest
      (length + 2, closed)
  | _ :: rest =>
      let (length, closed) := doubleQuotedLength rest
      (length + 1, closed)

/-- The same for an opening single quote, inside which only a single quote is special. -/
def singleQuotedLength :
    List Char →
    Nat × Bool
  | [] => (0, false)
  | character :: rest =>
      if character = '\'' then
        (1, true)
      else
        let (length, closed) := singleQuotedLength rest
        (length + 1, closed)

/-- The shape of a string from its opening quote. -/
def quotedShape
    (quote : Quote)
    (extent : Nat × Bool) :
    LexemeShape :=
  if extent.2 then
    .plain .quoted extent.1
  else
    { kind := .quotedPart
      following := extent.1
      opens := some quote }

/-- The number of characters that continue a redirection operator behind an angle bracket. -/
def angleFollowing
    (angle : Char) :
    List Char →
    Nat
  | '&' :: _ => 1
  | '<' :: '-' :: _ => if angle = '<' then 2 else 0
  | '<' :: _ => if angle = '<' then 1 else 0
  | '>' :: _ => if angle = '>' then 1 else 0
  | _ => 0

/-- The shape of a word: a keyword if it is written as one. -/
def wordShape
    (first : Char)
    (rest : List Char) :
    LexemeShape :=
  let following := countWhile isWordPart rest
  let text := String.ofList (first :: rest.take following)
  match ControlKeyword.ofWord? text with
  | some keyword => .plain (.control keyword) following
  | none => .plain .word following

/-- The shape of a redirection operator behind a descriptor, if digits are one. -/
def descriptorShape?
    (rest : List Char) :
    Option LexemeShape :=
  let digits := countWhile Char.isDigit rest
  match rest.drop digits with
  | '<' :: following => some (.plain .redirect (digits + 1 + angleFollowing '<' following))
  | '>' :: following => some (.plain .redirect (digits + 1 + angleFollowing '>' following))
  | _ => none

/-- The shape of what begins with an ampersand. -/
def ampersandShape :
    List Char →
    LexemeShape
  | '&' :: _ => .plain .operator 1
  | '>' :: _ => .plain .redirect 1
  | _ => .plain .operator 0

/-- The shape of an operator that may be doubled. -/
def doubledShape
    (first : Char)
    (rest : List Char) :
    LexemeShape :=
  .plain .operator (if rest.head? = some first then 1 else 0)

/-- The shape of the lexeme that begins with a character that is no space or tab. -/
def lexemeShape
    (first : Char)
    (rest : List Char) :
    LexemeShape :=
  if first = '\n' then .plain .newline 0
  else if first = '\x7b' then .plain .leftBrace 0
  else if first = '\x7d' then .plain .rightBrace 0
  else if first = '#' then .plain .comment (countWhile (· ≠ '\n') rest)
  else if first = '\'' then quotedShape .single (singleQuotedLength rest)
  else if first = '"' then quotedShape .double (doubleQuotedLength rest)
  else if first = '(' ∨ first = ')' then .plain .operator 0
  else if first = '|' ∨ first = ';' then doubledShape first rest
  else if first = '&' then ampersandShape rest
  else if first = '<' ∨ first = '>' then .plain .redirect (angleFollowing first rest)
  else if Text.isBlank first then .plain .unknown 0
  else if first.isDigit then (descriptorShape? rest).getD (wordShape first rest)
  else wordShape first rest

/-- A lexeme at the byte column where it begins. -/
structure Lexeme where
  kind : TokenKind
  column : Nat
  text : List Char
  opens : Option Quote
  deriving Repr, DecidableEq

/-- Whether a character separates lexemes. -/
def isSeparator
    (character : Char) :
    Bool :=
  character = ' ' || character = '\t'

end ShellCore
