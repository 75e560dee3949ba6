import ShellCore.Lexing.Lexeme
import ShellCore.Source.Arena
import ShellCore.Text.Bytes

namespace ShellCore

/-!
# Lexing of physical lines

A line is added to the arena and cut into tokens. A quoted string may stay open
at the end of a line; the next line then begins with a part of that string. Where
the arena refuses a line or a token, what was added before stays there.
-/

/-- Cut a text into lexemes, the first at the given byte column. -/
def lexemesFrom
    (column : Nat) :
    List Char →
    List Lexeme
  | [] => []
  | first :: rest =>
      if isSeparator first then
        lexemesFrom (column + first.utf8Size) rest
      else
        let shape := lexemeShape first rest
        let text := first :: rest.take shape.following
        { kind := shape.kind
          column := column
          text := text
          opens := shape.opens } ::
            lexemesFrom (column + Text.byteLength text) (rest.drop shape.following)
termination_by characters => characters.length
decreasing_by
  · simp
  · simp only [List.length_drop, List.length_cons]
    omega

/--
The number of characters up to the quote that closes a string from an earlier
line, that quote included. Between double quotes a backslash protects whatever
character follows it.
-/
def closingLength? :
    Quote →
    List Char →
    Option Nat
  | _, [] => none
  | .single, character :: rest =>
      if character = '\'' then
        some 1
      else
        (closingLength? .single rest).map (· + 1)
  | .double, '"' :: _ => some 1
  | .double, ['\\'] => none
  | .double, '\\' :: _ :: rest => (closingLength? .double rest).map (· + 2)
  | .double, _ :: rest => (closingLength? .double rest).map (· + 1)

/-- The lexer between two lines: the quote of a string left open. -/
structure LineLexer where
  openQuote : Option Quote
  deriving Repr, DecidableEq

/-- The tokens of one line. -/
structure LexedLine where
  line : LineId
  tokens : List SpanId
  deriving Repr, DecidableEq

namespace LineLexer

/-- The lexer at the beginning of a source. -/
def start : LineLexer where
  openQuote := none

instance : Inhabited LineLexer where
  default := start

/-- Whether a string is open. -/
def inQuote
    (lexer : LineLexer) :
    Bool :=
  lexer.openQuote.isSome

/-- The quote that is open after some lexemes: the last that one of them leaves open. -/
def quoteAfter
    (openQuote : Option Quote)
    (lexemes : List Lexeme) :
    Option Quote :=
  lexemes.foldl (fun quote lexeme => lexeme.opens.or quote) openQuote

/-- The lexemes of a line, and the lexer after it. -/
def scan
    (lexer : LineLexer)
    (text : List Char) :
    List Lexeme × LineLexer :=
  match lexer.openQuote with
  | none =>
      let lexemes := lexemesFrom 0 text
      (lexemes, ⟨quoteAfter none lexemes⟩)
  | some quote =>
      match closingLength? quote text with
      | none => ([⟨.quotedPart, 0, text, none⟩], lexer)
      | some length =>
          let part := text.take length
          let lexemes := lexemesFrom (Text.byteLength part) (text.drop length)
          (⟨.quotedPart, 0, part, none⟩ :: lexemes, ⟨quoteAfter none lexemes⟩)

/-- Why a token was refused, and the lexemes of its line that were come to by then. -/
structure Refusal where
  error : ArenaError
  /-- The last of these is the lexeme whose token was refused. -/
  reached : List Lexeme

/--
The lexer after a line one of whose tokens was refused. A string from an earlier line
is closed behind the token of its last part, while a quote that opens a string does so
before its token.
-/
def afterRefusal
    (lexer : LineLexer)
    (reached : List Lexeme) :
    LineLexer :=
  if lexer.inQuote ∧ reached.length = 1 then
    lexer
  else
    ⟨quoteAfter none reached⟩

/-- Add lexemes of a line to the arena as its tokens, up to the first that is refused. -/
def addTokens
    (arena : Arena)
    (line : LineId) :
    List Lexeme →
    Except Refusal (List SpanId) × Arena
  | [] => (.ok [], arena)
  | lexeme :: rest =>
      match arena.addToken lexeme.kind (UInt32.ofNat lexeme.column)
          (UInt32.ofNat (Text.byteLength lexeme.text)) line (String.ofList lexeme.text) with
      | (.error error, arena) => (.error ⟨error, [lexeme]⟩, arena)
      | (.ok span, arena) =>
          match addTokens arena line rest with
          | (.error ⟨error, reached⟩, arena) => (.error ⟨error, lexeme :: reached⟩, arena)
          | (.ok spans, arena) => (.ok (span :: spans), arena)

/-- Add a physical line of the innermost open source and its tokens. -/
def feedLine
    (lexer : LineLexer)
    (arena : Arena)
    (text : String)
    (number : Nat) :
    Except ArenaError LexedLine × LineLexer × Arena :=
  match arena.addLine text (UInt32.ofNat number) with
  | (.error error, arena) => (.error error, lexer, arena)
  | (.ok line, arena) =>
      let (lexemes, next) := lexer.scan text.toList
      match addTokens arena line lexemes with
      | (.error ⟨error, reached⟩, arena) => (.error error, lexer.afterRefusal reached, arena)
      | (.ok tokens, arena) => (.ok ⟨line, tokens⟩, next, arena)

/-- Add physical lines in order, numbered from the given number, up to one that is refused. -/
def feedLines
    (lexer : LineLexer)
    (arena : Arena)
    (number : Nat) :
    List (List Char) →
    Except ArenaError (List LexedLine) × LineLexer × Arena
  | [] => (.ok [], lexer, arena)
  | text :: rest =>
      match lexer.feedLine arena (String.ofList text) number with
      | (.error error, lexer, arena) => (.error error, lexer, arena)
      | (.ok line, lexer, arena) =>
          match feedLines lexer arena (number + 1) rest with
          | (.error error, lexer, arena) => (.error error, lexer, arena)
          | (.ok lines, lexer, arena) => (.ok (line :: lines), lexer, arena)

/-- The physical lines of a text, each with the newline that ends it. -/
def physicalLines :
    List Char →
    List (List Char)
  | [] => []
  | character :: rest =>
      if character = '\n' then
        [character] :: physicalLines rest
      else
        match physicalLines rest with
        | [] => [[character]]
        | line :: lines => (character :: line) :: lines

/-- Add a whole text as a source of its own, which is closed after it however that ends. -/
def lexSource
    (lexer : LineLexer)
    (arena : Arena)
    (provenance : Provenance)
    (text : String) :
    Except ArenaError (List LexedLine) × LineLexer × Arena :=
  let (result, lexer, arena) :=
    lexer.feedLines (arena.openSource provenance).2 1 (physicalLines text.toList)
  (result, lexer, arena.closeInnermost)

end LineLexer

end ShellCore
