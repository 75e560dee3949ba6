namespace ShellCore

/-!
# Sources, lines and tokens

Lines, tokens and sources are known by handles: words of 32 bits that are given
out in order and never again. Records hold handles, not each other, so a syntax
tree keeps a handle where it comes from text.
-/

/-- The handle of a physical line. -/
structure LineId where
  value : UInt32
  deriving Repr, DecidableEq

/-- The handle of a token. -/
structure SpanId where
  value : UInt32
  deriving Repr, DecidableEq

/-- The handle of one opening of a source; equal sources opened twice differ. -/
structure SourceId where
  value : UInt32
  deriving Repr, DecidableEq

namespace SpanId

/-- The handle that stands for no token; it is never given out. -/
def none : SpanId where
  value := 4294967295

/-- Whether the handle stands for no token. -/
def isNone
    (span : SpanId) :
    Bool :=
  span = none

/-- The place of the token in the token table. -/
def index
    (span : SpanId) :
    Nat :=
  span.value.toNat

/-- The text of a handle in messages. -/
def display
    (span : SpanId) :
    String :=
  if span.isNone then "<no span>" else toString span.index

instance : Inhabited SpanId where
  default := none

end SpanId

namespace LineId

/-- The place of the line in the line table. -/
def index
    (line : LineId) :
    Nat :=
  line.value.toNat

/-- The text of a handle in messages. -/
def display
    (line : LineId) :
    String :=
  toString line.index

end LineId

namespace SourceId

/-- The place of the source in the source table. -/
def index
    (source : SourceId) :
    Nat :=
  source.value.toNat

end SourceId

/-- Where physical lines come from. -/
inductive Provenance where
  /-- Lines typed at an interactive prompt. -/
  | interactive
  /-- The text given on the command line. -/
  | commandFlag
  /-- A script read from standard input. -/
  | stdin
  /-- The main script file. -/
  | mainFile (path : String)
  /-- A file that the command at `origin` reads. -/
  | sourcedFile (path : String) (origin : SpanId)
  /-- The text that the command at `origin` evaluates. -/
  | eval (origin : SpanId)
  /-- The body of an alias expanded at `origin`. -/
  | aliasBody (name : String) (origin : SpanId)
  /-- Text that the shell made itself. -/
  | synthetic (label : String)
  deriving Repr, DecidableEq

namespace Provenance

/-- The text of a provenance in locations. -/
def display :
    Provenance →
    String
  | .interactive => "[ interactive ]"
  | .commandFlag => "[ -c flag ]"
  | .stdin => "[ stdin ]"
  | .mainFile path => path
  | .sourcedFile path _ => path
  | .eval _ => "[ eval ]"
  | .aliasBody name _ => "[ expansion of alias '" ++ name ++ "' ]"
  | .synthetic label => "[ " ++ label ++ " ]"

end Provenance

/-- A keyword that raises a control signal. -/
inductive ControlKeyword where
  | breakLoop
  | continueLoop
  | returnCall
  deriving Repr, DecidableEq

namespace ControlKeyword

/-- The word that writes the keyword. -/
def word :
    ControlKeyword →
    String
  | .breakLoop => "break"
  | .continueLoop => "continue"
  | .returnCall => "return"

/-- The kind of frame that takes the signal of the keyword. -/
def frameName :
    ControlKeyword →
    String
  | .breakLoop => "a loop"
  | .continueLoop => "a loop"
  | .returnCall => "a function"

/-- The keyword that a word writes. -/
def ofWord?
    (word : String) :
    Option ControlKeyword :=
  if word = "break" then some .breakLoop
  else if word = "continue" then some .continueLoop
  else if word = "return" then some .returnCall
  else none

/-- Each keyword is read back from its word. -/
@[simp] theorem ofWord?_word
    (keyword : ControlKeyword) :
    ofWord? keyword.word = some keyword := by
  cases keyword <;> decide

end ControlKeyword

/-- The lexical class of a token. -/
inductive TokenKind where
  /-- Characters of an unquoted word. -/
  | word
  /-- A quoted string that opens and closes on one line. -/
  | quoted
  /-- The part on one line of a quoted string that spans lines. -/
  | quotedPart
  /-- A list, pipeline or group operator. -/
  | operator
  /-- A redirection operator, with its descriptor. -/
  | redirect
  | leftBrace
  | rightBrace
  | comment
  | newline
  /-- A keyword that raises a control signal. -/
  | control (keyword : ControlKeyword)
  /-- A character of no other class. -/
  | unknown
  deriving Repr, DecidableEq

/-- A token of a line; columns and lengths count bytes. -/
structure Token where
  kind : TokenKind
  column : UInt32
  length : UInt32
  line : LineId
  span : SpanId
  text : String
  deriving Repr, DecidableEq

namespace Token

/-- The column one past the last byte of the token. -/
def endColumn
    (token : Token) :
    Nat :=
  token.column.toNat + token.length.toNat

end Token

/-- A physical line, with its number within its source, counted from one. -/
structure SourceLine where
  line : LineId
  number : UInt32
  text : String
  source : SourceId
  deriving Repr, DecidableEq

end ShellCore
