import ShellCore.Source.Basic
import ShellCore.Table

namespace ShellCore

/-!
# The arena of lines and tokens

The arena keeps two tiers. Its tables of lines, tokens and sources only grow, so
a handle stays good for as long as the arena lives. Its window holds the lines
added since the last discard; a block of the window can be saved to a log, which
only grows too. An operation that may be refused answers with the arena that it
leaves behind, whether it was refused or not.
-/

/-- Why an operation on the arena is refused. Each is a fault of the caller. -/
inductive ArenaError where
  /-- No token was given where one is needed. -/
  | noSpan
  /-- A token handle that was never given out. -/
  | spanOutOfRange (span : SpanId) (allocated : Nat)
  /-- A line handle that was never given out. -/
  | lineOutOfRange (line : LineId) (allocated : Nat)
  /-- A line that was discarded or saved. -/
  | lineNotInWindow (line : LineId)
  /-- The right end of a range stands before its left end. -/
  | invertedRange (left right : LineId)
  /-- The ends of a range come from two openings of sources. -/
  | provenanceMismatch (left right : SpanId)
  /-- A column that does not stand between two characters of its line. -/
  | badColumn (line : LineId) (column : Nat)
  /-- No source is open. -/
  | noActiveSource
  /-- No source is left to close. -/
  | sourceStackEmpty
  /-- All handles have been given out. -/
  | exhausted
  /-- A token for a line that was never added. -/
  | unknownLine (line : LineId)
  deriving Repr, DecidableEq

namespace ArenaError

/-- The text of an error. -/
def message :
    ArenaError →
    String
  | .noSpan => "the no-span sentinel was passed where a token was required"
  | .spanOutOfRange span allocated =>
      "span id out of range: " ++ span.display ++ " is not below " ++ toString allocated
  | .lineOutOfRange line allocated =>
      "line id out of range: " ++ line.display ++ " is not below " ++ toString allocated
  | .lineNotInWindow line => "line " ++ line.display ++ " is not in the active window"
  | .invertedRange left right =>
      "line " ++ right.display ++ " comes before line " ++ left.display
  | .provenanceMismatch left right =>
      "spans " ++ left.display ++ " and " ++ right.display ++ " come from different sources"
  | .badColumn line column =>
      "column " ++ toString column ++ " is not a valid boundary of line " ++ line.display
  | .noActiveSource => "no source has been pushed"
  | .sourceStackEmpty => "pop_source called on an empty source stack"
  | .exhausted => "handle space exhausted"
  | .unknownLine line => "token on unknown line " ++ line.display

end ArenaError

/-- The lines, tokens and sources known so far. -/
structure Arena where
  /-- Every line ever added, at the place that its handle names. -/
  lines : Array SourceLine
  /-- Every token ever added, at the place that its handle names. -/
  tokens : Array Token
  /-- Every source ever opened, at the place that its handle names. -/
  sources : Array Provenance
  /-- The sources that are open, innermost first. -/
  openSources : List SourceId
  /-- The lines added since the last discard, in order. -/
  active : List LineId
  /-- The lines saved from the window, in order. -/
  saved : List LineId
  /-- The texts of line numbers that were asked for. -/
  numerals : Table UInt32 String
  deriving Repr

/-- The sizes of an arena's tables. -/
structure ArenaStats where
  lines : Nat
  tokens : Nat
  active : Nat
  saved : Nat
  sources : Nat
  deriving Repr, DecidableEq

namespace Arena

/-- The arena without lines, tokens and sources. -/
def empty : Arena where
  lines := #[]
  tokens := #[]
  sources := #[]
  openSources := []
  active := []
  saved := []
  numerals := .empty

instance : Inhabited Arena where
  default := empty

/-- The next handle of a table; the greatest word is never given out. -/
def nextHandle
    (size : Nat) :
    Except ArenaError UInt32 :=
  if size < SpanId.none.index then
    .ok (UInt32.ofNat size)
  else
    .error .exhausted

/-- Open a source inside those that are open. -/
def openSource
    (arena : Arena)
    (provenance : Provenance) :
    SourceId × Arena :=
  let source := ⟨UInt32.ofNat arena.sources.size⟩
  (source, { arena with
    sources := arena.sources.push provenance
    openSources := source :: arena.openSources })

/-- Close the innermost open source. -/
def closeSource
    (arena : Arena) :
    Except ArenaError SourceId × Arena :=
  match arena.openSources with
  | [] => (.error .sourceStackEmpty, arena)
  | source :: rest => (.ok source, { arena with openSources := rest })

/-- Close the innermost open source, if there is one. -/
def closeInnermost
    (arena : Arena) :
    Arena :=
  { arena with openSources := arena.openSources.tail }

/-- Run a step inside a source, which is closed after it however it ends. -/
def withSource
    (arena : Arena)
    (provenance : Provenance)
    (step : Arena → α × Arena) :
    α × Arena :=
  let (result, after) := step (arena.openSource provenance).2
  (result, after.closeInnermost)

/-- The innermost open source. -/
def currentSource?
    (arena : Arena) :
    Option SourceId :=
  arena.openSources.head?

/-- The provenance that a source was opened with. -/
def source?
    (arena : Arena)
    (source : SourceId) :
    Option Provenance :=
  arena.sources[source.index]?

/-- The number of open sources. -/
def sourceDepth
    (arena : Arena) :
    Nat :=
  arena.openSources.length

/-- Add a line of the innermost open source. -/
def addLine
    (arena : Arena)
    (text : String)
    (number : UInt32) :
    Except ArenaError LineId × Arena :=
  match arena.currentSource? with
  | none => (.error .noActiveSource, arena)
  | some source =>
      match nextHandle arena.lines.size with
      | .error error => (.error error, arena)
      | .ok handle =>
          (.ok ⟨handle⟩, { arena with
            lines := arena.lines.push ⟨⟨handle⟩, number, text, source⟩
            active := arena.active ++ [⟨handle⟩] })

/-- Clear the window. -/
def discard
    (arena : Arena) :
    Arena :=
  { arena with active := [] }

/-- The record of a line. -/
def line
    (arena : Arena)
    (line : LineId) :
    Except ArenaError SourceLine :=
  match arena.lines[line.index]? with
  | some found => .ok found
  | none => .error (.lineOutOfRange line arena.lines.size)

/-- The text of a line. -/
def lineText
    (arena : Arena)
    (line : LineId) :
    Except ArenaError String :=
  (arena.line line).map (·.text)

/-- The number of a line within its source. -/
def lineNumber
    (arena : Arena)
    (line : LineId) :
    Except ArenaError UInt32 :=
  (arena.line line).map (·.number)

/-- The provenance of a line. -/
def lineSource
    (arena : Arena)
    (line : LineId) :
    Except ArenaError Provenance :=
  match arena.line line with
  | .error error => .error error
  | .ok found =>
      match arena.source? found.source with
      | some provenance => .ok provenance
      | none => .error .noActiveSource

/-- The number of a line as a text; each text is made once. -/
def lineNumeral
    (arena : Arena)
    (line : LineId) :
    Except ArenaError String × Arena :=
  match arena.lineNumber line with
  | .error error => (.error error, arena)
  | .ok number =>
      match arena.numerals.get? number with
      | some text => (.ok text, arena)
      | none =>
          let text := toString number.toNat
          (.ok text, { arena with numerals := arena.numerals.insert number text })

/-- The records of the lines in the window. -/
def activeLines
    (arena : Arena) :
    List SourceLine :=
  arena.active.filterMap fun line => arena.lines[line.index]?

/-- The records of the saved lines. -/
def savedLines
    (arena : Arena) :
    List SourceLine :=
  arena.saved.filterMap fun line => arena.lines[line.index]?

/-- Add a token of a line; its end must be a column of 32 bits. -/
def addToken
    (arena : Arena)
    (kind : TokenKind)
    (column length : UInt32)
    (line : LineId)
    (text : String) :
    Except ArenaError SpanId × Arena :=
  if UInt32.size ≤ column.toNat + length.toNat then
    (.error (.badColumn line column.toNat), arena)
  else
    match nextHandle arena.tokens.size with
    | .error error => (.error error, arena)
    | .ok handle =>
        if line.index < arena.lines.size then
          (.ok ⟨handle⟩, { arena with
            tokens := arena.tokens.push ⟨kind, column, length, line, ⟨handle⟩, text⟩ })
        else
          (.error (.unknownLine line), arena)

/-- The record of a token. -/
def token
    (arena : Arena)
    (span : SpanId) :
    Except ArenaError Token :=
  if span.isNone then
    .error .noSpan
  else
    match arena.tokens[span.index]? with
    | some found => .ok found
    | none => .error (.spanOutOfRange span arena.tokens.size)

/-- The handle that the next token will have. -/
def nextSpan
    (arena : Arena) :
    SpanId where
  value := UInt32.ofNat arena.tokens.size

/-- The sizes of the tables. -/
def stats
    (arena : Arena) :
    ArenaStats where
  lines := arena.lines.size
  tokens := arena.tokens.size
  active := arena.active.length
  saved := arena.saved.length
  sources := arena.sources.size

end Arena

end ShellCore
