import ShellCore.Source.Arena
import ShellCore.Text.Bytes

namespace ShellCore

/-!
# Text between tokens

Three operations take the lines from one token to another: a snippet of the
window from the first byte of the left token to the last of the right one, the
code strictly between two tokens from the line table, and the saving of the
lines of a block from the window to the log.
-/

namespace SourceLine

/-- The part of a line from a column on. -/
def sliceFrom
    (line : SourceLine)
    (first : Nat) :
    Except ArenaError (List Char) :=
  match Text.dropBytes? line.text.toList first with
  | some characters => .ok characters
  | none => .error (.badColumn line.line first)

/-- The part of a line before a column. -/
def sliceTo
    (line : SourceLine)
    (last : Nat) :
    Except ArenaError (List Char) :=
  match Text.takeBytes? line.text.toList last with
  | some characters => .ok characters
  | none => .error (.badColumn line.line last)

/--
The part of a line between two columns. A first column that is no boundary is
reported; otherwise the last one is, also when it stands before the first.
-/
def sliceBetween
    (line : SourceLine)
    (first last : Nat) :
    Except ArenaError (List Char) :=
  match Text.sliceBytes? line.text.toList first last with
  | some characters => .ok characters
  | none =>
      if Text.isBoundary line.text.toList first then
        .error (.badColumn line.line last)
      else
        .error (.badColumn line.line first)

end SourceLine

namespace Arena

/-- The leading items up to the first that equals `last`, which is included. -/
def takeThrough?
    (last : LineId) :
    List LineId →
    Option (List LineId)
  | [] => none
  | line :: rest =>
      if line = last then
        some [line]
      else
        (takeThrough? last rest).map (line :: ·)

/-- The lines of the window from one line to another, both included. -/
def windowBetween
    (arena : Arena)
    (left right : LineId) :
    Except ArenaError (List LineId) :=
  match arena.active.dropWhile (· ≠ left) with
  | [] => .error (.lineNotInWindow left)
  | found =>
      match takeThrough? right found with
      | some lines => .ok lines
      | none =>
          if right ∈ arena.active then
            .error (.invertedRange left right)
          else
            .error (.lineNotInWindow right)

/-- The lines of the window from the left token's to the right token's. -/
def blockBetween
    (arena : Arena)
    (left right : SpanId) :
    Except ArenaError (List LineId) := do
  let leftToken ← arena.token left
  let rightToken ← arena.token right
  arena.windowBetween leftToken.line rightToken.line

/-- Save the lines of the window from the left token's to the right token's, and clear it. -/
def saveBlock
    (arena : Arena)
    (left right : SpanId) :
    Except ArenaError Nat × Arena :=
  match arena.blockBetween left right with
  | .error error => (.error error, arena)
  | .ok lines =>
      (.ok lines.length, { arena with
        saved := arena.saved ++ lines
        active := [] })

/-- The whole lines of a list but for its last, which ends at a column. -/
def joinLines
    (arena : Arena)
    (lastColumn : Nat) :
    List LineId →
    Except ArenaError (List Char)
  | [] => .ok []
  | [last] => do
      let record ← arena.line last
      record.sliceTo lastColumn
  | line :: rest => do
      let record ← arena.line line
      let following ← joinLines arena lastColumn rest
      .ok (record.text.toList ++ following)

/-- The text from the first byte of the left token to the last byte of the right one. -/
def snippet
    (arena : Arena)
    (left right : SpanId) :
    Except ArenaError String := do
  let leftToken ← arena.token left
  let rightToken ← arena.token right
  let lines ← arena.windowBetween leftToken.line rightToken.line
  match lines with
  | [] => .ok ""
  | [only] =>
      let record ← arena.line only
      let characters ← record.sliceBetween leftToken.column.toNat rightToken.endColumn
      .ok (String.ofList characters)
  | first :: rest =>
      let record ← arena.line first
      let head ← record.sliceFrom leftToken.column.toNat
      let following ← arena.joinLines rightToken.endColumn rest
      .ok (String.ofList (head ++ following))

/-- The handles of the lines after one line and before another. -/
def linesBetween
    (first last : LineId) :
    List LineId :=
  (List.range' (first.index + 1) (last.index - (first.index + 1))).map
    fun index => ⟨UInt32.ofNat index⟩

/-- The whole texts of listed lines. -/
def wholeLines
    (arena : Arena) :
    List LineId →
    Except ArenaError (List Char)
  | [] => .ok []
  | line :: rest => do
      let record ← arena.line line
      let following ← wholeLines arena rest
      .ok (record.text.toList ++ following)

/--
The text strictly between two tokens, behind as many spaces as there are bytes
before it on its first line, so that every byte stands at its own column.
-/
def codeBetween
    (arena : Arena)
    (left right : SpanId) :
    Except ArenaError String := do
  let leftToken ← arena.token left
  let rightToken ← arena.token right
  let leftLine ← arena.line leftToken.line
  let rightLine ← arena.line rightToken.line
  if leftLine.source ≠ rightLine.source then
    .error (.provenanceMismatch left right)
  else if rightLine.line.index < leftLine.line.index then
    .error (.invertedRange leftLine.line rightLine.line)
  else
    let body ←
      if leftLine.line = rightLine.line then
        leftLine.sliceBetween leftToken.endColumn rightToken.column.toNat
      else do
        let head ← leftLine.sliceFrom leftToken.endColumn
        let middle ← arena.wholeLines (linesBetween leftLine.line rightLine.line)
        let tail ← rightLine.sliceTo rightToken.column.toNat
        .ok (head ++ middle ++ tail)
    .ok (String.ofList (List.replicate leftToken.endColumn ' ' ++ body))

end Arena

end ShellCore
