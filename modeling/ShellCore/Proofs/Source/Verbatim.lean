import ShellCore.Proofs.Lexing.Columns
import ShellCore.Proofs.Source.LexedLines
import ShellCore.Proofs.Source.Reconstruction

namespace ShellCore.Arena

/-!
# Verbatim text of a lexed source

The lines of a lexed source follow each other in the line table, with no other
line among them. So what is taken back between two of its tokens is the part of
its text between them, and the code between them stands at its own columns
unless the first token ends its line: the spaces in front of the code then stand
on the next line.
-/

open LineLexer (physicalLines)

/-- A token of a lexed source, on one of its numbered lines. -/
structure PlacedToken
    (arena : Arena)
    (text : String)
    (lines : List LexedLine)
    (span : SpanId) where
  number : Nat
  line : LexedLine
  token : Token
  onLine : lines[number]? = some line
  ofLine : span ∈ line.tokens
  found : arena.token span = .ok token

namespace PlacedToken

variable {arena after : Arena} {text : String} {lines : List LexedLine} {span : SpanId}

/-- The byte offset in the source's text at which the token begins. -/
def start
    (placed : PlacedToken arena text lines span) :
    Nat :=
  lineStart (physicalLines text.toList) placed.number + placed.token.column.toNat

/-- The byte offset in the source's text at which the token ends. -/
def finish
    (placed : PlacedToken arena text lines span) :
    Nat :=
  lineStart (physicalLines text.toList) placed.number + placed.token.endColumn

/-- The token stays in its place while the tables of the arena grow. -/
def later
    (extended : after.Extends arena)
    (placed : PlacedToken arena text lines span) :
    PlacedToken after text lines span :=
  { placed with found := extended.token placed.found }

end PlacedToken

/-- A source as an arena keeps it; the columns of its lines are words of 32 bits. -/
structure KeepsSource
    (arena : Arena)
    (source : SourceId)
    (place : Nat)
    (text : String)
    (lines : List LexedLine) :
    Prop where
  wellFormed : arena.WellFormed
  keeps : arena.KeepsLines source place (physicalLines text.toList) lines
  short : ∀ line ∈ physicalLines text.toList, Text.byteLength line < UInt32.size

/-- The tokens of a line measure lexemes that tile it, none of which is empty. -/
theorem KeepsLine.measures
    {arena : Arena}
    {source : SourceId}
    {place : Nat}
    {text : List Char}
    {lexed : LexedLine}
    (keeps : arena.KeepsLine source place text lexed)
    (short : Text.byteLength text < UInt32.size)
    (nonempty : text ≠ []) :
    ∃ lexemes,
      Tiles 0 text lexemes ∧
        ∀ span ∈ lexed.tokens, ∀ token, arena.token span = .ok token →
          ∃ lexeme ∈ lexemes,
            token.Records lexed.line lexeme ∧ token.Measures lexeme ∧ lexeme.text ≠ [] := by
  obtain ⟨lexemes, tiles, solid, recorded⟩ := keeps.tokens
  refine ⟨lexemes, tiles, fun span isToken token found => ?_⟩
  obtain ⟨same, foundToo, lexeme, member, records⟩ := recorded span isToken
  obtain rfl : token = same := Except.ok.inj (found.symm.trans foundToo)
  have fits := Nat.lt_of_le_of_lt (tiles.endColumn_le lexeme member) short
  exact ⟨lexeme, member, records, records.measures fits,
    (solid lexeme member).resolve_right nonempty⟩

/-- Every token of a source is placed in it. -/
theorem KeepsSource.exists_placed
    {arena : Arena}
    {source : SourceId}
    {place : Nat}
    {text : String}
    {lines : List LexedLine}
    (kept : arena.KeepsSource source place text lines)
    {line : LexedLine}
    (isLine : line ∈ lines)
    {span : SpanId}
    (isToken : span ∈ line.tokens) :
    Nonempty (PlacedToken arena text lines span) := by
  obtain ⟨number, onLine⟩ := List.getElem?_of_mem isLine
  obtain ⟨known, _⟩ := List.getElem?_eq_some_iff.mp onLine
  have stands := List.getElem?_eq_getElem (kept.keeps.length ▸ known)
  obtain ⟨_, _, _, recorded⟩ := (kept.keeps.line stands onLine).tokens
  obtain ⟨token, found, _⟩ := recorded span isToken
  exact ⟨number, line, token, onLine, isToken, found⟩

/-- The columns of a token are those of its text behind the beginning of its line. -/
structure StandsBehind
    (token : Token)
    (head : List Char) :
    Prop where
  begins : token.column.toNat = Text.byteLength head
  ends : token.endColumn = Text.byteLength (head ++ token.text.toList)
  nonempty : token.text.toList ≠ []

namespace PlacedToken

variable {arena : Arena} {source : SourceId} {place : Nat} {text : String}
  {lines : List LexedLine} {span left right : SpanId}

/-- The physical line of a placed token is kept, and has columns. -/
theorem physicalLine
    (kept : arena.KeepsSource source place text lines)
    (placed : PlacedToken arena text lines span) :
    ∃ line,
      (physicalLines text.toList)[placed.number]? = some line ∧
        arena.KeepsLine source (place + placed.number) line placed.line ∧
          Text.byteLength line < UInt32.size ∧
            line ≠ [] := by
  obtain ⟨known, _⟩ := List.getElem?_eq_some_iff.mp placed.onLine
  have stands := List.getElem?_eq_getElem (kept.keeps.length ▸ known)
  have member := List.mem_of_getElem? stands
  exact ⟨_, stands, kept.keeps.line stands placed.onLine, kept.short _ member,
    LineLexer.ne_nil_of_mem_physicalLines member⟩

theorem standsBehind
    (kept : arena.KeepsSource source place text lines)
    (placed : PlacedToken arena text lines span) :
    ∃ head tail,
      (physicalLines text.toList)[placed.number]? =
          some (head ++ (placed.token.text.toList ++ tail)) ∧
        placed.token.line = placed.line.line ∧
          StandsBehind placed.token head := by
  obtain ⟨line, stands, keeps, short, nonempty⟩ := placed.physicalLine kept
  obtain ⟨lexemes, tiles, measured⟩ := keeps.measures short nonempty
  obtain ⟨lexeme, member, records, measures, solid⟩ :=
    measured span placed.ofLine placed.token placed.found
  obtain ⟨head, tail, rfl, column⟩ := tiles.place lexeme member
  have tokenText : placed.token.text.toList = lexeme.text := by
    rw [records.text, String.toList_ofList]
  rw [Nat.zero_add] at column
  refine ⟨head, tail, tokenText ▸ stands, records.line, ?_, ?_, tokenText ▸ solid⟩
  · exact measures.column.trans column
  · rw [Token.endColumn, measures.column, measures.length, column, tokenText,
      Text.byteLength_append]

/-- A token that begins before another one of its line ends before that. -/
theorem endColumn_le
    (kept : arena.KeepsSource source place text lines)
    (first : PlacedToken arena text lines left)
    (last : PlacedToken arena text lines right)
    (sameLine : first.number = last.number)
    (before : first.token.column.toNat < last.token.column.toNat) :
    first.token.endColumn ≤ last.token.column.toNat := by
  obtain ⟨line, stands, keeps, short, nonempty⟩ := first.physicalLine kept
  obtain ⟨lexemes, tiles, measured⟩ := keeps.measures short nonempty
  have same : first.line = last.line := by
    have onLine := first.onLine
    rw [sameLine, last.onLine] at onLine
    exact (Option.some.inj onLine).symm
  obtain ⟨lexeme, member, _, measures, _⟩ :=
    measured left first.ofLine first.token first.found
  obtain ⟨other, otherMember, _, otherMeasures, _⟩ :=
    measured right (same ▸ last.ofLine) last.token last.found
  have begins := measures.column
  have otherBegins := otherMeasures.column
  have ends : first.token.endColumn = lexeme.endColumn := by
    rw [Token.endColumn, Lexeme.endColumn, begins, measures.length]
  rcases tiles.apart member otherMember with same | before' | after
  · rw [same] at begins
    omega
  · omega
  · rw [Lexeme.endColumn] at after
    omega

/-- A token does not begin on a later line than one that it does not begin after. -/
theorem number_le
    (kept : arena.KeepsSource source place text lines)
    (first : PlacedToken arena text lines left)
    (last : PlacedToken arena text lines right)
    (before : first.start ≤ last.start) :
    first.number ≤ last.number := by
  refine Nat.le_of_not_lt fun inverted => ?_
  obtain ⟨head, tail, stands, _, lastAt⟩ := last.standsBehind kept
  -- the last token has text, so it begins before the end of its line
  have bound := lineStart_add_le stands inverted
  have positive := Text.byteLength_pos lastAt.nonempty
  have begins := lastAt.begins
  simp only [Text.byteLength_append] at bound
  unfold start at before
  omega

end PlacedToken

/-- The lines between two lines of a kept source are those of its text. -/
theorem KeepsLines.linesWithin
    {arena : Arena}
    {source : SourceId}
    {place : Nat}
    {texts : List (List Char)}
    {lines : List LexedLine}
    (keeps : arena.KeepsLines source place texts lines)
    {firstLine lastLine : LineId}
    {first last : Nat}
    (firstPlace : firstLine.index = place + first)
    (lastPlace : lastLine.index = place + last)
    (known : last < texts.length) :
    (arena.linesWithin firstLine lastLine).map (·.text.toList) =
      (texts.take last).drop (first + 1) := by
  refine List.ext_getElem? fun inner => ?_
  simp only [Arena.linesWithin, List.getElem?_map, List.getElem?_drop, List.getElem?_take,
    firstPlace, lastPlace]
  by_cases inside : first + 1 + inner < last
  · have bounded : first + 1 + inner < texts.length := Nat.lt_trans inside known
    have textStands := List.getElem?_eq_getElem bounded
    have lineStands := List.getElem?_eq_getElem (keeps.length.symm ▸ bounded)
    have line := keeps.line textStands lineStands
    obtain ⟨number, found⟩ := line.record
    have stands := line_ok_iff.mp found
    rw [line.index] at stands
    have shifted : place + first + 1 + inner = place + (first + 1 + inner) := by
      omega
    rw [if_pos (by omega), if_pos inside, shifted, Array.getElem?_toList, stands, textStands,
      Option.map_some, String.toList_ofList]
  · rw [if_neg (by omega), if_neg inside, Option.map_none]

namespace Excerpt

variable {arena : Arena} {source : SourceId} {place : Nat} {text : String}
  {lines : List LexedLine} {left right : SpanId}

/-- The ends of an excerpt stand on two lines of a text that is kept from a place on. -/
structure EndsIn
    (excerpt : arena.Excerpt left right)
    (place : Nat)
    (texts : List (List Char))
    (first last : Nat) :
    Prop where
  firstPlace : excerpt.firstLine.line.index = place + first
  lastPlace : excerpt.lastLine.line.index = place + last
  firstText : texts[first]? = some excerpt.firstLine.text.toList
  lastText : texts[last]? = some excerpt.lastLine.text.toList

/-- The text between two columns is what stands between them in the whole text. -/
theorem textOver_eq
    (excerpt : arena.Excerpt left right)
    {texts : List (List Char)}
    {first last : Nat}
    (keeps : arena.KeepsLines source place texts lines)
    (endsIn : excerpt.EndsIn place texts first last)
    {head tail otherHead otherTail : List Char}
    (firstText : texts[first]? = some (head ++ tail))
    (lastText : texts[last]? = some (otherHead ++ otherTail))
    (inOrder : first < last ∨
      first = last ∧ Text.byteLength head ≤ Text.byteLength otherHead) :
    ∃ characters behind,
      texts.flatten = ((texts.take first).flatten ++ head) ++ (characters ++ behind) ∧
        lineStart texts last + Text.byteLength otherHead =
            Text.byteLength ((texts.take first).flatten ++ head) + Text.byteLength characters ∧
          excerpt.textOver excerpt.inner (Text.byteLength head) (Text.byteLength otherHead) =
            .ok characters := by
  have firstWhole : excerpt.firstLine.text.toList = head ++ tail :=
    Option.some.inj (endsIn.firstText.symm.trans firstText)
  have lastWhole : excerpt.lastLine.text.toList = otherHead ++ otherTail :=
    Option.some.inj (endsIn.lastText.symm.trans lastText)
  -- over several lines three parts are joined; within one line it is cut on both sides
  rcases inOrder with before | ⟨rfl, shorter⟩
  · have apart : ¬ excerpt.firstLine.line = excerpt.lastLine.line := by
      intro same
      have samePlace := congrArg LineId.index same
      rw [endsIn.firstPlace, endsIn.lastPlace] at samePlace
      omega
    have between := keeps.linesWithin endsIn.firstPlace endsIn.lastPlace
      (List.getElem?_eq_some_iff.mp lastText).1
    have inner :
        joined excerpt.inner = ((texts.take last).drop (first + 1)).flatten :=
      List.flatMap_def.trans (congrArg List.flatten between)
    refine ⟨_, _, flatten_across firstText lastText before, ?_, ?_⟩
    · rw [lineStart, flatten_take_at firstText before]
      simp only [Text.byteLength_append]
      omega
    · rw [textOver, if_neg apart, SourceLine.sliceFrom, firstWhole, Text.dropBytes?_append,
        SourceLine.sliceTo, lastWhole, Text.takeBytes?_append, inner]
      rfl
  · have same : excerpt.firstLine.line = excerpt.lastLine.line :=
      eq_of_index_eq (endsIn.firstPlace.trans endsIn.lastPlace.symm)
    obtain ⟨inner, rfl, rfl⟩ := Text.append_of_byteLength_le
      (Option.some.inj (firstText.symm.trans lastText)) shorter
    refine ⟨inner, _, flatten_within firstText, ?_, ?_⟩
    · rw [lineStart, Text.byteLength_append, Text.byteLength_append, Nat.add_assoc]
    · rw [textOver, if_pos same, SourceLine.sliceBetween, firstWhole, Text.byteLength_append,
        Text.sliceBytes?_append]

end Excerpt

namespace PlacedToken

variable {arena : Arena} {source : SourceId} {place : Nat} {text : String}
  {lines : List LexedLine} {left right : SpanId}

/-- Two tokens in order are the ends of an excerpt of their source's text. -/
theorem excerpt
    (kept : arena.KeepsSource source place text lines)
    (first : PlacedToken arena text lines left)
    (last : PlacedToken arena text lines right)
    (inOrder : first.number ≤ last.number) :
    ∃ excerpt : arena.Excerpt left right,
      excerpt.first = first.token ∧
        excerpt.last = last.token ∧
          excerpt.EndsIn place (physicalLines text.toList) first.number last.number := by
  obtain ⟨line, stands, keeps, _, _⟩ := first.physicalLine kept
  obtain ⟨_, _, _, onLine, _⟩ := first.standsBehind kept
  obtain ⟨number, record⟩ := keeps.record
  obtain ⟨otherLine, otherStands, otherKeeps, _, _⟩ := last.physicalLine kept
  obtain ⟨_, _, _, otherOnLine, _⟩ := last.standsBehind kept
  obtain ⟨otherNumber, otherRecord⟩ := otherKeeps.record
  refine ⟨
    { first := first.token
      last := last.token
      firstLine := ⟨first.line.line, number, String.ofList line, source⟩
      lastLine := ⟨last.line.line, otherNumber, String.ofList otherLine, source⟩
      firstFound := first.found
      lastFound := last.found
      firstLineFound := onLine ▸ record
      lastLineFound := otherOnLine ▸ otherRecord
      oneSource := rfl
      inOrder := ?_ }, rfl, rfl, keeps.index, otherKeeps.index, ?_, ?_⟩
  · change first.line.line.index ≤ last.line.line.index
    rw [keeps.index, otherKeeps.index]
    exact Nat.add_le_add_left inOrder place
  · rw [stands, String.toList_ofList]
  · rw [otherStands, String.toList_ofList]

/-- The snippet from one token through another one is the part of the text that they enclose. -/
theorem snippet_eq
    (kept : arena.KeepsSource source place text lines)
    (inWindow : ∀ line ∈ lines, line.line ∈ arena.active)
    (first : PlacedToken arena text lines left)
    (last : PlacedToken arena text lines right)
    (before : first.start ≤ last.start) :
    ∃ characters,
      Text.sliceBytes? text.toList first.start last.finish = some characters ∧
        arena.snippet left right = .ok (String.ofList characters) := by
  have inOrder := first.number_le kept last before
  obtain ⟨excerpt, firstToken, lastToken, endsIn⟩ := first.excerpt kept last inOrder
  obtain ⟨head, tail, stands, onLine, firstAt⟩ := first.standsBehind kept
  obtain ⟨otherHead, otherTail, otherStands, otherOnLine, lastAt⟩ :=
    last.standsBehind kept
  rw [← List.append_assoc] at otherStands
  have columns :
      first.number < last.number ∨
        first.number = last.number ∧
          Text.byteLength head ≤ Text.byteLength (otherHead ++ last.token.text.toList) := by
    refine (Nat.lt_or_eq_of_le inOrder).imp_right fun same => ⟨same, ?_⟩
    rw [start, start, same, firstAt.begins, lastAt.begins] at before
    rw [Text.byteLength_append]
    omega
  obtain ⟨characters, behind, whole, length, taken⟩ :=
    excerpt.textOver_eq kept.keeps endsIn stands otherStands columns
  rw [LineLexer.flatten_physicalLines] at whole
  refine ⟨characters, Text.sliceBytes?_eq whole ?_ ?_, ?_⟩
  · rw [start, firstAt.begins, lineStart, Text.byteLength_append]
  · rw [finish, lastAt.ends, length]
  · have inOrder : first.line.line.index ≤ last.line.line.index := by
      rw [(kept.keeps.line stands first.onLine).index,
        (kept.keeps.line otherStands last.onLine).index]
      exact Nat.add_le_add_left inOrder place
    obtain ⟨block, found⟩ :=
      windowBetween_succeeds kept.wellFormed.window_increasing
        (inWindow _ (List.mem_of_getElem? first.onLine))
        (inWindow _ (List.mem_of_getElem? last.onLine)) inOrder
    rw [← onLine, ← otherOnLine, ← firstToken, ← lastToken] at found
    rw [excerpt.snippet_eq kept.wellFormed found, Excerpt.snippetOver, firstToken, lastToken,
      firstAt.begins, lastAt.ends, taken]
    rfl

/--
The code strictly between two tokens is the text between them, behind as many
spaces as there are bytes up to it on its first line. With these it stands at its
own columns, unless the first token ends with the newline of the line.
-/
theorem codeBetween_eq
    (kept : arena.KeepsSource source place text lines)
    (first : PlacedToken arena text lines left)
    (last : PlacedToken arena text lines right)
    (before : first.start < last.start) :
    ∃ characters,
      Text.sliceBytes? text.toList first.finish last.start = some characters ∧
        arena.codeBetween left right =
            .ok (String.ofList (List.replicate first.token.endColumn ' ' ++ characters)) ∧
          (Text.StandsAtColumns text.toList first.finish first.token.endColumn characters ↔
            characters = [] ∨ first.token.text.toList.getLast? ≠ some '\n') := by
  have inOrder := first.number_le kept last (Nat.le_of_lt before)
  obtain ⟨excerpt, firstToken, lastToken, endsIn⟩ := first.excerpt kept last inOrder
  obtain ⟨head, tail, stands, _, firstAt⟩ := first.standsBehind kept
  obtain ⟨otherHead, otherTail, otherStands, _, lastAt⟩ := last.standsBehind kept
  have columns :
      first.number < last.number ∨
        first.number = last.number ∧
          Text.byteLength (head ++ first.token.text.toList) ≤ Text.byteLength otherHead := by
    refine (Nat.lt_or_eq_of_le inOrder).imp_right fun same => ⟨same, ?_⟩
    rw [start, start, same] at before
    rw [← firstAt.ends, ← lastAt.begins]
    exact first.endColumn_le kept last same (Nat.lt_of_add_lt_add_left before)
  have behindFirst := stands
  rw [← List.append_assoc] at behindFirst
  obtain ⟨characters, behind, whole, length, taken⟩ :=
    excerpt.textOver_eq kept.keeps endsIn behindFirst otherStands columns
  rw [LineLexer.flatten_physicalLines] at whole
  have finishes :
      first.finish =
        Text.byteLength
          (((physicalLines text.toList).take first.number).flatten ++
            (head ++ first.token.text.toList)) := by
    rw [finish, lineStart, firstAt.ends, ← Text.byteLength_append]
  refine ⟨characters, Text.sliceBytes?_eq whole finishes ?_, ?_, ?_⟩
  · rw [start, lastAt.begins, length]
  · rw [excerpt.codeBetween_eq kept.wellFormed, Excerpt.codeOver, firstToken, lastToken,
      firstAt.ends, lastAt.begins, taken]
    rfl
  · -- the spaces are right for the first character if they are as many as its column
    have aligned := Text.standsAtColumns_iff
      (((physicalLines text.toList).take first.number).flatten ++
        (head ++ first.token.text.toList)) characters behind first.token.endColumn
    have column := (LineLexer.physical_physicalLines text.toList).columnAfter stands
      firstAt.nonempty
    have positive : 0 < first.token.endColumn := by
      have solid := Text.byteLength_pos firstAt.nonempty
      rw [firstAt.ends, Text.byteLength_append]
      omega
    rw [← whole, ← finishes, column, ← firstAt.ends] at aligned
    rw [aligned]
    refine or_congr_right ?_
    split
    next atEnd => simp [atEnd, Nat.ne_of_lt positive]
    next inside => simp [inside]

end PlacedToken

/--
Of two tokens of a lexed source the text from one through the other can be taken
back until the window is emptied, and the code between them for good. Both are
parts of the source's text. Every character of the code stands at its own column
exactly if there is none, or the first token does not end its line.
-/
theorem lexed_source_is_taken_verbatim
    {lexer next : LineLexer}
    {arena after : Arena}
    {provenance : Provenance}
    {text : String}
    {lines : List LexedLine}
    (reachable : arena.Reachable)
    (lexed : lexer.lexSource arena provenance text = (.ok lines, next, after))
    (short : ∀ line ∈ physicalLines text.toList, Text.byteLength line < UInt32.size) :
    (∀ line ∈ lines, ∀ span ∈ line.tokens, Nonempty (PlacedToken after text lines span)) ∧
      ∀ {left right : SpanId}
        (first : PlacedToken after text lines left)
        (last : PlacedToken after text lines right)
        (operations : List Operation),
        (first.start ≤ last.start →
          after.KeepsWindow operations →
          ∃ characters,
            Text.sliceBytes? text.toList first.start last.finish = some characters ∧
              (after.attemptAll operations).snippet left right =
                .ok (String.ofList characters)) ∧
          (first.start < last.start →
            ∃ characters,
              Text.sliceBytes? text.toList first.finish last.start = some characters ∧
                (after.attemptAll operations).codeBetween left right =
                    .ok (String.ofList
                      (List.replicate first.token.endColumn ' ' ++ characters)) ∧
                  (Text.StandsAtColumns text.toList first.finish first.token.endColumn
                      characters ↔
                    characters = [] ∨ first.token.text.toList.getLast? ≠ some '\n')) := by
  have stillReachable := LineLexer.lexSource_reachable reachable lexer provenance text
  rw [lexed] at stillReachable
  have wellFormed := stillReachable.wellFormed
  obtain ⟨source, place, keeps, inWindow⟩ := LineLexer.lexSource_keeps lexed
  have kept : after.KeepsSource source place text lines := ⟨wellFormed, keeps, short⟩
  refine ⟨fun line isLine span isToken => kept.exists_placed isLine isToken, ?_⟩
  intro left right first last operations
  have extended := Extends.attemptAll after operations
  have stillKept : (after.attemptAll operations).KeepsSource source place text lines :=
    ⟨wellFormed.attemptAll operations, keeps.later extended, short⟩
  constructor
  · intro inOrder keepsWindow
    have window := attemptAll_window keepsWindow
    exact (first.later extended).snippet_eq stillKept
      (fun line isLine => window.subset (inWindow line isLine)) (last.later extended) inOrder
  · intro inOrder
    exact (first.later extended).codeBetween_eq stillKept (last.later extended) inOrder

/-- What lexing a text alone yields. -/
def lexedAlone
    (text : String) :
    List LexedLine × LineLexer × Arena :=
  let (result, lexed) := LineLexer.start.lexSource .empty .interactive text
  (result.toOption.getD [], lexed)

theorem lexedAlone_ok
    {text : String}
    (succeeds : (LineLexer.start.lexSource .empty .interactive text).1.toOption.isSome = true) :
    LineLexer.start.lexSource .empty .interactive text =
      (.ok (lexedAlone text).1, (lexedAlone text).2) := by
  obtain ⟨lines, accepted⟩ := Option.isSome_iff_exists.mp succeeds
  refine Prod.ext ?_ rfl
  dsimp only [lexedAlone]
  rw [ok_of_toOption accepted]
  rfl

/-- A quoted argument on two lines. -/
def quotedArgument : String :=
  "a \"\u00e9\n 2\" b\n"

theorem quotedArgument_is_taken_verbatim :
    LineLexer.start.lexSource .empty .interactive quotedArgument =
        (.ok (lexedAlone quotedArgument).1, (lexedAlone quotedArgument).2) ∧
      (lexedAlone quotedArgument).2.2.snippet ⟨0⟩ ⟨3⟩ = .ok "a \"\u00e9\n 2\" b" ∧
        ((lexedAlone quotedArgument).2.2.attemptAll [.discard]).codeBetween ⟨0⟩ ⟨3⟩ =
          .ok "  \"\u00e9\n 2\" " := by
  have lexed := @lexedAlone_ok quotedArgument (by decide +kernel)
  let first : PlacedToken (lexedAlone quotedArgument).2.2 quotedArgument
      (lexedAlone quotedArgument).1 ⟨0⟩ :=
    { number := 0
      line := ⟨⟨0⟩, [⟨0⟩, ⟨1⟩]⟩
      token := ⟨.word, 0, 1, ⟨0⟩, ⟨0⟩, "a"⟩
      onLine := by decide +kernel
      ofLine := by decide
      found := ok_of_toOption (by decide +kernel) }
  let last : PlacedToken (lexedAlone quotedArgument).2.2 quotedArgument
      (lexedAlone quotedArgument).1 ⟨3⟩ :=
    { number := 1
      line := ⟨⟨1⟩, [⟨2⟩, ⟨3⟩, ⟨4⟩]⟩
      token := ⟨.word, 4, 1, ⟨1⟩, ⟨3⟩, "b"⟩
      onLine := by decide +kernel
      ofLine := by decide
      found := ok_of_toOption (by decide +kernel) }
  have taken := (lexed_source_is_taken_verbatim .empty lexed (by decide +kernel)).2 first last
  obtain ⟨characters, part, snippet⟩ := (taken []).1 (by decide +kernel) trivial
  obtain ⟨between, inside, code, _⟩ := (taken [.discard]).2 (by decide +kernel)
  obtain rfl : "a \"\u00e9\n 2\" b".toList = characters :=
    Option.some.inj (Eq.trans (by decide +kernel) part)
  obtain rfl : " \"\u00e9\n 2\" ".toList = between :=
    Option.some.inj (Eq.trans (by decide +kernel) inside)
  refine ⟨lexed, snippet.trans ?_, code.trans ?_⟩
  · rw [String.ofList_toList]
  · exact congrArg Except.ok (by decide +kernel)

/-- A block whose code begins on the line behind its brace. -/
def indentedBlock : String :=
  "\x7b\n  b\n\x7d\n"

/-- Behind the newline of the first line the spaces are put in front of the next one. -/
theorem code_behind_newline_is_shifted :
    LineLexer.start.lexSource .empty .interactive indentedBlock =
        (.ok (lexedAlone indentedBlock).1, (lexedAlone indentedBlock).2) ∧
      ∃ (first : PlacedToken (lexedAlone indentedBlock).2.2 indentedBlock
            (lexedAlone indentedBlock).1 ⟨1⟩)
          (last : PlacedToken (lexedAlone indentedBlock).2.2 indentedBlock
            (lexedAlone indentedBlock).1 ⟨4⟩),
        first.start < last.start ∧
          Text.sliceBytes? indentedBlock.toList first.finish last.start =
              some "  b\n".toList ∧
            (lexedAlone indentedBlock).2.2.codeBetween ⟨1⟩ ⟨4⟩ = .ok "    b\n" ∧
              ¬ Text.StandsAtColumns indentedBlock.toList first.finish
                first.token.endColumn "  b\n".toList := by
  refine ⟨lexedAlone_ok (by decide +kernel),
    ⟨0, ⟨⟨0⟩, [⟨0⟩, ⟨1⟩]⟩, ⟨.newline, 1, 1, ⟨0⟩, ⟨1⟩, "\n"⟩, by decide +kernel, by decide,
      ok_of_toOption (by decide +kernel)⟩,
    ⟨2, ⟨⟨2⟩, [⟨4⟩, ⟨5⟩]⟩, ⟨.rightBrace, 0, 1, ⟨2⟩, ⟨4⟩, "\x7d"⟩, by decide +kernel, by decide,
      ok_of_toOption (by decide +kernel)⟩,
    by decide +kernel, by decide +kernel, ok_of_toOption (by decide +kernel), ?_⟩
  intro aligned
  have atFirst := aligned [] ' ' " b\n".toList (by decide +kernel)
  exact absurd atFirst (by decide +kernel)

end ShellCore.Arena
