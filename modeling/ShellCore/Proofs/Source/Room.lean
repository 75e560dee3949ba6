import ShellCore.Proofs.Source.LineRecord

namespace ShellCore

/-!
# Room in an arena

Lines and tokens are only refused for want of a source, of handles or of columns. So
what is accepted by an arena is accepted by one that holds less, and a text that is
shorter than what is left of the handles is accepted.
-/

namespace Arena

/-- No table of lines or tokens is longer than that of the other arena. -/
structure Smaller (other arena : Arena) : Prop where
  lines : other.lines.size ≤ arena.lines.size
  tokens : other.tokens.size ≤ arena.tokens.size

variable {arena after other : Arena}

/-- There are handles for some lines, and for each of their bytes and one more a line. -/
structure HasRoom
    (arena : Arena)
    (lineCount byteCount : Nat) :
    Prop where
  lines : arena.lines.size + lineCount ≤ SpanId.none.index
  tokens : arena.tokens.size + byteCount + lineCount ≤ SpanId.none.index

namespace Smaller

theorem refl
    (arena : Arena) :
    Smaller arena arena :=
  ⟨Nat.le_refl _, Nat.le_refl _⟩

theorem trans
    (first : other.Smaller arena)
    (second : arena.Smaller after) :
    other.Smaller after :=
  ⟨Nat.le_trans first.lines second.lines, Nat.le_trans first.tokens second.tokens⟩

/-- Tables that only grew were smaller before. -/
theorem of_extends
    (extended : after.Extends arena) :
    arena.Smaller after :=
  ⟨extended.lines.length_le, extended.tokens.length_le⟩

end Smaller

theorem nextHandle_smaller
    {size otherSize : Nat}
    {handle : UInt32}
    (atMost : otherSize ≤ size)
    (given : nextHandle size = .ok handle) :
    nextHandle otherSize = .ok (UInt32.ofNat otherSize) :=
  if_pos (Nat.lt_of_le_of_lt atMost (nextHandle_ok given).2)

/-- A token that is accepted is accepted for a known line of a smaller arena. -/
theorem addToken_smaller
    {kind : TokenKind}
    {column length : UInt32}
    {line otherLine : LineId}
    {text : String}
    {span : SpanId}
    (smaller : other.Smaller arena)
    (known : otherLine.index < other.lines.size)
    (added : arena.addToken kind column length line text = (.ok span, after)) :
    ∃ otherSpan otherAfter,
      other.addToken kind column length otherLine text = (.ok otherSpan, otherAfter) ∧
        otherAfter.Smaller after ∧
          otherAfter.lines = other.lines := by
  unfold addToken at added
  split at added
  · cases added
  next fits =>
    split at added
    · cases added
    next handle given =>
      split at added
      · cases added
        rw [addToken, if_neg fits, nextHandle_smaller smaller.tokens given]
        dsimp only
        rw [if_pos known]
        refine ⟨_, _, rfl, ⟨smaller.lines, ?_⟩, rfl⟩
        simp only [Array.size_push]
        exact Nat.succ_le_succ smaller.tokens
      · cases added

/-- A line that is accepted is accepted by a smaller arena in which a source is open. -/
theorem addLine_smaller
    {source : SourceId}
    {text : String}
    {number : UInt32}
    {line : LineId}
    (smaller : other.Smaller arena)
    (isOpen : other.currentSource? = some source)
    (added : arena.addLine text number = (.ok line, after))
    (otherNumber : UInt32) :
    ∃ otherLine otherAfter,
      other.addLine text otherNumber = (.ok otherLine, otherAfter) ∧
        otherAfter.Smaller after ∧
          otherLine.index < otherAfter.lines.size := by
  unfold addLine at added
  split at added
  · cases added
  · split at added
    · cases added
    next handle given =>
      cases added
      have room := Nat.lt_of_le_of_lt smaller.lines (nextHandle_ok given).2
      have exact : (UInt32.ofNat other.lines.size).toNat = other.lines.size :=
        UInt32.toNat_ofNat_of_lt' (Nat.lt_trans room (by decide))
      rw [addLine, isOpen, nextHandle_smaller smaller.lines given]
      refine ⟨_, _, rfl, ⟨?_, smaller.tokens⟩, ?_⟩
      · simp only [Array.size_push]
        exact Nat.succ_le_succ smaller.lines
      · rw [Array.size_push, LineId.index, exact]
        exact Nat.lt_succ_self _

end Arena

namespace LineLexer

variable {lexer next : LineLexer} {arena after other : Arena} {source : SourceId}

theorem addTokens_smaller
    {line otherLine : LineId}
    {lexemes : List Lexeme}
    {spans : List SpanId}
    (smaller : other.Smaller arena)
    (known : otherLine.index < other.lines.size)
    (added : addTokens arena line lexemes = (.ok spans, after)) :
    ∃ otherSpans otherAfter,
      addTokens other otherLine lexemes = (.ok otherSpans, otherAfter) ∧
        otherAfter.Smaller after := by
  induction lexemes generalizing arena other spans with
  | nil =>
      cases added
      exact ⟨[], other, rfl, smaller⟩
  | cons lexeme rest inductionHypothesis =>
      rw [addTokens] at added
      split at added
      · cases added
      next span between first =>
        split at added
        · cases added
        next spans last others =>
          cases added
          obtain ⟨otherSpan, otherBetween, otherFirst, stillSmaller, sameLines⟩ :=
            Arena.addToken_smaller smaller known first
          have stillKnown : otherLine.index < otherBetween.lines.size := sameLines ▸ known
          obtain ⟨otherSpans, otherAfter, otherOthers, atLast⟩ :=
            inductionHypothesis stillSmaller stillKnown others
          refine ⟨otherSpan :: otherSpans, otherAfter, ?_, atLast⟩
          rw [addTokens, otherFirst]
          dsimp only
          rw [otherOthers]

/-- A line that is accepted is accepted by a smaller arena, whatever its number. -/
theorem feedLine_smaller
    {text : String}
    {number : Nat}
    {lexed : LexedLine}
    (smaller : other.Smaller arena)
    (isOpen : other.currentSource? = some source)
    (fed : lexer.feedLine arena text number = (.ok lexed, next, after))
    (otherNumber : Nat) :
    ∃ otherLexed otherAfter,
      lexer.feedLine other text otherNumber = (.ok otherLexed, next, otherAfter) ∧
        otherAfter.Smaller after := by
  unfold feedLine at fed
  split at fed
  · cases fed
  next line between added =>
    dsimp only at fed
    split at fed
    · cases fed
    next spans last tokenized =>
      cases fed
      obtain ⟨otherLine, otherBetween, otherAdded, stillSmaller, known⟩ :=
        Arena.addLine_smaller smaller isOpen added (UInt32.ofNat otherNumber)
      obtain ⟨otherSpans, otherAfter, otherTokenized, atLast⟩ :=
        addTokens_smaller stillSmaller known tokenized
      refine ⟨⟨otherLine, otherSpans⟩, otherAfter, ?_, atLast⟩
      rw [feedLine, otherAdded]
      dsimp only
      rw [otherTokenized]

/-- Lines that are accepted are accepted by a smaller arena, whatever their numbers. -/
theorem feedLines_smaller
    {number : Nat}
    {texts : List (List Char)}
    {lines : List LexedLine}
    (smaller : other.Smaller arena)
    (isOpen : other.currentSource? = some source)
    (fed : lexer.feedLines arena number texts = (.ok lines, next, after))
    (otherNumber : Nat) :
    ∃ otherLines otherAfter,
      lexer.feedLines other otherNumber texts = (.ok otherLines, next, otherAfter) ∧
        otherAfter.Smaller after := by
  induction texts generalizing lexer arena other number otherNumber lines with
  | nil =>
      cases fed
      exact ⟨[], other, rfl, smaller⟩
  | cons text rest inductionHypothesis =>
      simp only [feedLines] at fed
      split at fed
      · cases fed
      next lexed middle between first =>
        split at fed
        · cases fed
        next others last final remaining =>
          cases fed
          obtain ⟨otherLexed, otherBetween, otherFirst, stillSmaller⟩ :=
            feedLine_smaller smaller isOpen first otherNumber
          have stillOpen : otherBetween.currentSource? = some source :=
            (feedLine_feeds isOpen otherFirst).grows.currentSource?.trans isOpen
          obtain ⟨otherLines, otherAfter, otherRemaining, atLast⟩ :=
            inductionHypothesis stillSmaller stillOpen remaining (otherNumber + 1)
          refine ⟨otherLexed :: otherLines, otherAfter, ?_, atLast⟩
          simp only [feedLines, otherFirst, otherRemaining]

/-- A source that is accepted is accepted by an arena that holds nothing else. -/
theorem lexSource_alone
    {provenance : Provenance}
    {text : String}
    {lines : List LexedLine}
    (lexed : lexer.lexSource arena provenance text = (.ok lines, next, after)) :
    ∃ linesAlone alone,
      lexer.lexSource .empty provenance text = (.ok linesAlone, next, alone) := by
  obtain ⟨filled, fed, rfl⟩ := lexSource_ok_iff.mp lexed
  have smaller :
      (Arena.empty.openSource provenance).2.Smaller (arena.openSource provenance).2 :=
    ⟨Nat.zero_le _, Nat.zero_le _⟩
  obtain ⟨linesAlone, alone, fedAlone, _⟩ := feedLines_smaller smaller rfl fed 1
  exact ⟨linesAlone, alone.closeInnermost, lexSource_ok_iff.mpr ⟨alone, fedAlone, rfl⟩⟩

/-- Lines are accepted while there are handles for each of them and each of their bytes. -/
theorem feedLines_succeeds
    (lexer : LineLexer)
    (isOpen : arena.currentSource? = some source)
    (number : Nat)
    (texts : List (List Char))
    (room : arena.HasRoom texts.length (Text.byteLength texts.flatten)) :
    ∃ lines next after, lexer.feedLines arena number texts = (.ok lines, next, after) := by
  induction texts generalizing lexer arena number with
  | nil => exact ⟨[], lexer, arena, rfl⟩
  | cons text rest inductionHypothesis =>
      obtain ⟨lineRoom, tokenRoom⟩ := room
      rw [List.length_cons] at lineRoom
      rw [List.length_cons, List.flatten_cons, Text.byteLength_append] at tokenRoom
      have same : (String.ofList text).toList = text := String.toList_ofList
      have oneLine : arena.lines.size < SpanId.none.index := by omega
      have oneText :
          arena.tokens.size + Text.byteLength (String.ofList text).toList <
            SpanId.none.index := by
        rw [same]
        omega
      obtain ⟨lexed, middle, between, first⟩ :=
        feedLine_succeeds lexer isOpen oneLine (String.ofList text) oneText number
      have feeds := feedLine_feeds isOpen first
      have counted := lexer.length_scan_le text
      have lineCount := feeds.lineCount
      have tokenCount := feeds.tokenCount
      rw [same] at tokenCount
      obtain ⟨others, next, after, remaining⟩ :=
        inductionHypothesis middle (feeds.grows.currentSource?.trans isOpen) (number + 1)
          ⟨by omega, by omega⟩
      refine ⟨lexed :: others, next, after, ?_⟩
      simp only [feedLines, first, remaining]

/-- A source is accepted while there are handles for each of its lines and each of its bytes. -/
theorem lexSource_succeeds
    (lexer : LineLexer)
    (provenance : Provenance)
    (text : String)
    (room : arena.HasRoom (linesOf text).length (Text.byteLength text.toList)) :
    ∃ lines next after, lexer.lexSource arena provenance text = (.ok lines, next, after) := by
  have isOpen : (arena.openSource provenance).2.currentSource? = some arena.nextSource :=
    rfl
  have enough :
      (arena.openSource provenance).2.HasRoom (physicalLines text.toList).length
        (Text.byteLength (physicalLines text.toList).flatten) := by
    rw [flatten_physicalLines, ← List.length_map]
    exact ⟨room.lines, room.tokens⟩
  obtain ⟨lines, next, after, fed⟩ :=
    feedLines_succeeds lexer isOpen 1 (physicalLines text.toList) enough
  exact ⟨lines, next, after.closeInnermost, lexSource_ok_iff.mpr ⟨after, fed, rfl⟩⟩

end LineLexer

end ShellCore
