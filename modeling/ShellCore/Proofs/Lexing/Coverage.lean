import Mathlib.Data.List.Forall2
import ShellCore.Proofs.Lexing.Tiling
import ShellCore.Proofs.Source.Handles

namespace ShellCore

/-!
# Lexing loses nothing

The tokens that a line adds to the arena record the lexemes of the line, in
order, and the lexemes tile the line.
-/

/-- A token records a lexeme of a line; columns and lengths are kept as words of 32 bits. -/
structure Token.Records
    (line : LineId)
    (token : Token)
    (lexeme : Lexeme) :
    Prop where
  kind : token.kind = lexeme.kind
  column : token.column = UInt32.ofNat lexeme.column
  length : token.length = UInt32.ofNat (Text.byteLength lexeme.text)
  line : token.line = line
  text : token.text = String.ofList lexeme.text

/-- The column and the length of a token are those of a lexeme. -/
structure Token.Measures
    (token : Token)
    (lexeme : Lexeme) :
    Prop where
  column : token.column.toNat = lexeme.column
  length : token.length.toNat = Text.byteLength lexeme.text

/-- A lexeme that ends at a column of 32 bits is measured by the token that records it. -/
theorem Token.Records.measures
    {line : LineId}
    {token : Token}
    {lexeme : Lexeme}
    (records : token.Records line lexeme)
    (fits : lexeme.endColumn < UInt32.size) :
    token.Measures lexeme := by
  rw [Lexeme.endColumn] at fits
  constructor
  · rw [records.column, UInt32.toNat_ofNat_of_lt' (by omega)]
  · rw [records.length, UInt32.toNat_ofNat_of_lt' (by omega)]

namespace LineLexer

/-- Every lexeme is recorded by a new token, which is found by its handle. -/
theorem addTokens_ok
    {line : LineId}
    {lexemes : List Lexeme}
    {arena after : Arena}
    {spans : List SpanId}
    (added : addTokens arena line lexemes = (.ok spans, after)) :
    ∃ tokens,
      spans = tokens.map Token.span ∧
        after.lines = arena.lines ∧
          after.tokens.toList = arena.tokens.toList ++ tokens ∧
            (∀ token ∈ tokens, after.token token.span = .ok token) ∧
              List.Forall₂ (Token.Records line) tokens lexemes := by
  induction lexemes generalizing arena spans with
  | nil =>
      cases added
      exact ⟨[], rfl, rfl, (List.append_nil _).symm, by simp, .nil⟩
  | cons lexeme rest inductionHypothesis =>
      rw [addTokens] at added
      split at added
      · cases added
      next span between first =>
        split at added
        · cases added
        next spans last later =>
          cases added
          obtain ⟨place, bounded, sameLines, pushed⟩ := Arena.addToken_ok first
          obtain ⟨tokens, rfl, keptLines, table, found, records⟩ := inductionHypothesis later
          rw [pushed, Array.toList_push, List.append_assoc, List.singleton_append] at table
          refine ⟨_ :: tokens, rfl, keptLines.trans sameLines, table, ?_, ?_⟩
          · intro token member
            rcases List.mem_cons.mp member with rfl | member
            · exact Arena.token_of_place bounded place table
            · exact found token member
          · exact .cons ⟨rfl, rfl, rfl, rfl, rfl⟩ records

theorem addTokens_succeeds
    {line : LineId}
    {lexemes : List Lexeme}
    {arena : Arena}
    (known : line.index < arena.lines.size)
    (fits : ∀ lexeme ∈ lexemes, lexeme.endColumn < UInt32.size)
    (room : arena.tokens.size + lexemes.length ≤ SpanId.none.index) :
    ∃ spans after, addTokens arena line lexemes = (.ok spans, after) := by
  induction lexemes generalizing arena with
  | nil => exact ⟨[], arena, rfl⟩
  | cons lexeme rest inductionHypothesis =>
      rw [List.length_cons] at room
      have bounded := fits lexeme List.mem_cons_self
      rw [Lexeme.endColumn] at bounded
      have columns :
          (UInt32.ofNat lexeme.column).toNat +
              (UInt32.ofNat (Text.byteLength lexeme.text)).toNat <
            UInt32.size := by
        rwa [UInt32.toNat_ofNat_of_lt' (by omega), UInt32.toNat_ofNat_of_lt' (by omega)]
      have tokenRoom : arena.tokens.size < SpanId.none.index := by
        omega
      obtain ⟨span, between, first⟩ :=
        Arena.addToken_succeeds known columns tokenRoom lexeme.kind (String.ofList lexeme.text)
      obtain ⟨_, _, sameLines, pushed⟩ := Arena.addToken_ok first
      have stillKnown : line.index < between.lines.size := sameLines ▸ known
      have stillRoom : between.tokens.size + rest.length ≤ SpanId.none.index := by
        rw [pushed, Array.size_push]
        omega
      obtain ⟨spans, after, later⟩ :=
        inductionHypothesis stillKnown
          (fun later member => fits later (List.mem_cons_of_mem lexeme member)) stillRoom
      refine ⟨span :: spans, after, ?_⟩
      rw [addTokens, first]
      dsimp only
      rw [later]

/-- A line can be lexed while a source is open and there are handles for each of its bytes. -/
theorem feedLine_succeeds
    {arena : Arena}
    {source : SourceId}
    (lexer : LineLexer)
    (isOpen : arena.currentSource? = some source)
    (lineRoom : arena.lines.size < SpanId.none.index)
    (text : String)
    (tokenRoom : arena.tokens.size + Text.byteLength text.toList < SpanId.none.index)
    (number : Nat) :
    ∃ lexed next after, lexer.feedLine arena text number = (.ok lexed, next, after) := by
  obtain ⟨line, between, added, known, noTokens⟩ :=
    Arena.addLine_succeeds isOpen lineRoom text (UInt32.ofNat number)
  have short : Text.byteLength text.toList < UInt32.size :=
    Nat.lt_trans (by omega : _ < SpanId.none.index) (by decide)
  have tiles := lexer.tiles_scan text.toList
  have fits : ∀ lexeme ∈ (lexer.scan text.toList).1, lexeme.endColumn < UInt32.size :=
    fun lexeme member => Nat.lt_of_le_of_lt (tiles.endColumn_le lexeme member) short
  have enough :
      between.tokens.size + (lexer.scan text.toList).1.length ≤ SpanId.none.index := by
    have counted := lexer.length_scan_le text.toList
    rw [noTokens]
    omega
  obtain ⟨spans, after, tokenized⟩ := addTokens_succeeds known fits enough
  rw [feedLine, added]
  dsimp only
  rw [tokenized]
  exact ⟨_, _, _, rfl⟩

/-- A line can be fed to a new lexer whose source was just opened. -/
theorem feedLine_start_succeeds
    (text : String)
    (room : Text.byteLength text.toList < SpanId.none.index) :
    ∃ lexed next after,
      start.feedLine (Arena.empty.openSource .interactive).2 text 1 =
        (.ok lexed, next, after) := by
  refine feedLine_succeeds .start
    (rfl : (Arena.empty.openSource .interactive).2.currentSource? = some ⟨0⟩)
    (by decide) text ?_ 1
  change 0 + Text.byteLength text.toList < _
  omega

/-- On a line whose columns are words of 32 bits, what records its lexemes measures them. -/
theorem records_measures
    {line : LineId}
    {tokens : List Token}
    {lexemes : List Lexeme}
    (bounded : ∀ lexeme ∈ lexemes, lexeme.endColumn < UInt32.size)
    (records : List.Forall₂ (Token.Records line) tokens lexemes) :
    List.Forall₂ Token.Measures tokens lexemes := by
  induction records with
  | nil => exact .nil
  | @cons token lexeme tokens lexemes records later inductionHypothesis =>
      exact .cons (records.measures (bounded lexeme List.mem_cons_self))
        (inductionHypothesis fun later member =>
          bounded later (List.mem_cons_of_mem lexeme member))

/-- An arena holds a line and tokens that record lexemes of it, in order. -/
structure HoldsLexemes
    (arena : Arena)
    (lexed : LexedLine)
    (text : String)
    (tokens : List Token)
    (lexemes : List Lexeme) :
    Prop where
  line : arena.lineText lexed.line = .ok text
  spans : lexed.tokens = tokens.map Token.span
  found : ∀ token ∈ tokens, arena.token token.span = .ok token
  records : List.Forall₂ (Token.Records lexed.line) tokens lexemes
  measures : Text.byteLength text.toList < UInt32.size →
    List.Forall₂ Token.Measures tokens lexemes

/-- A line that is added holds the lexemes that are then added as its tokens. -/
theorem exists_holds
    {lexer : LineLexer}
    {arena between after : Arena}
    {text : String}
    {number : UInt32}
    {line : LineId}
    {lexemes : List Lexeme}
    {spans : List SpanId}
    (added : arena.addLine text number = (.ok line, between))
    (leading : lexemes <+: (lexer.scan text.toList).1)
    (tokenized : addTokens between line lexemes = (.ok spans, after)) :
    ∃ tokens,
      HoldsLexemes after ⟨line, spans⟩ text tokens lexemes ∧
        after.tokens.toList = arena.tokens.toList ++ tokens := by
  obtain ⟨registered, noTokens⟩ := Arena.addLine_ok added
  obtain ⟨tokens, rfl, sameLines, table, found, records⟩ := addTokens_ok tokenized
  rw [noTokens] at table
  refine ⟨tokens, ⟨?_, rfl, found, records, fun short => records_measures ?_ records⟩, table⟩
  · simpa only [Arena.lineText, Arena.line, sameLines] using registered
  · intro lexeme member
    have tiles := lexer.tiles_scan text.toList
    exact Nat.lt_of_le_of_lt (tiles.endColumn_le lexeme (leading.subset member)) short

/-- After a line the arena holds its lexemes, and the lexer is the one that the scan leaves. -/
theorem feedLine_accepted
    {lexer next : LineLexer}
    {arena after : Arena}
    {text : String}
    {number : Nat}
    {lexed : LexedLine}
    (fed : lexer.feedLine arena text number = (.ok lexed, next, after)) :
    next = (lexer.scan text.toList).2 ∧
      ∃ tokens,
        HoldsLexemes after lexed text tokens (lexer.scan text.toList).1 ∧
          after.tokens.toList = arena.tokens.toList ++ tokens := by
  unfold feedLine at fed
  split at fed
  · cases fed
  next line between added =>
    dsimp only at fed
    split at fed
    · cases fed
    next spans last tokenized =>
      cases fed
      exact ⟨rfl, exists_holds added List.prefix_rfl tokenized⟩

end LineLexer

end ShellCore
