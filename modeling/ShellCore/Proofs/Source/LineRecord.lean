import ShellCore.Proofs.Lexing.PhysicalLines
import ShellCore.Proofs.Source.LexedLines

namespace ShellCore

/-!
# Lexed lines whatever their handles

What the lexer makes of a line depends on the open quote and on the text. The arena
only gives it handles, and the source that is innermost. So what an arena shows of
lexed lines is told by a record that has neither.
-/

/-- A token but for its handles. -/
structure TokenRecord where
  kind : TokenKind
  column : UInt32
  length : UInt32
  text : String
  deriving Repr, DecidableEq

/-- A line of a source but for its handles. -/
structure LineRecord where
  /-- The number within the source, counted from one. -/
  number : Nat
  text : String
  tokens : List TokenRecord
  deriving Repr, DecidableEq

/-- What a token is but for its handles. -/
def Token.record
    (token : Token) :
    TokenRecord where
  kind := token.kind
  column := token.column
  length := token.length
  text := token.text

/-- What a lexeme is as a token, but for its handles. -/
def Lexeme.record
    (lexeme : Lexeme) :
    TokenRecord where
  kind := lexeme.kind
  column := UInt32.ofNat lexeme.column
  length := UInt32.ofNat (Text.byteLength lexeme.text)
  text := String.ofList lexeme.text

/-- A token of a line that is what is recorded stands under a handle. -/
def Arena.ShowsToken
    (arena : Arena)
    (line : LineId)
    (span : SpanId)
    (record : TokenRecord) :
    Prop :=
  ∃ token, arena.token span = .ok token ∧ token.line = line ∧ token.record = record

/-- An arena shows what is recorded where a lexed line of a source stands. -/
structure Arena.Shows
    (arena : Arena)
    (source : SourceId)
    (lexed : LexedLine)
    (record : LineRecord) :
    Prop where
  line : ∃ number : UInt32,
    number.toNat = record.number ∧
      arena.line lexed.line = .ok ⟨lexed.line, number, record.text, source⟩
  tokens : List.Forall₂ (arena.ShowsToken lexed.line) lexed.tokens record.tokens

namespace Arena.Shows

variable {arena after : Arena} {source : SourceId}

/-- What an arena shows stays as it is while its tables only grow. -/
theorem later
    {lexed : LexedLine}
    {record : LineRecord}
    (extended : after.Extends arena)
    (shown : arena.Shows source lexed record) :
    after.Shows source lexed record where
  line := by
    obtain ⟨number, exact, found⟩ := shown.line
    exact ⟨number, exact, extended.line found⟩
  tokens := shown.tokens.imp fun _ _ ⟨token, found, place⟩ =>
    ⟨token, extended.token found, place⟩

theorem all_later
    {lines : List LexedLine}
    {records : List LineRecord}
    (extended : after.Extends arena)
    (shown : List.Forall₂ (arena.Shows source) lines records) :
    List.Forall₂ (after.Shows source) lines records :=
  shown.imp fun _ _ showsLine => showsLine.later extended

end Arena.Shows

namespace Arena

/-- The handle that the next source will be opened under. -/
def nextSource
    (arena : Arena) :
    SourceId where
  value := UInt32.ofNat arena.sources.size

/-- Nothing in an arena has the handle of a source. -/
structure IsUnused
    (arena : Arena)
    (source : SourceId) :
    Prop where
  noSource : arena.source? source = none
  noLine : ∀ line ∈ arena.lines, line.source ≠ source

theorem index_nextSource
    {arena : Arena}
    (room : arena.sources.size < UInt32.size) :
    arena.nextSource.index = arena.sources.size :=
  UInt32.toNat_ofNat_of_lt' room

/-- The handle that a source is opened under is unused, while there are words for handles. -/
theorem WellFormed.next_isUnused
    {arena : Arena}
    (wellFormed : arena.WellFormed)
    (room : arena.sources.size < UInt32.size) :
    arena.IsUnused arena.nextSource := by
  have place := index_nextSource room
  constructor
  · rw [source?, place]
    exact Array.getElem?_eq_none (Nat.le_refl _)
  · rintro line member same
    have known := wellFormed.lineSources line member
    rw [same, place] at known
    exact Nat.lt_irrefl _ known

end Arena

namespace LineLexer

/-- What the lexer makes of a line with a number. -/
def record
    (lexer : LineLexer)
    (number : Nat)
    (text : String) :
    LineRecord where
  number := number
  text := text
  tokens := (lexer.scan text.toList).1.map Lexeme.record

/-- The lexer after lines. -/
def afterLines
    (lexer : LineLexer)
    (texts : List String) :
    LineLexer :=
  texts.foldl (fun lexer text => (lexer.scan text.toList).2) lexer

/-- What the lexer makes of lines that are numbered from the given number. -/
def records
    (lexer : LineLexer)
    (number : Nat) :
    List String →
    List LineRecord
  | [] => []
  | text :: rest =>
      lexer.record number text :: records (lexer.scan text.toList).2 (number + 1) rest

theorem records_append
    (lexer : LineLexer)
    (number : Nat)
    (earlier later : List String) :
    lexer.records number (earlier ++ later) =
      lexer.records number earlier ++
        (lexer.afterLines earlier).records (number + earlier.length) later := by
  induction earlier generalizing lexer number with
  | nil => rfl
  | cons text rest inductionHypothesis =>
      simp only [List.cons_append, records, inductionHypothesis, List.length_cons, afterLines,
        List.foldl_cons, Nat.add_assoc, Nat.add_comm 1]

theorem afterLines_append
    (lexer : LineLexer)
    (earlier later : List String) :
    lexer.afterLines (earlier ++ later) = (lexer.afterLines earlier).afterLines later :=
  List.foldl_append

theorem length_records
    (lexer : LineLexer)
    (number : Nat)
    (texts : List String) :
    (lexer.records number texts).length = texts.length := by
  induction texts generalizing lexer number with
  | nil => rfl
  | cons text rest inductionHypothesis => simp only [records, List.length_cons, inductionHypothesis]

/-- The lines are numbered in order. -/
theorem records_numbers
    (lexer : LineLexer)
    (number : Nat)
    (texts : List String) :
    (lexer.records number texts).map (·.number) = List.range' number texts.length := by
  induction texts generalizing lexer number with
  | nil => rfl
  | cons text rest inductionHypothesis =>
      simp only [records, List.map_cons, inductionHypothesis, List.length_cons, List.range'_succ]
      rfl

variable {lexer next : LineLexer} {arena after : Arena} {source : SourceId}

/-- What an accepted line does to the tables, and what becomes of the lexer. -/
structure Feeds
    (lexer : LineLexer)
    (arena : Arena)
    (source : SourceId)
    (text : String)
    (number : Nat)
    (lexed : LexedLine)
    (next : LineLexer)
    (after : Arena) :
    Prop where
  next : next = (lexer.scan text.toList).2
  room : arena.lines.size < SpanId.none.index
  grows : after.Grows arena [lexed.line]
  line : after.line lexed.line = .ok ⟨lexed.line, UInt32.ofNat number, text, source⟩
  tokens : ∃ tokens,
    lexed.tokens = tokens.map Token.span ∧
      after.tokens.toList = arena.tokens.toList ++ tokens ∧
        (∀ token ∈ tokens, after.token token.span = .ok token) ∧
          List.Forall₂ (Token.Records lexed.line) tokens (lexer.scan text.toList).1

theorem feedLine_feeds
    {text : String}
    {number : Nat}
    {lexed : LexedLine}
    (isOpen : arena.currentSource? = some source)
    (fed : lexer.feedLine arena text number = (.ok lexed, next, after)) :
    lexer.Feeds arena source text number lexed next after := by
  unfold feedLine at fed
  split at fed
  · cases fed
  next line between added =>
    dsimp only at fed
    split at fed
    · cases fed
    next spans last tokenized =>
      cases fed
      obtain ⟨lineGrows, _, registered⟩ := Arena.Grows.addLine isOpen added
      have grows := addTokens_grows tokenized
      obtain ⟨tokens, rfl, _, table, found, records⟩ := addTokens_ok tokenized
      rw [(Arena.addLine_ok added).2] at table
      exact
        { next := rfl
          room := Arena.addLine_room added
          grows := grows.trans lineGrows
          line := grows.tables.line registered
          tokens := ⟨tokens, rfl, table, found, records⟩ }

namespace Feeds

variable {text : String} {number : Nat} {lexed : LexedLine}

/-- The tokens that record lexemes of a line are shown as the lexer makes them. -/
theorem showsTokens
    {line : LineId}
    {tokens : List Token}
    {lexemes : List Lexeme}
    (found : ∀ token ∈ tokens, after.token token.span = .ok token)
    (records : List.Forall₂ (Token.Records line) tokens lexemes) :
    List.Forall₂ (after.ShowsToken line) (tokens.map Token.span) (lexemes.map Lexeme.record) := by
  induction records with
  | nil => exact .nil
  | @cons token lexeme tokens lexemes recorded _ inductionHypothesis =>
      have same : token.record = lexeme.record := by
        simp only [Token.record, Lexeme.record, recorded.kind, recorded.column, recorded.length,
          recorded.text]
      exact .cons ⟨token, found token List.mem_cons_self, recorded.line, same⟩
        (inductionHypothesis fun later member => found later (List.mem_cons_of_mem token member))

/--
The arena shows what the lexer makes of the line. The number is kept as a word of 32
bits, which it fits if there are as many lines before the line as it counts.
-/
theorem shows
    (feeds : lexer.Feeds arena source text number lexed next after)
    (counted : number ≤ arena.lines.size + 1) :
    after.Shows source lexed (lexer.record number text) where
  line := by
    have fits : number < UInt32.size :=
      Nat.lt_of_le_of_lt (Nat.le_trans counted feeds.room) (by decide)
    exact ⟨UInt32.ofNat number, UInt32.toNat_ofNat_of_lt' fits, feeds.line⟩
  tokens := by
    obtain ⟨tokens, spans, _, found, records⟩ := feeds.tokens
    rw [spans]
    exact showsTokens found records

theorem lineCount
    (feeds : lexer.Feeds arena source text number lexed next after) :
    after.lines.size = arena.lines.size + 1 :=
  feeds.grows.lineCount

theorem tokenCount
    (feeds : lexer.Feeds arena source text number lexed next after) :
    after.tokens.size = arena.tokens.size + (lexer.scan text.toList).1.length := by
  obtain ⟨tokens, _, table, _, records⟩ := feeds.tokens
  rw [← Array.length_toList, table, List.length_append, Array.length_toList, records.length_eq]

end Feeds

/-- The arena shows what the lexer makes of lines that it was fed. -/
theorem feedLines_shows
    {number : Nat}
    {texts : List (List Char)}
    {lines : List LexedLine}
    (isOpen : arena.currentSource? = some source)
    (counted : number ≤ arena.lines.size + 1)
    (fed : lexer.feedLines arena number texts = (.ok lines, next, after)) :
    after.Grows arena (lines.map (·.line)) ∧
      List.Forall₂ (after.Shows source) lines
        (lexer.records number (texts.map String.ofList)) := by
  induction texts generalizing lexer arena number lines with
  | nil =>
      cases fed
      exact ⟨.refl _, .nil⟩
  | cons text rest inductionHypothesis =>
      simp only [feedLines] at fed
      split at fed
      · cases fed
      next lexed middle between first =>
        split at fed
        · cases fed
        next others last final remaining =>
          cases fed
          have feeds := feedLine_feeds isOpen first
          have stillCounted : number + 1 ≤ between.lines.size + 1 := by
            rw [feeds.lineCount]
            omega
          obtain ⟨grows, shown⟩ :=
            inductionHypothesis (feeds.grows.currentSource?.trans isOpen) stillCounted remaining
          rw [feeds.next] at shown
          exact ⟨grows.trans feeds.grows, .cons ((feeds.shows counted).later grows.tables) shown⟩

/-- The physical lines of a text. -/
def linesOf
    (text : String) :
    List String :=
  (physicalLines text.toList).map String.ofList

/-- What lexing a whole source leaves behind. -/
structure Lexes
    (lexer : LineLexer)
    (arena : Arena)
    (provenance : Provenance)
    (text : String)
    (lines : List LexedLine)
    (after : Arena) :
    Prop where
  openSources : after.openSources = arena.openSources
  tables : after.Extends (arena.openSource provenance).2
  shows : List.Forall₂ (after.Shows arena.nextSource) lines
    (lexer.records 1 (linesOf text))

/-- The source is found under its handle, while there are words for handles. -/
theorem Lexes.found
    {provenance : Provenance}
    {text : String}
    {lines : List LexedLine}
    (lexes : lexer.Lexes arena provenance text lines after)
    (room : arena.sources.size < UInt32.size) :
    after.source? arena.nextSource = some provenance := by
  refine Arena.Extends.getElem?_kept lexes.tables.sources ?_
  rw [Arena.index_nextSource room]
  exact Array.getElem?_push_size

theorem lexSource_lexes
    {provenance : Provenance}
    {text : String}
    {lines : List LexedLine}
    (lexed : lexer.lexSource arena provenance text = (.ok lines, next, after)) :
    lexer.Lexes arena provenance text lines after := by
  obtain ⟨filled, fed, rfl⟩ := lexSource_ok_iff.mp lexed
  have isOpen :
      (arena.openSource provenance).2.currentSource? = some arena.nextSource :=
    rfl
  have closed : filled.closeInnermost.Extends filled :=
    ⟨List.prefix_rfl, List.prefix_rfl, List.prefix_rfl, List.prefix_rfl⟩
  obtain ⟨grows, shown⟩ := feedLines_shows isOpen (Nat.le_add_left 1 _) fed
  refine ⟨?_, closed.trans grows.tables, Arena.Shows.all_later closed shown⟩
  change filled.openSources.tail = arena.openSources
  rw [grows.openSources]
  rfl

end LineLexer

end ShellCore
