import ShellCore.Proofs.Lexing.Coverage
import ShellCore.Proofs.Lexing.QuoteLexemes

namespace ShellCore

/-!
# The open quote between lines

The lexer recognizes strings that end on their line as lexemes, and looks for
the end of other strings by hand. Between two lines both agree with one scan of
the source so far.
-/

open QuoteState

/-- The scan leaves a string where the lexer finds its closing quote. -/
theorem scan_closing
    {quote : Quote}
    {text : List Char}
    {length : Nat}
    (closes : closingLength? quote text = some length) :
    scan true (ofOpen (some quote)) (text.take length) = .fresh := by
  induction quote, text using closingLength?.induct generalizing length with
  | case1 quote => cases closes
  | case2 rest =>
      cases closes
      rfl
  | case3 first rest noQuote inductionHypothesis =>
      rw [closingLength?, if_neg noQuote] at closes
      obtain ⟨count, found, rfl⟩ := Option.map_eq_some_iff.mp closes
      have stays : step true (ofOpen (some .single)) first = ofOpen (some .single) :=
        step_single noQuote
      rw [List.take_succ_cons, scan_cons, stays]
      exact inductionHypothesis found
  | case4 rest =>
      cases closes
      rfl
  | case5 => cases closes
  | case6 escaped rest inductionHypothesis =>
      obtain ⟨count, found, rfl⟩ := Option.map_eq_some_iff.mp closes
      exact inductionHypothesis found
  | case7 first rest noQuote noEnd noPair inductionHypothesis =>
      rw [closingLength?.eq_6 first rest noQuote noEnd noPair] at closes
      obtain ⟨count, found, rfl⟩ := Option.map_eq_some_iff.mp closes
      have stays : step true (ofOpen (some .double)) first = ofOpen (some .double) :=
        step_double noQuote (ne_backslash noEnd noPair)
      rw [List.take_succ_cons, scan_cons, stays]
      exact inductionHypothesis found

/-- The scan stays in a string for which the lexer finds no closing quote. -/
theorem scan_unclosed
    {quote : Quote}
    {text : List Char}
    (unclosed : closingLength? quote text = none) :
    (scan true (ofOpen (some quote)) text).quote? = some quote := by
  induction quote, text using closingLength?.induct with
  | case1 quote => exact quote?_ofOpen (some quote)
  | case2 rest => cases unclosed
  | case3 first rest noQuote inductionHypothesis =>
      rw [closingLength?, if_neg noQuote] at unclosed
      have stays : step true (ofOpen (some .single)) first = ofOpen (some .single) :=
        step_single noQuote
      rw [scan_cons, stays]
      exact inductionHypothesis (Option.map_eq_none_iff.mp unclosed)
  | case4 rest => cases unclosed
  | case5 => rfl
  | case6 escaped rest inductionHypothesis =>
      exact inductionHypothesis (Option.map_eq_none_iff.mp unclosed)
  | case7 first rest noQuote noEnd noPair inductionHypothesis =>
      rw [closingLength?.eq_6 first rest noQuote noEnd noPair] at unclosed
      have stays : step true (ofOpen (some .double)) first = ofOpen (some .double) :=
        step_double noQuote (ne_backslash noEnd noPair)
      rw [scan_cons, stays]
      exact inductionHypothesis (Option.map_eq_none_iff.mp unclosed)

namespace LineLexer

/-- The quote that is open after lexemes is theirs, or else the one that was open before. -/
theorem quoteAfter_eq_or
    (openQuote : Option Quote)
    (lexemes : List Lexeme) :
    quoteAfter openQuote lexemes = (quoteAfter none lexemes).or openQuote := by
  induction lexemes generalizing openQuote with
  | nil => rfl
  | cons lexeme rest inductionHypothesis =>
      have later := inductionHypothesis (lexeme.opens.or openQuote)
      have alone := inductionHypothesis (lexeme.opens.or none)
      change quoteAfter (lexeme.opens.or openQuote) rest =
        (quoteAfter (lexeme.opens.or none) rest).or openQuote
      rw [later, alone, Option.or_none, Option.or_assoc]

theorem quoteAfter_cons
    (lexeme : Lexeme)
    (rest : List Lexeme) :
    quoteAfter none (lexeme :: rest) = (quoteAfter none rest).or lexeme.opens := by
  calc
    quoteAfter none (lexeme :: rest) = quoteAfter (lexeme.opens.or none) rest := rfl
    _ = (quoteAfter none rest).or (lexeme.opens.or none) := quoteAfter_eq_or _ rest
    _ = (quoteAfter none rest).or lexeme.opens := by rw [Option.or_none]

/-- After the lexemes of a line, the quote that they leave open is that of the scan. -/
theorem scan_lexemesFrom
    (column : Nat)
    (characters : List Char)
    (oneLine : OneLine characters) :
    (QuoteState.scan true .fresh characters).quote? =
      quoteAfter none (lexemesFrom column characters) := by
  induction column, characters using lexemesFrom.induct with
  | case1 column =>
      rw [lexemesFrom]
      rfl
  | case2 column first rest separates inductionHypothesis =>
      have returns : step true .fresh first = .fresh := by
        simp only [isSeparator, Bool.or_eq_true, decide_eq_true_eq] at separates
        rcases separates with rfl | rfl <;> rfl
      rw [lexemesFrom, if_pos separates, scan_cons, returns]
      exact inductionHypothesis oneLine.of_cons
  | case3 column first rest solid shape text inductionHypothesis =>
      have follows : shape.Follows first rest := lexemeShape_follows first oneLine.of_cons
      have later := inductionHypothesis (oneLine.of_cons.drop shape.following)
      have whole := lexeme_append_rest first rest shape.following
      rw [lexemesFrom, if_neg solid, ← whole, scan_append, quoteAfter_cons]
      change _ = (quoteAfter none (lexemesFrom _ (rest.drop shape.following))).or shape.opens
      cases opens : shape.opens with
      | none =>
          have resumes := follows.passes opens
          rw [Option.or_none, ← later]
          exact resumes.scan_eq
      | some quote =>
          -- What is left of the line has no quotes, so none of its lexemes opens a string.
          obtain ⟨inside, stays, noQuote⟩ := follows.enters opens
          have nothing :
              (QuoteState.scan true .fresh (rest.drop shape.following)).quote? = none :=
            scan_outside rfl noQuote
          rw [← later, nothing]
          change (QuoteState.scan true (QuoteState.scan true .fresh text) _).quote? = _
          rw [inside, stays]
          rfl

/-- After a line, the open quote is that of the scan of the line. -/
theorem scan_line
    (lexer : LineLexer)
    {text : List Char}
    (oneLine : OneLine text) :
    (QuoteState.scan true (ofOpen lexer.openQuote) text).quote? =
      (lexer.scan text).2.openQuote := by
  obtain ⟨openQuote⟩ := lexer
  cases openQuote with
  | none => exact scan_lexemesFrom 0 text oneLine
  | some quote =>
      rw [LineLexer.scan]
      dsimp only
      split
      next unclosed => exact scan_unclosed unclosed
      next length closes =>
        have outside := scan_closing closes
        have rest := scan_lexemesFrom (Text.byteLength (text.take length)) (text.drop length)
          (oneLine.drop length)
        dsimp only
        rw [← rest, ← outside, ← scan_append, List.take_append_drop]

theorem feedLine_next
    {lexer next : LineLexer}
    {arena after : Arena}
    {text : String}
    {number : Nat}
    {lexed : LexedLine}
    (fed : lexer.feedLine arena text number = (.ok lexed, next, after)) :
    next = (lexer.scan text.toList).2 := by
  unfold feedLine at fed
  split at fed
  · cases fed
  · dsimp only at fed
    split at fed
    · cases fed
    · cases fed
      rfl

/-- Feeding lines feeds the first, and the others to the lexer after it. -/
theorem feedLines_cons_ok
    {lexer next : LineLexer}
    {arena after : Arena}
    {number : Nat}
    {line : List Char}
    {rest : List (List Char)}
    {lexed : List LexedLine}
    (fed : lexer.feedLines arena number (line :: rest) = (.ok lexed, next, after)) :
    ∃ between later,
      (lexer.scan line).2.feedLines between (number + 1) rest = (.ok later, next, after) := by
  rw [feedLines] at fed
  split at fed
  · cases fed
  next first middle between one =>
    split at fed
    · cases fed
    next later _ _ others =>
      cases fed
      have scanned := feedLine_next one
      rw [String.toList_ofList] at scanned
      rw [scanned] at others
      exact ⟨between, later, others⟩

/-- After lines of a source, the open quote is that of one scan of all of them. -/
theorem scan_lines
    {lexer next : LineLexer}
    {arena after : Arena}
    {number : Nat}
    {lines : List (List Char)}
    {lexed : List LexedLine}
    (physical : Physical lines)
    (fed : lexer.feedLines arena number lines = (.ok lexed, next, after)) :
    next.openQuote =
      (QuoteState.scan true (ofOpen lexer.openQuote) lines.flatten).quote? := by
  induction physical generalizing lexer arena number lexed with
  | nil =>
      cases fed
      exact (quote?_ofOpen _).symm
  | @last line oneLine =>
      obtain ⟨between, later, rest⟩ := feedLines_cons_ok fed
      cases rest
      rw [List.flatten_cons, List.flatten_nil, List.append_nil, lexer.scan_line oneLine]
  | @cons body lines oneLine physical inductionHypothesis =>
      obtain ⟨between, later, rest⟩ := feedLines_cons_ok fed
      have line := lexer.scan_line oneLine
      -- Behind a newline the scan remembers the open quote and nothing else, as the lexer does.
      have settled :
          QuoteState.scan true (ofOpen lexer.openQuote) (body ++ ['\n']) =
            ofOpen (lexer.scan (body ++ ['\n'])).2.openQuote := by
        rw [← line, scan_append]
        exact step_newline true _
      rw [List.flatten_cons, scan_append, settled]
      exact inductionHypothesis rest

/-- A single line can be fed to a new lexer whose source was just opened. -/
theorem feedLines_singleton_succeeds
    {line : List Char}
    (room : Text.byteLength line < SpanId.none.index) :
    ∃ lexed next after,
      LineLexer.start.feedLines (Arena.empty.openSource .interactive).2 1 [line] =
        (.ok lexed, next, after) := by
  have tokenRoom :
      (Arena.empty.openSource .interactive).2.tokens.size +
          Text.byteLength (String.ofList line).toList <
        SpanId.none.index := by
    rw [String.toList_ofList]
    change 0 + Text.byteLength line < _
    omega
  obtain ⟨lexed, next, after, fed⟩ :=
    feedLine_succeeds .start
      (rfl : (Arena.empty.openSource .interactive).2.currentSource? = some ⟨0⟩)
      (by decide) (String.ofList line) tokenRoom 1
  refine ⟨[lexed], next, after, ?_⟩
  rw [feedLines, fed]
  rfl

/--
After any number of physical lines of a source, the quote that the lexer has open
is that of one scan of the source up to there. In that scan a `#` begins a
comment unless it stands behind a character of a word, to which the dash of the
operator `<<-` does not belong.
-/
theorem feedLines_openQuote
    {lexer next : LineLexer}
    {arena after : Arena}
    {source : String}
    {count number : Nat}
    {lexed : List LexedLine}
    (fed :
      lexer.feedLines arena number ((physicalLines source.toList).take count) =
        (.ok lexed, next, after)) :
    (physicalLines source.toList).flatten = source.toList ∧
      next.openQuote =
        (QuoteState.scan true (ofOpen lexer.openQuote)
          ((physicalLines source.toList).take count).flatten).quote? := by
  have physical := physical_physicalLines source.toList
  exact ⟨flatten_physicalLines source.toList, scan_lines (physical.take count) fed⟩

/-- A string that is left open behind a comment character inside a word. -/
theorem first_line_openQuote :
    ∃ lexed next after,
      LineLexer.start.feedLines (Arena.empty.openSource .interactive).2 1
          ((physicalLines (String.ofList ['x', '#', '\'', '\n', '"']).toList).take 1) =
        (.ok lexed, next, after) ∧
      next.openQuote = some .single := by
  have lines :
      (physicalLines (String.ofList ['x', '#', '\'', '\n', '"']).toList).take 1 =
        [['x', '#', '\'', '\n']] := by
    rw [String.toList_ofList]
    rfl
  have room : Text.byteLength ['x', '#', '\'', '\n'] < SpanId.none.index := by
    decide
  obtain ⟨lexed, next, after, fed⟩ := feedLines_singleton_succeeds room
  rw [← lines] at fed
  obtain ⟨_, scanned⟩ := feedLines_openQuote fed
  refine ⟨lexed, next, after, fed, ?_⟩
  rw [scanned, lines]
  rfl

/--
Behind the operator `<<-`, a `#` begins a comment, although a dash is a character
of words.
-/
theorem dash_of_operator_ends_word :
    ∃ lexed next after,
      LineLexer.start.feedLines (Arena.empty.openSource .interactive).2 1
          (physicalLines (String.ofList ['<', '<', '-', '#', '\'', '\n']).toList) =
        (.ok lexed, next, after) ∧
      next.openQuote ≠
        (QuoteState.scan false .fresh
          (String.ofList ['<', '<', '-', '#', '\'', '\n']).toList).quote? := by
  rw [String.toList_ofList]
  have room :
      Text.byteLength ['<', '<', '-', '#', '\'', '\n'] < SpanId.none.index := by
    decide
  obtain ⟨lexed, next, after, fed⟩ := feedLines_singleton_succeeds room
  refine ⟨lexed, next, after, fed, ?_⟩
  have physical := physical_physicalLines ['<', '<', '-', '#', '\'', '\n']
  rw [scan_lines physical fed]
  decide

end LineLexer

end ShellCore
