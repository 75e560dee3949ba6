import ShellCore.Proofs.Lexing.Beginnings
import ShellCore.Proofs.Lexing.Columns
import ShellCore.Proofs.Lexing.Coverage
import ShellCore.Proofs.Lexing.QuoteAgreement

namespace ShellCore

/-!
# Strings that a line leaves open

Where a string is open at the end of a line, its part of the line should be the
line's last lexeme. It is, unless the line opens the string and ends inside an
escape: the pattern of an opened string stops in front of such a backslash, while
the string goes on.
-/

open QuoteState

/-- The string that is open behind a line, and what the line has in front of it. -/
structure OpenString
    (start : QuoteState)
    (line before inside : List Char)
    (quote : Quote) :
    Prop where
  whole : line = before ++ inside
  /-- The string was open at the beginning of the line, or its quote stands on the line. -/
  begins :
    (before = [] ∧ start = ofOpen (some quote)) ∨
      ((scan true start before).quote? = none ∧ inside.head? = some quote.char)
  /-- From there on the scan does not leave the string. -/
  stays : ∀ taken left, inside = taken ++ left → taken ≠ [] →
    (scan true start (before ++ taken)).quote? = some quote

/-- The last lexeme of a line is a part of a string, and the only one from a place on. -/
def EndsInPart
    (line before : List Char)
    (lexemes : List Lexeme) :
    Prop :=
  ∃ earlier part,
    lexemes = earlier ++ [part] ∧
      part.kind = .quotedPart ∧
        part.column = Text.byteLength before ∧
          part.endColumn = Text.byteLength line ∧
            ∀ lexeme ∈ earlier, lexeme.endColumn ≤ Text.byteLength before

/-- The characters of a line in front of its newline. -/
def lineBody
    (line : List Char) :
    List Char :=
  line.takeWhile (· ≠ '\n')

/-- The characters of a line in front of its newline end inside an escape. -/
def EndsEscaped
    (start : QuoteState)
    (line : List Char) :
    Prop :=
  scan true start (lineBody line) = .escaped

/--
A part of a string is followed by lexemes for the rest of the line: a word for the
backslash, and the newline if there is one.
-/
def LosesEscape
    (before inside : List Char)
    (lexemes : List Lexeme) :
    Prop :=
  ∃ earlier part newline,
    (newline = [] ∨ newline = ['\n']) ∧
      inside = part.text ++ '\\' :: newline ∧
        part.kind = .quotedPart ∧
          part.column = Text.byteLength before ∧
            lexemes =
              earlier ++ part :: ⟨.word, part.endColumn, ['\\'], none⟩ ::
                newline.map fun character =>
                  ⟨.newline, part.endColumn + 1, [character], none⟩

instance
    (start : QuoteState)
    (line : List Char) :
    Decidable (EndsEscaped start line) :=
  inferInstanceAs (Decidable (_ = _))

/-- A closing quote that is found in a text is found if more text follows. -/
theorem closingLength?_append
    {quote : Quote}
    {text : List Char}
    {length : Nat}
    (closes : closingLength? quote text = some length)
    (later : List Char) :
    closingLength? quote (text ++ later) = some length := by
  induction quote, text using closingLength?.induct generalizing length with
  | case1 quote => cases closes
  | case2 rest => exact closes
  | case3 first rest noQuote inductionHypothesis =>
      simp only [closingLength?, if_neg noQuote, List.cons_append] at closes ⊢
      obtain ⟨count, found, rfl⟩ := Option.map_eq_some_iff.mp closes
      rw [inductionHypothesis found, Option.map_some]
  | case4 rest => exact closes
  | case5 => cases closes
  | case6 escaped rest inductionHypothesis =>
      simp only [closingLength?, List.cons_append] at closes ⊢
      obtain ⟨count, found, rfl⟩ := Option.map_eq_some_iff.mp closes
      rw [inductionHypothesis found, Option.map_some]
  | case7 first rest noQuote noEnd noPair inductionHypothesis =>
      have noBackslash := ne_backslash noEnd noPair
      rw [closingLength?.eq_6 first rest noQuote noEnd noPair] at closes
      obtain ⟨count, found, rfl⟩ := Option.map_eq_some_iff.mp closes
      rw [List.cons_append, closingLength?.eq_6 first (rest ++ later) noQuote
        (fun isBackslash => absurd isBackslash noBackslash)
        (fun _ _ isBackslash => absurd isBackslash noBackslash),
        inductionHypothesis found, Option.map_some]

/-- The scan of a text without a closing quote is inside the string all along. -/
theorem scan_inside
    {quote : Quote}
    {taken left : List Char}
    (unclosed : closingLength? quote (taken ++ left) = none) :
    (scan true (ofOpen (some quote)) taken).quote? = some quote := by
  refine scan_unclosed ?_
  cases found : closingLength? quote taken with
  | none => rfl
  | some length => cases (closingLength?_append found left).symm.trans unclosed

theorem closingLength?_single
    (rest : List Char) :
    closingLength? .single rest =
      if (singleQuotedLength rest).2 then some (singleQuotedLength rest).1 else none := by
  induction rest with
  | nil => rfl
  | cons first rest inductionHypothesis =>
      rw [closingLength?, singleQuotedLength, inductionHypothesis]
      split
      · rfl
      · rcases singleQuotedLength rest with ⟨length, _ | _⟩ <;> rfl

theorem closingLength?_double
    {rest : List Char}
    (oneLine : OneLine rest) :
    closingLength? .double rest =
      if (doubleQuotedLength rest).2 then some (doubleQuotedLength rest).1 else none := by
  induction rest using doubleQuotedLength.induct with
  | case1 => rfl
  | case2 rest => rfl
  | case3 => rfl
  | case4 rest =>
      obtain rfl : rest = [] := oneLine ['\\'] rest rfl
      rfl
  | case5 escaped rest noNewline length closed shorter inductionHypothesis =>
      rw [shorter] at inductionHypothesis
      rw [closingLength?, inductionHypothesis oneLine.of_cons.of_cons,
        doubleQuotedLength.eq_5 escaped rest noNewline, shorter]
      cases closed <;> rfl
  | case6 first rest noQuote noEnd noNewline noPair length closed shorter inductionHypothesis =>
      rw [shorter] at inductionHypothesis
      rw [closingLength?.eq_6 first rest noQuote noEnd noPair,
        inductionHypothesis oneLine.of_cons,
        doubleQuotedLength.eq_6 first rest noQuote noEnd noNewline noPair, shorter]
      cases closed <;> rfl

/-- On one line an opened string is closed where a continued one would be. -/
theorem closingLength?_eq
    (quote : Quote)
    {rest : List Char}
    (oneLine : OneLine rest) :
    closingLength? quote rest =
      if (extentOf quote rest).2 then some (extentOf quote rest).1 else none := by
  cases quote with
  | single => exact closingLength?_single rest
  | double => exact closingLength?_double oneLine

/-- Behind an opened string that its line does not close, no closing quote is found. -/
theorem closingLength?_of_unclosed
    {quote : Quote}
    {rest : List Char}
    (oneLine : OneLine rest)
    (unclosed : (extentOf quote rest).2 = false) :
    closingLength? quote rest = none := by
  rw [closingLength?_eq quote oneLine, unclosed]
  rfl

/-- The part of an opened string never has a newline behind a backslash that protects it. -/
theorem not_escaped_in_part
    {rest inner behind : List Char}
    (part : rest.take (doubleQuotedLength rest).1 = inner ++ '\n' :: behind) :
    scan true .double inner ≠ .escaped := by
  induction rest using doubleQuotedLength.induct generalizing inner with
  | case1 => cases inner <;> cases part
  | case2 rest =>
      cases inner with
      | nil => cases part
      | cons first inner => cases inner <;> cases part
  | case3 => cases inner <;> cases part
  | case4 rest => cases inner <;> cases part
  | case5 escaped rest noNewline length closed shorter inductionHypothesis =>
      rw [doubleQuotedLength.eq_5 escaped rest noNewline, shorter] at part
      rw [shorter] at inductionHypothesis
      change '\\' :: escaped :: rest.take length = _ at part
      rcases inner with _ | ⟨first, _ | ⟨second, inner⟩⟩
      · cases part
      · simp only [List.cons_append, List.nil_append, List.cons.injEq] at part
        exact absurd part.2.1 noNewline
      · simp only [List.cons_append, List.cons.injEq] at part
        have later := inductionHypothesis part.2.2
        rw [← part.1]
        exact later
  | case6 first rest noQuote noEnd noNewline noPair length closed shorter inductionHypothesis =>
      rw [doubleQuotedLength.eq_6 first rest noQuote noEnd noNewline noPair, shorter] at part
      rw [shorter] at inductionHypothesis
      change first :: rest.take length = _ at part
      rcases inner with _ | ⟨second, inner⟩
      · decide
      · simp only [List.cons_append, List.cons.injEq] at part
        rw [scan_cons, ← part.1, step_double noQuote (ne_backslash noEnd noPair)]
        exact inductionHypothesis part.2

/-- What begins an unclosed string is its quote, and all of it that the pattern takes is a part. -/
structure OpensPart
    (quote : Quote)
    (first : Char)
    (rest : List Char)
    (shape : LexemeShape) :
    Prop where
  first : first = quote.char
  kind : shape.kind = .quotedPart
  following : shape.following = (extentOf quote rest).1
  unclosed : (extentOf quote rest).2 = false

theorem Begins.opensPart
    {first : Char}
    {rest : List Char}
    {shape : LexemeShape}
    {quote : Quote}
    (begins : Begins first rest shape)
    (opens : shape.opens = some quote) :
    OpensPart quote first rest shape := by
  cases begins with
  | @string other isQuote =>
      unfold quotedShape at opens ⊢
      split at opens
      · cases opens
      next unclosed =>
        cases opens
        rw [if_neg unclosed]
        exact ⟨isQuote, rfl, rfl, by simpa using unclosed⟩
  | _ => cases opens

namespace QuoteState.Resumes

variable {state : QuoteState}

/-- Where scanning goes on as at the beginning of a line, it does so to every later place. -/
theorem append
    {before inside : List Char}
    (resumes : Resumes state (before ++ inside))
    (later : Resumes (scan true .fresh before) inside) :
    Resumes (scan true state before) inside := by
  cases before with
  | nil => exact resumes
  | cons first before =>
      rw [scan_cons, resumes.next first rfl]
      exact later

end QuoteState.Resumes

/-- The lexeme that opens the string that a text leaves open. -/
theorem exists_opening
    {column : Nat}
    {characters : List Char}
    {quote : Quote}
    (oneLine : OneLine characters)
    (isOpen : LineLexer.quoteAfter none (lexemesFrom column characters) = some quote) :
    ∃ (part : Lexeme) (before : List Char) (first : Char) (rest : List Char),
      part.BeginsAt column characters (lexemesFrom column characters) before first rest ∧
        OpensPart quote first rest (lexemeShape first rest) ∧
          Resumes (scan true .fresh before) (first :: rest) := by
  induction column, characters using lexemesFrom.induct with
  | case1 column =>
      rw [lexemesFrom] at isOpen
      cases isOpen
  | case2 column first rest separates inductionHypothesis =>
      rw [lexemesFrom, if_pos separates] at isOpen ⊢
      obtain ⟨part, before, second, later, beginsAt, opens, resumes⟩ :=
        inductionHypothesis oneLine.of_cons isOpen
      have returns : step true .fresh first = .fresh := by
        simp only [isSeparator, Bool.or_eq_true, decide_eq_true_eq] at separates
        rcases separates with rfl | rfl <;> rfl
      refine ⟨part, first :: before, second, later, beginsAt.behind [first] [] rfl, opens, ?_⟩
      rwa [scan_cons, returns]
  | case3 column first rest notSeparator shape text inductionHypothesis =>
      have solid : isSeparator first = false := by simpa using notSeparator
      have follows : shape.Follows first rest := lexemeShape_follows first oneLine.of_cons
      have laterOneLine := oneLine.of_cons.drop shape.following
      rw [lexemesFrom_of_not_isSeparator column rest solid] at isOpen ⊢
      rw [LineLexer.quoteAfter_cons] at isOpen
      cases opens : shape.opens with
      | none =>
          have laterOpen : LineLexer.quoteAfter none
              (lexemesFrom (column + Text.byteLength text) (rest.drop shape.following)) =
                some quote := by
            rw [← isOpen]
            change _ = Option.or _ shape.opens
            rw [opens, Option.or_none]
            rfl
          obtain ⟨part, before, second, later, beginsAt, opensPart, resumes⟩ :=
            inductionHypothesis laterOneLine laterOpen
          have behind := beginsAt.behind text [lexemeAt column first rest] rfl
          rw [lexeme_append_rest] at behind
          refine ⟨part, text ++ before, second, later, behind, opensPart, ?_⟩
          have passes := follows.passes opens
          rw [Passes, beginsAt.whole] at passes
          rw [scan_append]
          exact passes.append resumes
      | some other =>
          -- What is left of the line has no quotes, so this is the string that stays open.
          obtain ⟨_, _, noQuote⟩ := follows.enters opens
          have nothing := LineLexer.scan_lexemesFrom (lexemeAt column first rest).endColumn
            (rest.drop shape.following) laterOneLine
          rw [scan_outside rfl noQuote] at nothing
          rw [← nothing, Option.none_or] at isOpen
          have opensPart := (lexemeShape_begins rest solid).opensPart isOpen
          exact ⟨_, [], first, rest, ⟨rfl, solid, rfl, List.suffix_refl _⟩, opensPart, .fresh _⟩

/-- Nothing but a newline follows the body of a line. -/
theorem OneLine.body_append
    {line : List Char}
    (oneLine : OneLine line) :
    ∃ newline, (newline = [] ∨ newline = ['\n']) ∧ line = lineBody line ++ newline := by
  refine ⟨line.dropWhile (· ≠ '\n'), ?_, List.takeWhile_append_dropWhile.symm⟩
  cases behind : line.dropWhile (· ≠ '\n') with
  | nil => exact .inl rfl
  | cons first rest =>
      have isNewline := List.head?_dropWhile_not (· ≠ '\n') line
      rw [behind] at isNewline
      obtain rfl : first = '\n' := by simpa using isNewline
      have whole : line = lineBody line ++ '\n' :: rest := by
        rw [← behind]
        exact List.takeWhile_append_dropWhile.symm
      rw [oneLine _ _ whole]
      exact .inr rfl

/-- In front of more text a line has no newline. -/
theorem OneLine.body_of_append
    {before inside : List Char}
    (oneLine : OneLine (before ++ inside))
    (more : inside ≠ []) :
    lineBody (before ++ inside) = before ++ lineBody inside := by
  refine List.takeWhile_append_of_pos fun character member => ?_
  rw [decide_eq_true_eq]
  rintro rfl
  obtain ⟨left, right, rfl⟩ := List.append_of_mem member
  have nothing := oneLine left (right ++ inside) (by simp)
  exact more (List.append_eq_nil_iff.mp nothing).2

theorem extentOf_extent
    (quote : Quote)
    (rest : List Char) :
    StringExtent quote rest (extentOf quote rest) := by
  cases quote with
  | single => exact .single rest
  | double => exact .double rest

/-- A line leaves nothing of an unclosed string, or a backslash and the newline if there is one. -/
theorem LeftOver.shape
    {quote : Quote}
    {left : List Char}
    (leftOver : LeftOver quote left)
    (oneLine : OneLine left) :
    left = [] ∨
      quote = .double ∧
        ∃ newline, (newline = [] ∨ newline = ['\n']) ∧ left = '\\' :: newline := by
  cases leftOver with
  | nothing => exact .inl rfl
  | backslash => exact .inr ⟨rfl, [], .inl rfl, rfl⟩
  | @newline rest =>
      obtain rfl : rest = [] := oneLine ['\\'] rest rfl
      exact .inr ⟨rfl, ['\n'], .inr rfl, rfl⟩

/-- An unclosed string of which nothing is left over does not end inside an escape. -/
theorem not_escaped_of_whole
    {quote : Quote}
    {rest : List Char}
    (oneLine : OneLine rest)
    (unclosed : (extentOf quote rest).2 = false)
    (nothing : rest.drop (extentOf quote rest).1 = []) :
    scan true (ofOpen (some quote)) (lineBody rest) ≠ .escaped := by
  have cut := List.take_append_drop (extentOf quote rest).1 rest
  rw [nothing, List.append_nil] at cut
  obtain ⟨newline, isEnd, whole⟩ := oneLine.body_append
  intro escaped
  cases quote with
  | single =>
      have noQuote : closingLength? .single (lineBody rest ++ newline) = none :=
        whole ▸ closingLength?_of_unclosed oneLine unclosed
      have stays := scan_inside noQuote
      rw [escaped] at stays
      cases stays
  | double =>
      rcases isEnd with rfl | rfl
      · rw [List.append_nil] at whole
        have inside := (StringExtent.double rest).inside unclosed
        change rest.take (doubleQuotedLength rest).1 = rest at cut
        rw [← whole] at escaped
        rw [cut, escaped] at inside
        cases inside
      · exact not_escaped_in_part (cut.trans whole) escaped

/--
Behind the quote of a string that is not closed, the line ends inside an escape
exactly if the pattern leaves something of the line.
-/
theorem escaped_iff_leftOver
    {quote : Quote}
    {rest : List Char}
    (oneLine : OneLine rest)
    (unclosed : (extentOf quote rest).2 = false) :
    scan true (ofOpen (some quote)) (lineBody rest) = .escaped ↔
      rest.drop (extentOf quote rest).1 ≠ [] := by
  refine ⟨fun escaped nothing => not_escaped_of_whole oneLine unclosed nothing escaped, ?_⟩
  intro something
  have extent := extentOf_extent quote rest
  have shape := (extent.leftOver unclosed).shape (oneLine.drop _)
  obtain ⟨rfl, newline, isEnd, left⟩ := shape.resolve_left something
  have whole := List.take_append_drop (extentOf .double rest).1 rest
  have alone : lineBody ('\\' :: newline) = ['\\'] := by
    rcases isEnd with rfl | rfl <;> rfl
  have body : lineBody rest = rest.take (extentOf .double rest).1 ++ ['\\'] := by
    rw [left] at whole
    rw [← alone, ← OneLine.body_of_append (whole.symm ▸ oneLine) (List.cons_ne_nil _ _), whole]
  rw [body, scan_append, extent.inside unclosed]
  rfl

/-- Outside strings a backslash in front of the end of a line is a word. -/
theorem lexemesFrom_escape
    {newline : List Char}
    (column : Nat)
    (isEnd : newline = [] ∨ newline = ['\n']) :
    lexemesFrom column ('\\' :: newline) =
      ⟨.word, column, ['\\'], none⟩ ::
        newline.map fun character => ⟨.newline, column + 1, [character], none⟩ := by
  have backslash : lexemeShape '\\' newline = .plain .word 0 := by
    rcases isEnd with rfl | rfl <;> decide
  rw [lexemesFrom_of_not_isSeparator column newline rfl, lexemeAt, backslash]
  rcases isEnd with rfl | rfl
  · simp [lexemesFrom, LexemeShape.plain]
  · have later := lexemesFrom_of_not_isSeparator (column + 1) [] (rfl : isSeparator '\n' = false)
    simp only [LexemeShape.plain, List.take_zero, List.drop_zero, List.map_cons, List.map_nil]
    refine congrArg _ (later.trans ?_)
    simp [lexemesFrom, lexemeAt, lexemeShape, LexemeShape.plain]

/-- A lexeme of a line begins the string that the line leaves open. -/
structure OpensString
    (start : QuoteState)
    (line : List Char)
    (lexemes : List Lexeme)
    (quote : Quote)
    (part : Lexeme)
    (before : List Char)
    (first : Char)
    (rest : List Char) :
    Prop where
  beginsAt : part.BeginsAt 0 line lexemes before first rest
  opens : OpensPart quote first rest (lexemeShape first rest)
  resumes : Resumes (scan true start before) (first :: rest)

namespace OpensString

variable {start : QuoteState} {line : List Char} {lexemes : List Lexeme} {quote : Quote}
  {part : Lexeme} {before rest : List Char} {first : Char}

theorem oneLine_rest
    (opening : OpensString start line lexemes quote part before first rest)
    (oneLine : OneLine line) :
    OneLine rest := by
  rw [opening.beginsAt.whole] at oneLine
  exact oneLine.of_append.of_cons

/-- Behind the quote the scan is in the string. -/
theorem scan_behind
    (opening : OpensString start line lexemes quote part before first rest)
    (taken : List Char) :
    scan true start (before ++ first :: taken) = scan true (ofOpen (some quote)) taken := by
  rw [scan_append, scan_cons, opening.resumes.next first rfl, opening.opens.first]
  cases quote <;> rfl

theorem openString
    (opening : OpensString start line lexemes quote part before first rest)
    (oneLine : OneLine line) :
    OpenString start line before (first :: rest) quote where
  whole := opening.beginsAt.whole
  begins := .inr ⟨opening.resumes.outside, congrArg some opening.opens.first⟩
  stays taken left same nonempty := by
    obtain ⟨character, taken, rfl⟩ := List.exists_cons_of_ne_nil nonempty
    obtain ⟨rfl, cut⟩ := List.cons.inj same
    rw [opening.scan_behind]
    have unclosed :=
      closingLength?_of_unclosed (opening.oneLine_rest oneLine) opening.opens.unclosed
    rw [cut] at unclosed
    exact scan_inside unclosed

theorem endsEscaped_iff
    (opening : OpensString start line lexemes quote part before first rest)
    (oneLine : OneLine line) :
    EndsEscaped start line ↔ rest.drop (lexemeShape first rest).following ≠ [] := by
  have noNewline : first ≠ '\n' := by
    rw [opening.opens.first]
    cases quote <;> decide
  have body : lineBody (first :: rest) = first :: lineBody rest :=
    List.takeWhile_cons_of_pos (by simpa using noNewline)
  have whole : lineBody line = before ++ first :: lineBody rest := by
    rw [opening.beginsAt.whole] at oneLine ⊢
    rw [oneLine.body_of_append (List.cons_ne_nil _ _), body]
  rw [EndsEscaped, whole, opening.scan_behind, opening.opens.following]
  exact escaped_iff_leftOver (opening.oneLine_rest oneLine) opening.opens.unclosed

theorem kind
    (opening : OpensString start line lexemes quote part before first rest) :
    part.kind = .quotedPart :=
  opening.beginsAt.kind.trans opening.opens.kind

theorem column
    (opening : OpensString start line lexemes quote part before first rest) :
    part.column = Text.byteLength before := by
  rw [opening.beginsAt.column_eq, Nat.zero_add]

theorem endsInPart
    (opening : OpensString start line lexemes quote part before first rest)
    (tiles : Tiles 0 line lexemes)
    (nothing : rest.drop (lexemeShape first rest).following = []) :
    EndsInPart line before lexemes := by
  obtain ⟨earlier, same⟩ := opening.beginsAt.followed
  rw [nothing, lexemesFrom] at same
  subst same
  have cut := opening.beginsAt.cut
  rw [nothing, List.append_nil] at cut
  refine ⟨earlier, part, rfl, opening.kind, opening.column, ?_, fun lexeme member => ?_⟩
  · rw [Lexeme.endColumn, opening.column, cut, Text.byteLength_append]
  · rw [← opening.column]
    exact (List.pairwise_append.mp tiles.ordered).2.2 lexeme member part List.mem_cons_self

theorem losesEscape
    (opening : OpensString start line lexemes quote part before first rest)
    (oneLine : OneLine line)
    (something : rest.drop (lexemeShape first rest).following ≠ []) :
    LosesEscape before (first :: rest) lexemes := by
  have leftOver := (extentOf_extent quote rest).leftOver opening.opens.unclosed
  rw [← opening.opens.following] at leftOver
  have shape := leftOver.shape ((opening.oneLine_rest oneLine).drop _)
  obtain ⟨rfl, newline, isEnd, left⟩ := shape.resolve_left something
  obtain ⟨earlier, same⟩ := opening.beginsAt.followed
  rw [left] at same
  refine ⟨earlier, part, newline, isEnd, ?_, opening.kind, opening.column, ?_⟩
  · rw [opening.beginsAt.text_eq, ← left, lexeme_append_rest]
  · rw [← same, lexemesFrom_escape part.endColumn isEnd]

end OpensString

/-- What is opened behind skipped characters of a line is opened on the line. -/
theorem exists_opensString
    {start : QuoteState}
    {skipped characters : List Char}
    {quote : Quote}
    (earlier : List Lexeme)
    (oneLine : OneLine characters)
    (fresh : scan true start skipped = .fresh)
    (isOpen : LineLexer.quoteAfter none (lexemesFrom (Text.byteLength skipped) characters) =
      some quote) :
    ∃ part before first rest,
      OpensString start (skipped ++ characters)
        (earlier ++ lexemesFrom (Text.byteLength skipped) characters)
        quote part before first rest := by
  obtain ⟨part, before, first, rest, beginsAt, opens, resumes⟩ := exists_opening oneLine isOpen
  refine ⟨part, skipped ++ before, first, rest, ?_, opens, ?_⟩
  · exact beginsAt.behind skipped earlier (Nat.zero_add _).symm
  · rwa [scan_append, fresh]

namespace LineLexer

variable {lexer next : LineLexer} {text : List Char} {quote : Quote}

/-- The string that is open behind a line was open before it, or is opened on it. -/
theorem scan_opening
    (oneLine : OneLine text)
    (isOpen : (lexer.scan text).2.openQuote = some quote) :
    (lexer.openQuote = some quote ∧ closingLength? quote text = none ∧
      (lexer.scan text).1 = [⟨.quotedPart, 0, text, none⟩]) ∨
      ∃ part before first rest,
        OpensString (ofOpen lexer.openQuote) text (lexer.scan text).1 quote
          part before first rest := by
  obtain ⟨openQuote⟩ := lexer
  cases openQuote with
  | none => exact .inr (@exists_opensString (ofOpen none) [] text quote [] oneLine rfl isOpen)
  | some other =>
      rw [LineLexer.scan] at isOpen ⊢
      dsimp only at isOpen ⊢
      split at isOpen
      next unclosed =>
        cases isOpen
        exact .inl ⟨rfl, unclosed, rfl⟩
      next length closes =>
        have opening := exists_opensString [⟨.quotedPart, 0, text.take length, none⟩]
          (oneLine.drop length) (scan_closing closes) isOpen
        rw [List.take_append_drop] at opening
        exact .inr opening

/-- A string that goes on over a whole line is the line's only lexeme. -/
theorem endsInPart_of_continued
    {start : QuoteState}
    (unclosed : closingLength? quote text = none)
    (isOpen : start = ofOpen (some quote)) :
    OpenString start text [] text quote ∧
      EndsInPart text [] [⟨.quotedPart, 0, text, none⟩] := by
  subst isOpen
  constructor
  · exact
      { whole := rfl
        begins := .inl ⟨rfl, rfl⟩
        stays := fun taken left same _ => scan_inside (same ▸ unclosed) }
  · exact ⟨[], _, rfl, rfl, rfl, Nat.zero_add _, fun lexeme member => nomatch member⟩

theorem not_endsInPart_of_losesEscape
    {line before inside : List Char}
    {lexemes : List Lexeme}
    (loses : LosesEscape before inside lexemes) :
    ¬ EndsInPart line before lexemes := by
  obtain ⟨earlier, part, newline, isEnd, -, -, -, rfl⟩ := loses
  rintro ⟨others, last, same, isPart, -⟩
  have final := congrArg List.getLast? same
  rw [List.getLast?_concat] at final
  rcases isEnd with rfl | rfl
  · obtain rfl : ⟨.word, part.endColumn, ['\\'], none⟩ = last := by simpa using final
    cases isPart
  · obtain rfl : ⟨.newline, part.endColumn + 1, ['\n'], none⟩ = last := by simpa using final
    cases isPart

/--
The string that is open behind a line has one lexeme from where it begins on the
line, a part that goes to the line's end, unless the line opens the string and
ends inside an escape. The part then stops in front of the backslash, which is a
word, and the newline is a lexeme too.
-/
theorem open_string_ends_in_part_iff
    {arena after : Arena}
    {text : String}
    {number : Nat}
    {lexed : LexedLine}
    (oneLine : OneLine text.toList)
    (fed : lexer.feedLine arena text number = (.ok lexed, next, after))
    (isOpen : next.openQuote = some quote) :
    ∃ tokens before inside,
      HoldsLexemes after lexed text tokens (lexer.scan text.toList).1 ∧
        OpenString (ofOpen lexer.openQuote) text.toList before inside quote ∧
          (EndsInPart text.toList before (lexer.scan text.toList).1 ↔
            ¬ ((QuoteState.scan true (ofOpen lexer.openQuote) before).quote? = none ∧
              EndsEscaped (ofOpen lexer.openQuote) text.toList)) ∧
            (EndsInPart text.toList before (lexer.scan text.toList).1 ∨
              LosesEscape before inside (lexer.scan text.toList).1) := by
  obtain ⟨rfl, tokens, holds, -⟩ := feedLine_accepted fed
  rcases scan_opening oneLine isOpen with
    ⟨continued, unclosed, only⟩ | ⟨part, before, first, rest, opening⟩
  · obtain ⟨openString, endsInPart⟩ :=
      endsInPart_of_continued unclosed (congrArg ofOpen continued)
    rw [← only] at endsInPart
    refine ⟨tokens, [], _, holds, openString, iff_of_true endsInPart ?_, .inl endsInPart⟩
    rintro ⟨outside, -⟩
    rw [continued] at outside
    cases (quote?_ofOpen _).symm.trans outside
  · have openString := opening.openString oneLine
    have escaped := opening.endsEscaped_iff oneLine
    refine ⟨tokens, before, first :: rest, holds, openString, ?_⟩
    by_cases nothing : rest.drop (lexemeShape first rest).following = []
    · have endsInPart := opening.endsInPart (lexer.tiles_scan text.toList) nothing
      exact ⟨iff_of_true endsInPart fun both => escaped.mp both.2 nothing, .inl endsInPart⟩
    · have loses := opening.losesEscape oneLine nothing
      have both := And.intro opening.resumes.outside (escaped.mpr nothing)
      exact ⟨iff_of_false (not_endsInPart_of_losesEscape loses) (not_not_intro both), .inr loses⟩

/-- A string that is opened behind another one, with a double quote and a space in it. -/
theorem opened_string_ends_in_part :
    ∃ lexed next after tokens before inside,
      LineLexer.start.feedLine (Arena.empty.openSource .interactive).2 "a\"b\"'c \" d\\\n" 1 =
        (.ok lexed, next, after) ∧
      next.openQuote = some .single ∧
      HoldsLexemes after lexed "a\"b\"'c \" d\\\n" tokens
        [⟨.word, 0, ['a'], none⟩,
          ⟨.quoted, 1, ['"', 'b', '"'], none⟩,
          ⟨.quotedPart, 4, ['\'', 'c', ' ', '"', ' ', 'd', '\\', '\n'], some .single⟩] ∧
      OpenString .fresh "a\"b\"'c \" d\\\n".toList before inside .single ∧
      EndsInPart "a\"b\"'c \" d\\\n".toList before
        [⟨.word, 0, ['a'], none⟩,
          ⟨.quoted, 1, ['"', 'b', '"'], none⟩,
          ⟨.quotedPart, 4, ['\'', 'c', ' ', '"', ' ', 'd', '\\', '\n'], some .single⟩] := by
  obtain ⟨lexed, next, after, fed⟩ :=
    feedLine_start_succeeds "a\"b\"'c \" d\\\n" (by decide +kernel)
  have oneLine : OneLine "a\"b\"'c \" d\\\n".toList := oneLine_of_only (by decide +kernel)
  have isOpen : next.openQuote = some .single := by
    rw [(feedLine_accepted fed).1]
    decide +kernel
  have lexemes : (LineLexer.start.scan "a\"b\"'c \" d\\\n".toList).1 =
      [⟨.word, 0, ['a'], none⟩,
        ⟨.quoted, 1, ['"', 'b', '"'], none⟩,
        ⟨.quotedPart, 4, ['\'', 'c', ' ', '"', ' ', 'd', '\\', '\n'], some .single⟩] := by
    decide +kernel
  obtain ⟨tokens, before, inside, holds, openString, endsInPart, _⟩ :=
    open_string_ends_in_part_iff oneLine fed isOpen
  rw [lexemes] at holds endsInPart
  refine ⟨lexed, next, after, tokens, before, inside, fed, isOpen, holds, openString, ?_⟩
  refine endsInPart.mpr fun both => ?_
  have plain : ¬ EndsEscaped .fresh "a\"b\"'c \" d\\\n".toList := by
    decide +kernel
  exact plain both.2

/-- A backslash in front of the newline behind an opening quote. -/
theorem escaped_newline_is_no_part :
    ∃ lexed next after tokens,
      LineLexer.start.feedLine (Arena.empty.openSource .interactive).2 "\"a\\\n" 1 =
        (.ok lexed, next, after) ∧
      next.inQuote = true ∧
      HoldsLexemes after lexed "\"a\\\n" tokens
        [⟨.quotedPart, 0, ['"', 'a'], some .double⟩,
          ⟨.word, 2, ['\\'], none⟩,
          ⟨.newline, 3, ['\n'], none⟩] ∧
      ∀ before,
        ¬ EndsInPart "\"a\\\n".toList before
          [⟨.quotedPart, 0, ['"', 'a'], some .double⟩,
            ⟨.word, 2, ['\\'], none⟩,
            ⟨.newline, 3, ['\n'], none⟩] := by
  obtain ⟨lexed, next, after, fed⟩ :=
    feedLine_start_succeeds "\"a\\\n" (by decide +kernel)
  obtain ⟨isNext, tokens, holds, -⟩ := feedLine_accepted fed
  have lexemes : (LineLexer.start.scan "\"a\\\n".toList).1 =
      [⟨.quotedPart, 0, ['"', 'a'], some .double⟩,
        ⟨.word, 2, ['\\'], none⟩,
        ⟨.newline, 3, ['\n'], none⟩] := by
    decide +kernel
  have isOpen : next.inQuote = true := by
    rw [isNext]
    decide +kernel
  refine ⟨lexed, next, after, tokens, fed, isOpen, lexemes ▸ holds, ?_⟩
  rintro before ⟨earlier, last, same, isPart, -⟩
  have final := congrArg List.getLast? same
  rw [List.getLast?_concat] at final
  obtain rfl := Option.some.inj final
  cases isPart

end LineLexer

end ShellCore
