import ShellCore.Proofs.Lexing.OpenString

namespace ShellCore

/-!
# Which characters of a line belong to strings

The scan for quotes tells of every character whether it belongs to a string. The
string lexemes of a physical line have just these characters, but for the escape
that ends a line behind the part of a string.
-/

open QuoteState

namespace QuoteState

/-- Whether a character belongs to a string, by the state in front of it. Its quotes do. -/
def inString
    (state : QuoteState)
    (character : Char) :
    Bool :=
  state.quote?.isSome || (step true state character).quote?.isSome

variable {state : QuoteState} {character : Char}

theorem inString_of_open
    {quote : Quote}
    (isOpen : state.quote? = some quote)
    (character : Char) :
    state.inString character = true := by
  rw [inString, isOpen]
  rfl

theorem inString_of_outside
    (outside : state.quote? = none)
    (noSingle : character ≠ '\'')
    (noDouble : character ≠ '"') :
    state.inString character = false := by
  rw [inString, outside, step_outside outside noSingle noDouble]
  rfl

/-- Where scanning goes on as at the beginning of a line, so do the strings. -/
theorem Resumes.inString
    {before after : List Char}
    (resumes : Resumes state (before ++ character :: after)) :
    (scan true state before).inString character =
      (scan true .fresh before).inString character := by
  cases before with
  | nil =>
      change state.inString character = QuoteState.fresh.inString character
      rw [QuoteState.inString, QuoteState.inString, resumes.outside, resumes.next character rfl]
      rfl
  | cons first before => rw [scan_cons, scan_cons, resumes.next first rfl]

end QuoteState

namespace TokenKind

/-- Whether a token is a string, or a part of one. -/
def isString :
    TokenKind →
    Bool
  | .quoted => true
  | .quotedPart => true
  | _ => false

end TokenKind

theorem isString_quotedShape
    (quote : Quote)
    (extent : Nat × Bool) :
    (quotedShape quote extent).kind.isString = true := by
  unfold quotedShape
  split <;> rfl

theorem following_quotedShape
    (quote : Quote)
    (extent : Nat × Bool) :
    (quotedShape quote extent).following = extent.1 := by
  unfold quotedShape
  split <;> rfl

theorem closingLength?_le
    {quote : Quote}
    {text : List Char}
    {length : Nat}
    (closes : closingLength? quote text = some length) :
    length ≤ text.length := by
  induction quote, text using closingLength?.induct generalizing length with
  | case1 quote => cases closes
  | case2 rest =>
      cases closes
      simp
  | case3 first rest noQuote inductionHypothesis =>
      rw [closingLength?, if_neg noQuote] at closes
      obtain ⟨count, found, rfl⟩ := Option.map_eq_some_iff.mp closes
      exact Nat.succ_le_succ (inductionHypothesis found)
  | case4 rest =>
      cases closes
      simp
  | case5 => cases closes
  | case6 escaped rest inductionHypothesis =>
      obtain ⟨count, found, rfl⟩ := Option.map_eq_some_iff.mp closes
      exact Nat.succ_le_succ (Nat.succ_le_succ (inductionHypothesis found))
  | case7 first rest noQuote noEnd noPair inductionHypothesis =>
      rw [closingLength?.eq_6 first rest noQuote noEnd noPair] at closes
      obtain ⟨count, found, rfl⟩ := Option.map_eq_some_iff.mp closes
      exact Nat.succ_le_succ (inductionHypothesis found)

/-- In front of its closing quote, a string is scanned from the inside. -/
theorem scan_before_closing
    {quote : Quote}
    {text left right : List Char}
    {length : Nat}
    {character : Char}
    (closes : closingLength? quote text = some length)
    (cut : text.take length = left ++ character :: right) :
    (scan true (ofOpen (some quote)) left).quote? = some quote := by
  refine scan_unclosed ?_
  cases found : closingLength? quote left with
  | none => rfl
  | some earlier =>
      -- A quote that closes the string in what is left of the character closes it in the text.
      have whole : text = left ++ (character :: right ++ text.drop length) := by
        rw [← List.append_assoc, ← cut, List.take_append_drop]
      have same := closingLength?_append found (character :: right ++ text.drop length)
      rw [← whole, closes] at same
      cases same
      have short := closingLength?_le found
      have taken := congrArg List.length cut
      rw [List.length_take, List.length_append, List.length_cons] at taken
      omega

namespace Begins

variable {first : Char} {rest left right : List Char} {shape : LexemeShape} {character : Char}

/-- Outside strings and comments no lexeme has a quote. -/
theorem noQuote
    (begins : Begins first rest shape)
    (noString : shape.kind.isString = false)
    (noComment : shape.kind ≠ .comment) :
    ∀ character ∈ first :: rest.take shape.following, character ≠ '\'' ∧ character ≠ '"' := by
  have ofFirst {following : Nat}
      (first_plain : first ≠ '\'' ∧ first ≠ '"')
      (plain : ∀ character ∈ rest.take following, character ≠ '\'' ∧ character ≠ '"') :
      ∀ character ∈ first :: rest.take following, character ≠ '\'' ∧ character ≠ '"' :=
    List.forall_mem_cons.mpr ⟨first_plain, plain⟩
  have word (start : isWordStart first = true) :
      ∀ character ∈ first :: rest.take (countWhile isWordPart rest),
        character ≠ '\'' ∧ character ≠ '"' := by
    refine ofFirst ?_ fun character member => ?_
    · have part := isWordPart_ne (Bool.and_eq_true_iff.mp start).1
      exact ⟨part.1, part.2.1⟩
    · have part := isWordPart_ne (mem_take_countWhile isWordPart rest character member)
      exact ⟨part.1, part.2.1⟩
  cases begins with
  | newline isFirst => exact ofFirst (isFirst ▸ by decide) nofun
  | leftBrace isFirst => exact ofFirst (isFirst ▸ by decide) nofun
  | rightBrace isFirst => exact ofFirst (isFirst ▸ by decide) nofun
  | comment => exact absurd rfl noComment
  | string => cases noString.symm.trans (isString_quotedShape _ _)
  | operator isMark plain =>
      refine ofFirst ?_ fun character member => (plain character member).2
      constructor <;>
        · rintro rfl
          simp at isMark
  | redirect isMark plain =>
      refine ofFirst ?_ fun character member => (plain character member).2
      constructor <;>
        · rintro rfl
          revert isMark
          decide
  | blank isBlank =>
      refine ofFirst ?_ nofun
      constructor <;>
        · rintro rfl
          cases isBlank
  | keyword start => exact word start
  | word start => exact word start

theorem inString_comment
    (cut : '#' :: rest.take (countWhile (· ≠ '\n') rest) = left ++ character :: right) :
    (scan true .fresh left).inString character = false := by
  have inComment (character : Char) : QuoteState.comment.inString character = false := by
    rw [QuoteState.inString, step]
    split <;> rfl
  cases left with
  | nil =>
      obtain rfl := List.head_eq_of_cons_eq cut
      rfl
  | cons second left =>
      obtain ⟨rfl, behind⟩ := List.cons.inj cut
      have oneLine : ∀ character ∈ left, character ≠ '\n' := by
        intro character member
        have inText := mem_take_countWhile (· ≠ '\n') rest character
          (behind ▸ List.mem_append_left _ member)
        simpa using inText
      change (scan true .comment left).inString character = false
      rw [QuoteState.scan_comment oneLine]
      exact inComment character

theorem inString_string
    {quote : Quote}
    (oneLine : OneLine rest)
    (cut : quote.char :: rest.take (extentOf quote rest).1 = left ++ character :: right) :
    (scan true .fresh left).inString character = true := by
  have opens : step true .fresh quote.char = ofOpen (some quote) := by cases quote <;> rfl
  cases left with
  | nil =>
      obtain rfl := List.head_eq_of_cons_eq cut
      change QuoteState.fresh.inString quote.char = true
      rw [QuoteState.inString, opens, quote?_ofOpen]
      rfl
  | cons second left =>
      obtain ⟨rfl, behind⟩ := List.cons.inj cut
      change _ = left ++ character :: right at behind
      rw [scan_cons, opens]
      have closing := closingLength?_eq quote oneLine
      have inside : (scan true (ofOpen (some quote)) left).quote? = some quote := by
        split at closing
        · exact scan_before_closing closing behind
        next unclosed =>
          have whole :
              rest = left ++ (character :: right ++ rest.drop (extentOf quote rest).1) := by
            rw [← List.append_assoc, ← behind, List.take_append_drop]
          rw [whole] at closing
          exact scan_inside closing
      exact inString_of_open inside character

/-- A character of a lexeme belongs to a string, by the scan, if the lexeme is one. -/
theorem inString_text
    (begins : Begins first rest shape)
    (oneLine : OneLine rest)
    (cut : first :: rest.take shape.following = left ++ character :: right) :
    (scan true .fresh left).inString character = shape.kind.isString := by
  have plain (noString : shape.kind.isString = false) (noComment : shape.kind ≠ .comment) :
      (scan true .fresh left).inString character = shape.kind.isString := by
    have noQuote := begins.noQuote noString noComment
    rw [cut] at noQuote
    have outside : (scan true .fresh left).quote? = none :=
      scan_outside rfl fun other member => noQuote other (List.mem_append_left _ member)
    have last := noQuote character (List.mem_append_right left List.mem_cons_self)
    rw [noString]
    exact inString_of_outside outside last.1 last.2
  cases begins with
  | comment isHash =>
      subst isHash
      exact inString_comment cut
  | string isQuote =>
      subst isQuote
      rw [following_quotedShape] at cut
      rw [isString_quotedShape]
      exact inString_string oneLine cut
  | _ => exact plain rfl nofun

end Begins

/-- What an unclosed string leaves of its line is an escape inside it. -/
theorem LeftOver.inString
    {quote : Quote}
    {rest left right : List Char}
    {character : Char}
    (leftOver : LeftOver quote rest)
    (oneLine : OneLine rest)
    (cut : rest = left ++ character :: right) :
    (scan true (ofOpen (some quote)) left).inString character = true ∧
      (character = '\\' ∨ character = '\n') := by
  rcases leftOver.shape oneLine with rfl | ⟨rfl, newline, isEnd, rfl⟩
  · simp at cut
  · rcases left with _ | ⟨second, left⟩
    · obtain rfl := List.head_eq_of_cons_eq cut
      exact ⟨rfl, .inl rfl⟩
    · obtain ⟨rfl, behind⟩ := List.cons.inj cut
      rcases isEnd with rfl | rfl
      · simp at behind
      · rcases left with _ | ⟨third, left⟩
        · obtain rfl := List.head_eq_of_cons_eq behind
          exact ⟨rfl, .inr rfl⟩
        · simp at behind

/--
Whether the character at a place of a line belongs to a string lexeme. An escape that
the part of a string leaves over does as well, though it has lexemes of its own.
-/
def InStringLexeme
    (lexemes : List Lexeme)
    (place : Nat)
    (character : Char) :
    Prop :=
  (∃ lexeme ∈ lexemes, lexeme.kind.isString = true ∧ lexeme.Covers place) ∨
    (character = '\\' ∨ character = '\n') ∧
      ∃ part ∈ lexemes, part.opens.isSome = true ∧ part.endColumn ≤ place

namespace InStringLexeme

variable {lexeme : Lexeme} {lexemes : List Lexeme} {place : Nat} {character : Char}

/-- Inside a lexeme, its kind decides. -/
theorem cons_inside
    (ordered : ∀ later ∈ lexemes, lexeme.endColumn ≤ later.column)
    (inside : lexeme.Covers place) :
    InStringLexeme (lexeme :: lexemes) place character ↔ lexeme.kind.isString = true := by
  constructor
  · rintro (⟨other, member, isString, covers, _⟩ | ⟨_, part, member, _, ends⟩)
    · rcases List.mem_cons.mp member with rfl | isLater
      · exact isString
      · have apart := Nat.le_trans (ordered other isLater) covers
        exact absurd inside.2 (Nat.not_lt_of_le apart)
    · rcases List.mem_cons.mp member with rfl | isLater
      · exact absurd inside.2 (Nat.not_lt_of_le ends)
      · have apart := ordered part isLater
        rw [Lexeme.endColumn] at ends
        exact absurd inside.2 (by omega)
  · intro isString
    exact .inl ⟨lexeme, List.mem_cons_self, isString, inside⟩

/-- Behind a lexeme that leaves no string open, the later ones decide. -/
theorem cons_behind
    (closed : lexeme.opens = none)
    (behind : lexeme.endColumn ≤ place) :
    InStringLexeme (lexeme :: lexemes) place character ↔
      InStringLexeme lexemes place character := by
  unfold InStringLexeme
  rw [List.exists_mem_cons_iff, List.exists_mem_cons_iff]
  refine or_congr (or_iff_right ?_) (and_congr_right fun _ => or_iff_right ?_)
  · exact fun own => absurd own.2.2 (Nat.not_lt_of_le behind)
  · rw [closed]
    exact fun own => nomatch own.1

end InStringLexeme

/--
The lexemes of a line that begins at a byte column have those characters in strings
that the scan finds there.
-/
def TellsStrings
    (state : QuoteState)
    (column : Nat)
    (line : List Char)
    (lexemes : List Lexeme) :
    Prop :=
  ∀ before character after, line = before ++ character :: after →
    ((scan true state before).inString character = true ↔
      InStringLexeme lexemes (column + Text.byteLength before) character)

namespace TellsStrings

variable {state : QuoteState} {column : Nat} {rest : List Char} {lexeme : Lexeme}
  {lexemes : List Lexeme}

theorem nil
    (state : QuoteState)
    (column : Nat)
    (lexemes : List Lexeme) :
    TellsStrings state column [] lexemes := by
  intro before character after whole
  simp at whole

/-- Characters that the scan passes outside strings may stand in front. -/
theorem skip
    {first : Char}
    (returns : step true .fresh first = .fresh)
    (later : TellsStrings .fresh (column + first.utf8Size) rest lexemes)
    (ordered : ∀ lexeme ∈ lexemes, column + first.utf8Size ≤ lexeme.column) :
    TellsStrings .fresh column (first :: rest) lexemes := by
  intro before character after whole
  rcases before with _ | ⟨second, before⟩
  · obtain ⟨rfl, -⟩ := List.cons.inj whole
    have size := Char.utf8Size_pos first
    refine iff_of_false ?_ ?_
    · change ¬ QuoteState.fresh.inString first = true
      rw [QuoteState.inString, returns]
      exact nofun
    · change ¬ InStringLexeme lexemes column first
      rintro (⟨lexeme, member, _, begins, _⟩ | ⟨_, part, member, _, ends⟩)
      · have apart := ordered lexeme member
        omega
      · have apart := ordered part member
        rw [Lexeme.endColumn] at ends
        omega
  · obtain ⟨rfl, behind⟩ := List.cons.inj whole
    rw [scan_cons, returns, Text.byteLength_cons, ← Nat.add_assoc]
    exact later before character after behind

/-- A lexeme in front tells of its own characters, and lets the others be told as before. -/
theorem cons
    (begins : lexeme.column = column)
    (ordered : ∀ later ∈ lexemes, lexeme.endColumn ≤ later.column)
    (own : ∀ left character right, lexeme.text = left ++ character :: right →
      (scan true state left).inString character = lexeme.kind.isString)
    (passed : lexeme.opens = none → Resumes (scan true state lexeme.text) rest)
    (entered : ∀ {quote}, lexeme.opens = some quote →
      scan true state lexeme.text = ofOpen (some quote) ∧ LeftOver quote rest)
    (oneLine : OneLine rest)
    (later : TellsStrings .fresh lexeme.endColumn rest lexemes) :
    TellsStrings state column (lexeme.text ++ rest) (lexeme :: lexemes) := by
  have behind (inner : List Char) (character : Char) (after : List Char)
      (cut : rest = inner ++ character :: after) :
      (scan true state (lexeme.text ++ inner)).inString character = true ↔
        InStringLexeme (lexeme :: lexemes)
          (column + Text.byteLength (lexeme.text ++ inner)) character := by
    rw [Text.byteLength_append, ← Nat.add_assoc, ← begins, scan_append]
    change _ ↔ InStringLexeme _ (lexeme.endColumn + _) _
    cases opens : lexeme.opens with
    | none =>
        have resumes := passed opens
        rw [cut] at resumes
        rw [resumes.inString, InStringLexeme.cons_behind opens (Nat.le_add_right _ _)]
        exact later inner character after cut
    | some quote =>
        obtain ⟨entered, leftOver⟩ := entered opens
        obtain ⟨inside, escape⟩ := leftOver.inString oneLine cut
        rw [entered]
        refine iff_of_true inside (.inr ⟨escape, lexeme, List.mem_cons_self, ?_, ?_⟩)
        · rw [opens]
          rfl
        · exact Nat.le_add_right _ _
  intro before character after whole
  rcases List.append_eq_append_iff.mp whole with ⟨inner, rfl, cut⟩ | ⟨inner, text, cut⟩
  · exact behind inner character after cut
  · rcases inner with _ | ⟨first, inner⟩
    · have atEnd := behind [] character after cut.symm
      rwa [text, List.append_nil, List.append_nil] at atEnd
    · obtain ⟨rfl, -⟩ := List.cons.inj cut
      rw [own before character inner text]
      refine (InStringLexeme.cons_inside ordered ⟨?_, ?_⟩).symm
      · omega
      · have size := Char.utf8Size_pos character
        rw [Lexeme.endColumn, text, Text.byteLength_append, Text.byteLength_cons]
        omega

end TellsStrings

/-- On one line the lexemes of a text tell of the strings in it. -/
theorem lexemesFrom_tellsStrings
    (column : Nat)
    (text : List Char)
    (oneLine : OneLine text) :
    TellsStrings .fresh column text (lexemesFrom column text) := by
  induction column, text using lexemesFrom.induct with
  | case1 column => exact .nil _ _ _
  | case2 column first rest separates inductionHypothesis =>
      have returns : step true .fresh first = .fresh := by
        simp only [isSeparator, Bool.or_eq_true, decide_eq_true_eq] at separates
        rcases separates with rfl | rfl <;> rfl
      rw [lexemesFrom, if_pos separates]
      exact .skip returns (inductionHypothesis oneLine.of_cons)
        (tiles_lexemesFrom _ _).column_le
  | case3 column first rest notSeparator shape text inductionHypothesis =>
      have solid : isSeparator first = false := by simpa using notSeparator
      have scanned := lexemeShape_scanned first rest
      rw [lexemesFrom_of_not_isSeparator column rest solid]
      rw [← lexeme_append_rest first rest shape.following]
      change TellsStrings .fresh column
        ((lexemeAt column first rest).text ++ rest.drop shape.following) _
      refine .cons rfl (tiles_lexemesFrom _ _).column_le (fun left character right cut => ?_)
        scanned.passes scanned.opened (oneLine.of_cons.drop _)
        (inductionHypothesis (oneLine.of_cons.drop _))
      exact (lexemeShape_begins rest solid).inString_text oneLine.of_cons cut

/-- So they do behind the part that closes a string from an earlier line. -/
theorem closingPart_tellsStrings
    {quote : Quote}
    {text : List Char}
    {length : Nat}
    (closes : closingLength? quote text = some length)
    (oneLine : OneLine text) :
    TellsStrings (ofOpen (some quote)) 0 text
      (⟨.quotedPart, 0, text.take length, none⟩ ::
        lexemesFrom (Text.byteLength (text.take length)) (text.drop length)) := by
  have closed := scan_closing closes
  have ends : (⟨.quotedPart, 0, text.take length, none⟩ : Lexeme).endColumn =
      Text.byteLength (text.take length) :=
    Nat.zero_add _
  have later := lexemesFrom_tellsStrings (Text.byteLength (text.take length))
    (text.drop length) (oneLine.drop length)
  have ordered := (tiles_lexemesFrom (Text.byteLength (text.take length))
    (text.drop length)).column_le
  rw [← ends] at later ordered
  have whole := TellsStrings.cons rfl ordered
    (fun left character right cut =>
      inString_of_open (scan_before_closing closes cut) character)
    (fun _ => closed.symm ▸ .fresh _) (fun opens => by cases opens) (oneLine.drop length) later
  rwa [List.take_append_drop, ends] at whole

/-- And where the line begins in a string that it does not close. -/
theorem continuedPart_tellsStrings
    {quote : Quote}
    {text : List Char}
    (unclosed : closingLength? quote text = none) :
    TellsStrings (ofOpen (some quote)) 0 text [⟨.quotedPart, 0, text, none⟩] := by
  intro before character after whole
  have inside := inString_of_open (scan_inside (whole ▸ unclosed)) character
  refine iff_of_true inside (.inl ⟨_, List.mem_singleton_self _, rfl, Nat.zero_le _, ?_⟩)
  have size := Char.utf8Size_pos character
  rw [Lexeme.endColumn, whole, Text.byteLength_append, Text.byteLength_cons]
  omega

/-- On one line the lexemes tell of the strings, whether or not it begins in one. -/
theorem LineLexer.scan_tellsStrings
    (lexer : LineLexer)
    {text : List Char}
    (oneLine : OneLine text) :
    TellsStrings (ofOpen lexer.openQuote) 0 text (lexer.scan text).1 := by
  obtain ⟨openQuote⟩ := lexer
  cases openQuote with
  | none => exact lexemesFrom_tellsStrings 0 text oneLine
  | some quote =>
      rw [LineLexer.scan]
      dsimp only
      split
      next unclosed => exact continuedPart_tellsStrings unclosed
      next length closes => exact closingPart_tellsStrings closes oneLine

end ShellCore
