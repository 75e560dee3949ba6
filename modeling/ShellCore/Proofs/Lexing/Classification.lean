import ShellCore.Proofs.Lexing.StringPlaces

namespace ShellCore

/-!
# The text of a lexeme tells its kind

Outside strings a keyword is a lexeme with a keyword's text, and a character of
no class is a blank one that neither separates lexemes nor ends a line. Words go
on as far as they can, digits in front of an angle bracket belong to it, and a
newline is a lexeme of its own.
-/

namespace TokenKind

/-- Whether a token is a word; a keyword is one. -/
def isWord :
    TokenKind →
    Bool
  | .word => true
  | .control _ => true
  | _ => false

end TokenKind

/-- The classes of a line's lexemes, told by the line. -/
structure Classified
    (line : List Char)
    (lexemes : List Lexeme) :
    Prop where
  /-- The keywords are the lexemes with a keyword's text. -/
  keyword : ∀ lexeme ∈ lexemes, lexeme.kind.isString = false →
    ∀ keyword, lexeme.kind = .control keyword ↔
      ControlKeyword.ofWord? (String.ofList lexeme.text) = some keyword
  /-- Where a word ends, neither another word nor a comment begins. -/
  maximal : ∀ word ∈ lexemes, word.kind.isWord = true →
    ∀ next ∈ lexemes, next.column = word.endColumn →
      next.kind.isWord = false ∧ next.kind ≠ .comment
  /-- Digits that begin a lexeme in front of an angle bracket belong to its redirection. -/
  descriptor : ∀ lexeme ∈ lexemes, lexeme.kind.isString = false →
    ∀ before digits angle after,
      line = before ++ (digits ++ angle :: after) →
      lexeme.column = Text.byteLength before →
      digits ≠ [] → (∀ digit ∈ digits, digit.isDigit = true) → angle = '<' ∨ angle = '>' →
        lexeme.kind = .redirect ∧ digits ++ [angle] <+: lexeme.text
  /-- What has no class is one blank character that is no space, tab or newline. -/
  unknown : ∀ lexeme ∈ lexemes, lexeme.kind.isString = false →
    (lexeme.kind = .unknown ↔
      ∃ character, lexeme.text = [character] ∧ Text.isBlank character = true ∧
        character ≠ ' ' ∧ character ≠ '\t' ∧ character ≠ '\n')
  /-- A newline stands in a string or is a lexeme. -/
  newline : ∀ before after, line = before ++ '\n' :: after →
    (∃ lexeme ∈ lexemes, lexeme.kind.isString = true ∧ lexeme.Covers (Text.byteLength before)) ∨
      ∃ lexeme ∈ lexemes,
        lexeme.kind = .newline ∧ lexeme.text = ['\n'] ∧ lexeme.column = Text.byteLength before
  /-- A comment goes on to the end of the line or to a newline, which is a lexeme. -/
  comment : ∀ comment ∈ lexemes, comment.kind = .comment →
    '\n' ∉ comment.text ∧
      (comment.endColumn = Text.byteLength line ∨
        ∃ lexeme ∈ lexemes,
          lexeme.kind = .newline ∧ lexeme.text = ['\n'] ∧ lexeme.column = comment.endColumn)

theorem ControlKeyword.ofWord?_eq_some_iff
    {word : String}
    {keyword : ControlKeyword} :
    ofWord? word = some keyword ↔ word = keyword.word := by
  constructor
  · intro written
    unfold ofWord? at written
    split at written
    next same => exact Option.some.inj written ▸ same
    split at written
    next same => exact Option.some.inj written ▸ same
    split at written
    next same => exact Option.some.inj written ▸ same
    cases written
  · rintro rfl
    exact ofWord?_word keyword

/-- A keyword begins with a letter. -/
theorem isWordStart_of_ofWord?
    {first : Char}
    {following : List Char}
    {keyword : ControlKeyword}
    (written : ControlKeyword.ofWord? (String.ofList (first :: following)) = some keyword) :
    isWordStart first = true ∧ first.isDigit = false := by
  have spelled := congrArg String.toList (ControlKeyword.ofWord?_eq_some_iff.mp written)
  rw [String.toList_ofList] at spelled
  cases keyword
  all_goals
    obtain rfl := List.head_eq_of_cons_eq spelled
    decide

theorem not_isWordStart_of_isBlank
    {character : Char}
    (blank : Text.isBlank character = true) :
    isWordStart character = false := by
  simp [isWordStart, isWordPart, isWordBreak, blank]

/-- The characters that begin a lexeme other than a word wherever they stand. -/
def marks : List Char :=
  ['\x7b', '\x7d', '#', '\'', '"', '(', ')', '|', ';', '&', '<', '>']

theorem marks_plain :
    ∀ mark ∈ marks,
      isWordStart mark = false ∧ Text.isBlank mark = false ∧ mark ≠ '\n' := by
  have checked :
      (marks.all fun mark => !isWordStart mark && (!Text.isBlank mark && mark != '\n')) = true := by
    decide
  simpa only [List.all_eq_true, Bool.and_eq_true, Bool.not_eq_true', bne_iff_ne] using checked

namespace Begins

variable {first : Char} {rest : List Char} {shape : LexemeShape}

/-- What the class of the first character says of a lexeme. -/
theorem first_cases
    (begins : Begins first rest shape) :
    first ∈ marks ∨
      (first = '\n' ∧ shape.kind = .newline ∧ shape.following = 0) ∨
        (Text.isBlank first = true ∧ first ≠ '\n' ∧ shape.kind = .unknown) ∨
          (first.isDigit = true ∧ shape.kind = .redirect) ∨
            (isWordStart first = true ∧ shape.kind.isWord = true) := by
  have angles : ∀ mark ∈ ['<', '>', '&'], mark ∈ marks := by simp [marks]
  have operators : ∀ mark ∈ ['(', ')', '|', ';', '&'], mark ∈ marks := by simp [marks]
  cases begins with
  | newline isNewline => exact .inr (.inl ⟨isNewline, rfl, rfl⟩)
  | leftBrace isLeft => exact .inl (isLeft ▸ by decide)
  | rightBrace isRight => exact .inl (isRight ▸ by decide)
  | comment isHash => exact .inl (isHash ▸ by decide)
  | @string quote isQuote => exact .inl (isQuote ▸ by cases quote <;> decide)
  | operator isMark => exact .inl (operators first isMark)
  | redirect isMark =>
      rcases isMark with isMark | digit
      · exact .inl (angles first isMark)
      · exact .inr (.inr (.inr (.inl ⟨digit, rfl⟩)))
  | blank isBlank _ noNewline => exact .inr (.inr (.inl ⟨isBlank, noNewline, rfl⟩))
  | keyword start => exact .inr (.inr (.inr (.inr ⟨start, rfl⟩)))
  | word start => exact .inr (.inr (.inr (.inr ⟨start, rfl⟩)))

/-- Nothing but a word begins with a letter. -/
theorem isWord
    (begins : Begins first rest shape)
    (start : isWordStart first = true)
    (noDigit : first.isDigit = false) :
    shape.kind.isWord = true := by
  rcases begins.first_cases with
    isMark | ⟨isNewline, _⟩ | ⟨isBlank, _⟩ | ⟨digit, _⟩ | ⟨_, isWord⟩
  · cases (marks_plain first isMark).1.symm.trans start
  · subst isNewline
    cases start
  · cases (not_isWordStart_of_isBlank isBlank).symm.trans start
  · cases noDigit.symm.trans digit
  · exact isWord

/-- A lexeme is the keyword that its text is. -/
theorem keyword_iff
    (begins : Begins first rest shape)
    (noString : shape.kind.isString = false)
    (keyword : ControlKeyword) :
    shape.kind = .control keyword ↔
      ControlKeyword.ofWord? (String.ofList (first :: rest.take shape.following)) =
        some keyword := by
  constructor
  · intro isKeyword
    cases begins with
    | keyword start written =>
        cases isKeyword
        exact written
    | string => cases noString.symm.trans (isString_quotedShape _ _)
    | _ => cases isKeyword
  · intro written
    obtain ⟨start, noDigit⟩ := isWordStart_of_ofWord? written
    have isWord := begins.isWord start noDigit
    cases begins with
    | keyword start known =>
        exact congrArg TokenKind.control (Option.some.inj (known.symm.trans written))
    | word start plain => cases plain.symm.trans written
    | string => cases noString.symm.trans (isString_quotedShape _ _)
    | _ => cases isWord

/-- A word goes on until a character that no word has. -/
theorem word_ends
    (begins : Begins first rest shape)
    (noString : shape.kind.isString = false)
    (isWord : shape.kind.isWord = true) :
    ∀ character,
      (rest.drop shape.following).head? = some character → isWordPart character = false := by
  cases begins with
  | keyword => exact head_drop_countWhile isWordPart rest
  | word => exact head_drop_countWhile isWordPart rest
  | string => cases noString.symm.trans (isString_quotedShape _ _)
  | _ => cases isWord

/-- Words and comments begin with a character that words can have. -/
theorem isWordPart_first
    (begins : Begins first rest shape)
    (noString : shape.kind.isString = false)
    (isWord : shape.kind.isWord = true ∨ shape.kind = .comment) :
    isWordPart first = true := by
  have part_of_start : isWordStart first = true → isWordPart first = true := by
    intro start
    exact (Bool.and_eq_true_iff.mp start).1
  cases begins with
  | keyword start => exact part_of_start start
  | word start => exact part_of_start start
  | comment isHash =>
      subst isHash
      rfl
  | string => cases noString.symm.trans (isString_quotedShape _ _)
  | _ => rcases isWord with same | same <;> cases same

/-- What has no class is one blank character. -/
theorem unknown_iff
    (begins : Begins first rest shape)
    (solid : isSeparator first = false)
    (noString : shape.kind.isString = false) :
    shape.kind = .unknown ↔
      ∃ character, first :: rest.take shape.following = [character] ∧
        Text.isBlank character = true ∧
          character ≠ ' ' ∧ character ≠ '\t' ∧ character ≠ '\n' := by
  constructor
  · intro isUnknown
    cases begins with
    | blank isBlank _ noNewline =>
        simp only [isSeparator, Bool.or_eq_false_iff, decide_eq_false_iff_not] at solid
        exact ⟨first, rfl, isBlank, solid.1, solid.2, noNewline⟩
    | string => cases noString.symm.trans (isString_quotedShape _ _)
    | _ => cases isUnknown
  · rintro ⟨character, single, isBlank, -, -, noNewline⟩
    obtain rfl := List.head_eq_of_cons_eq single
    rcases begins.first_cases with
      isMark | ⟨isNewline, _⟩ | ⟨_, _, isUnknown⟩ | ⟨digit, _⟩ | ⟨start, _⟩
    · cases (marks_plain first isMark).2.1.symm.trans isBlank
    · exact absurd isNewline noNewline
    · exact isUnknown
    · cases (isBlank_of_isWordPart (isWordPart_of_isDigit digit)).symm.trans isBlank
    · cases (not_isWordStart_of_isBlank isBlank).symm.trans start

theorem newline_first
    (begins : Begins first rest shape)
    (isNewline : first = '\n') :
    shape.kind = .newline ∧ shape.following = 0 := by
  subst isNewline
  rcases begins.first_cases with
    isMark | ⟨_, isNewline⟩ | ⟨_, noNewline, _⟩ | ⟨digit, _⟩ | ⟨start, _⟩
  · exact absurd rfl (marks_plain '\n' isMark).2.2
  · exact isNewline
  · exact absurd rfl noNewline
  · cases digit
  · cases start

/-- Behind its first character no lexeme but a string has a newline. -/
theorem newline_notMem
    (begins : Begins first rest shape)
    (noString : shape.kind.isString = false) :
    '\n' ∉ rest.take shape.following := by
  have noWord : '\n' ∉ rest.take (countWhile isWordPart rest) := by
    intro member
    cases mem_take_countWhile isWordPart rest '\n' member
  cases begins with
  | comment =>
      intro member
      have inside := mem_take_countWhile (· ≠ '\n') rest '\n' member
      simp at inside
  | string => cases noString.symm.trans (isString_quotedShape _ _)
  | operator _ plain => exact fun member => (plain '\n' member).1 rfl
  | redirect _ plain => exact fun member => (plain '\n' member).1 rfl
  | keyword => exact noWord
  | word => exact noWord
  | _ => exact List.not_mem_nil

/-- The only lexeme outside strings with a newline is the newline itself. -/
theorem newline_of_mem
    (begins : Begins first rest shape)
    (noString : shape.kind.isString = false)
    (member : '\n' ∈ first :: rest.take shape.following) :
    shape.kind = .newline ∧ first :: rest.take shape.following = ['\n'] := by
  rcases List.mem_cons.mp member with isNewline | member
  · obtain ⟨kind, alone⟩ := begins.newline_first isNewline.symm
    rw [alone, ← isNewline]
    exact ⟨kind, rfl⟩
  · exact absurd member (begins.newline_notMem noString)

/-- A comment goes on until a newline. -/
theorem comment_ends
    (begins : Begins first rest shape)
    (isComment : shape.kind = .comment) :
    '\n' ∉ first :: rest.take shape.following ∧
      ∀ character, (rest.drop shape.following).head? = some character → character = '\n' := by
  have noString : shape.kind.isString = false := by
    rw [isComment]
    rfl
  constructor
  · intro member
    cases isComment.symm.trans (begins.newline_of_mem noString member).1
  · cases begins with
    | comment =>
        intro character isNext
        simpa using head_drop_countWhile (· ≠ '\n') rest character isNext
    | string => cases noString.symm.trans (isString_quotedShape _ _)
    | _ => cases isComment

end Begins

/-- Leading digits are counted up to the first character that is none. -/
theorem countWhile_append
    {holds : Char → Bool}
    {leading : List Char}
    {next : Char}
    (later : List Char)
    (all : ∀ character ∈ leading, holds character = true)
    (ends : holds next = false) :
    countWhile holds (leading ++ next :: later) = leading.length := by
  rw [countWhile, List.takeWhile_append_of_pos all, List.takeWhile_cons_of_neg (by simp [ends]),
    List.append_nil]

/-- Digits in front of an angle bracket are its descriptor. -/
theorem descriptorShape?_digits
    {digits : List Char}
    {angle : Char}
    (after : List Char)
    (allDigits : ∀ digit ∈ digits, digit.isDigit = true)
    (isAngle : angle = '<' ∨ angle = '>') :
    descriptorShape? (digits ++ angle :: after) =
      some (.plain .redirect (digits.length + 1 + angleFollowing angle after)) := by
  have ends : angle.isDigit = false := by
    rcases isAngle with rfl | rfl <;> rfl
  simp only [descriptorShape?, countWhile_append after allDigits ends, List.drop_left]
  rcases isAngle with rfl | rfl <;> rfl

theorem lexemeShape_digit
    {first : Char}
    (rest : List Char)
    (digit : first.isDigit = true) :
    lexemeShape first rest = (descriptorShape? rest).getD (wordShape first rest) := by
  have noMark : ∀ mark, mark.isDigit = false → first ≠ mark := by
    rintro mark noDigit rfl
    cases noDigit.symm.trans digit
  have noBlank := isBlank_of_isWordPart (isWordPart_of_isDigit digit)
  simp [lexemeShape, digit, noBlank, noMark '\n' rfl, noMark '\x7b' rfl, noMark '\x7d' rfl,
    noMark '#' rfl, noMark '\'' rfl, noMark '"' rfl, noMark '(' rfl, noMark ')' rfl,
    noMark '|' rfl, noMark ';' rfl, noMark '&' rfl, noMark '<' rfl, noMark '>' rfl]

/-- Digits that begin a lexeme in front of an angle bracket belong to its redirection. -/
theorem lexemeShape_descriptor
    {first angle : Char}
    {digits after : List Char}
    (allDigits : ∀ digit ∈ first :: digits, digit.isDigit = true)
    (isAngle : angle = '<' ∨ angle = '>') :
    lexemeShape first (digits ++ angle :: after) =
      .plain .redirect (digits.length + 1 + angleFollowing angle after) := by
  obtain ⟨digit, others⟩ := List.forall_mem_cons.mp allDigits
  rw [lexemeShape_digit _ digit, descriptorShape?_digits after others isAngle, Option.getD_some]

/-- A text is cut at a byte column in one way only. -/
theorem Text.append_inj_of_byteLength
    {first second behindFirst behindSecond : List Char}
    (same : first ++ behindFirst = second ++ behindSecond)
    (level : byteLength first = byteLength second) :
    first = second ∧ behindFirst = behindSecond := by
  obtain ⟨inner, rfl, rest⟩ := append_of_byteLength_le same (Nat.le_of_eq level)
  have empty : inner = [] := by
    refine Decidable.byContradiction fun nonempty => ?_
    have positive := byteLength_pos nonempty
    rw [byteLength_append] at level
    omega
  subst empty
  exact ⟨(List.append_nil first).symm, rest⟩

/-- A character that separates no lexemes stands in one. -/
theorem Tiles.exists_of_solid
    {column : Nat}
    {characters : List Char}
    {lexemes : List Lexeme}
    (tiles : Tiles column characters lexemes)
    {before after : List Char}
    {character : Char}
    (whole : characters = before ++ character :: after)
    (solid : isSeparator character = false) :
    ∃ lexeme ∈ lexemes, ∃ left right,
      lexeme.text = left ++ character :: right ∧
        lexeme.column + Text.byteLength left = column + Text.byteLength before := by
  induction tiles generalizing before with
  | done => simp at whole
  | @separator column first rest lexemes separates tiles inductionHypothesis =>
      cases before with
      | nil =>
          obtain ⟨rfl, rfl⟩ := List.cons.inj whole
          cases solid.symm.trans separates
      | cons second before =>
          obtain ⟨rfl, rfl⟩ := List.cons.inj whole
          obtain ⟨lexeme, member, left, right, text, place⟩ := inductionHypothesis rfl
          refine ⟨lexeme, member, left, right, text, ?_⟩
          rw [place, Text.byteLength_cons, Nat.add_assoc]
  | @lexeme column kind text opens rest lexemes tiles inductionHypothesis =>
      rcases List.append_eq_append_iff.mp whole with ⟨inner, rfl, behind⟩ | ⟨inner, rfl, behind⟩
      · obtain ⟨lexeme, member, left, right, text, place⟩ := inductionHypothesis behind
        refine ⟨lexeme, List.mem_cons_of_mem _ member, left, right, text, ?_⟩
        rw [place, Text.byteLength_append, Nat.add_assoc]
      · cases inner with
        | nil =>
            obtain ⟨lexeme, member, left, right, text, place⟩ := @inductionHypothesis [] behind.symm
            refine ⟨lexeme, List.mem_cons_of_mem _ member, left, right, text, ?_⟩
            simpa using place
        | cons second inner =>
            obtain ⟨rfl, rfl⟩ := List.cons.inj behind
            exact ⟨_, List.mem_cons_self, before, inner, rfl, rfl⟩

namespace LineLexer

variable {lexer : LineLexer} {text : List Char} {lexeme : Lexeme}

/-- A lexeme of a line outside strings is what the line begins at its column. -/
theorem exists_beginsAt
    (member : lexeme ∈ (lexer.scan text).1)
    (noString : lexeme.kind.isString = false) :
    ∃ before first rest,
      lexeme.BeginsAt 0 text (lexer.scan text).1 before first rest := by
  refine (lexer.scan_begins text lexeme member).resolve_left fun isPart => ?_
  rw [isPart] at noString
  cases noString

/-- What begins where a lexeme ends begins with the character behind that lexeme. -/
theorem head_behind
    {next : Lexeme}
    {before rest nextBefore nextRest : List Char}
    {first nextFirst : Char}
    {lexemes : List Lexeme}
    (beginsAt : lexeme.BeginsAt 0 text lexemes before first rest)
    (nextBeginsAt : next.BeginsAt 0 text lexemes nextBefore nextFirst nextRest)
    (adjacent : next.column = lexeme.endColumn) :
    (rest.drop (lexemeShape first rest).following).head? = some nextFirst := by
  have level : Text.byteLength (before ++ lexeme.text) = Text.byteLength nextBefore := by
    rw [Lexeme.endColumn, beginsAt.column_eq, nextBeginsAt.column_eq, Nat.zero_add,
      Nat.zero_add] at adjacent
    rw [Text.byteLength_append, adjacent]
  have behind := Text.append_inj_of_byteLength (beginsAt.cut.symm.trans nextBeginsAt.whole) level
  rw [behind.2]
  rfl

theorem isString_of_isWord
    {kind : TokenKind}
    (isWord : kind.isWord = true) :
    kind.isString = false := by
  cases kind <;> first | rfl | cases isWord

theorem scan_maximal
    {next : Lexeme}
    (member : lexeme ∈ (lexer.scan text).1)
    (isWord : lexeme.kind.isWord = true)
    (nextMember : next ∈ (lexer.scan text).1)
    (adjacent : next.column = lexeme.endColumn) :
    next.kind.isWord = false ∧ next.kind ≠ .comment := by
  have noString := isString_of_isWord isWord
  obtain ⟨before, first, rest, beginsAt⟩ := exists_beginsAt member noString
  rw [beginsAt.kind] at isWord noString
  have ends := beginsAt.begins.word_ends noString isWord
  -- Neither a word nor a comment can begin with the character that ended the word.
  have noPart :
      next.kind.isString = false → ¬ (next.kind.isWord = true ∨ next.kind = .comment) := by
    intro nextNoString partKind
    obtain ⟨nextBefore, nextFirst, nextRest, nextBeginsAt⟩ :=
      exists_beginsAt nextMember nextNoString
    have ending := ends nextFirst (head_behind beginsAt nextBeginsAt adjacent)
    rw [nextBeginsAt.kind] at nextNoString partKind
    cases ending.symm.trans (nextBeginsAt.begins.isWordPart_first nextNoString partKind)
  constructor
  · exact Bool.eq_false_iff.mpr fun nextIsWord =>
      noPart (isString_of_isWord nextIsWord) (.inl nextIsWord)
  · exact fun isComment => noPart (by rw [isComment]; rfl) (.inr isComment)

theorem scan_descriptor
    {before digits after : List Char}
    {angle : Char}
    (member : lexeme ∈ (lexer.scan text).1)
    (noString : lexeme.kind.isString = false)
    (whole : text = before ++ (digits ++ angle :: after))
    (column : lexeme.column = Text.byteLength before)
    (nonempty : digits ≠ [])
    (allDigits : ∀ digit ∈ digits, digit.isDigit = true)
    (isAngle : angle = '<' ∨ angle = '>') :
    lexeme.kind = .redirect ∧ digits ++ [angle] <+: lexeme.text := by
  obtain ⟨otherBefore, first, rest, beginsAt⟩ := exists_beginsAt member noString
  have level : Text.byteLength otherBefore = Text.byteLength before := by
    rw [← column, beginsAt.column_eq, Nat.zero_add]
  obtain ⟨-, fromHere⟩ := Text.append_inj_of_byteLength (beginsAt.whole.symm.trans whole) level
  obtain ⟨digit, digits, rfl⟩ := List.exists_cons_of_ne_nil nonempty
  obtain ⟨rfl, behind⟩ := List.cons.inj fromHere
  have shape : lexemeShape first rest =
      .plain .redirect (digits.length + 1 + angleFollowing angle after) := by
    rw [behind]
    exact lexemeShape_descriptor allDigits isAngle
  rw [beginsAt.kind, beginsAt.text_eq, shape]
  refine ⟨rfl, (List.prefix_cons_inj first).mpr ?_⟩
  have regrouped : rest = (digits ++ [angle]) ++ after := by
    rw [behind, List.append_assoc]
    rfl
  have length : digits.length + 1 = (digits ++ [angle]).length := by simp
  change digits ++ [angle] <+: rest.take (digits.length + 1 + angleFollowing angle after)
  rw [regrouped, length, List.take_length_add_append]
  exact List.prefix_append _ _

/-- A newline of a line stands in a string, or is a lexeme. -/
theorem scan_newline
    {before after : List Char}
    (whole : text = before ++ '\n' :: after) :
    (∃ lexeme ∈ (lexer.scan text).1,
      lexeme.kind.isString = true ∧ lexeme.Covers (Text.byteLength before)) ∨
      ∃ lexeme ∈ (lexer.scan text).1,
        lexeme.kind = .newline ∧ lexeme.text = ['\n'] ∧
          lexeme.column = Text.byteLength before := by
  obtain ⟨lexeme, member, left, right, contains, place⟩ :=
    (lexer.tiles_scan text).exists_of_solid whole rfl
  rw [Nat.zero_add] at place
  cases isString : lexeme.kind.isString with
  | true =>
      refine .inl ⟨lexeme, member, isString, by omega, ?_⟩
      have size := Char.utf8Size_pos '\n'
      rw [Lexeme.endColumn, contains, Text.byteLength_append, Text.byteLength_cons]
      omega
  | false =>
      obtain ⟨_, first, rest, beginsAt⟩ := exists_beginsAt member isString
      have inText : '\n' ∈ lexeme.text := by
        rw [contains]
        exact List.mem_append_right left List.mem_cons_self
      rw [beginsAt.text_eq] at inText
      rw [beginsAt.kind] at isString
      obtain ⟨kind, alone⟩ := beginsAt.begins.newline_of_mem isString inText
      rw [← beginsAt.text_eq] at alone
      rw [alone] at contains
      obtain rfl : left = [] := by
        cases left with
        | nil => rfl
        | cons first left => simp at contains
      exact .inr ⟨lexeme, member, beginsAt.kind.trans kind, alone, place⟩

/-- A comment goes on to the end of the line, or to a newline. -/
theorem scan_comment
    (member : lexeme ∈ (lexer.scan text).1)
    (isComment : lexeme.kind = .comment) :
    '\n' ∉ lexeme.text ∧
      (lexeme.endColumn = Text.byteLength text ∨
        ∃ newline ∈ (lexer.scan text).1,
          newline.kind = .newline ∧ newline.text = ['\n'] ∧
            newline.column = lexeme.endColumn) := by
  obtain ⟨before, first, rest, beginsAt⟩ := exists_beginsAt member (by rw [isComment]; rfl)
  have cut := beginsAt.cut
  have followed := beginsAt.followed
  rw [beginsAt.kind] at isComment
  obtain ⟨noNewline, ends⟩ := beginsAt.begins.comment_ends isComment
  refine ⟨beginsAt.text_eq ▸ noNewline, ?_⟩
  cases behind : rest.drop (lexemeShape first rest).following with
  | nil =>
      rw [behind, List.append_nil] at cut
      refine .inl ?_
      rw [Lexeme.endColumn, beginsAt.column_eq, Nat.zero_add, cut, Text.byteLength_append]
  | cons character later =>
      obtain rfl := ends character (by rw [behind]; rfl)
      rw [behind, lexemesFrom_of_not_isSeparator _ _ rfl] at followed
      refine .inr ⟨_, followed.subset (List.mem_cons_of_mem _ List.mem_cons_self), rfl, rfl, rfl⟩

/-- The line tells the classes of its lexemes. -/
theorem scan_classified
    (lexer : LineLexer)
    (text : List Char) :
    Classified text (lexer.scan text).1 where
  keyword lexeme member noString keyword := by
    obtain ⟨before, first, rest, beginsAt⟩ := exists_beginsAt member noString
    rw [beginsAt.kind] at noString
    rw [beginsAt.kind, beginsAt.text_eq]
    exact beginsAt.begins.keyword_iff noString keyword
  maximal word member isWord next nextMember adjacent :=
    scan_maximal member isWord nextMember adjacent
  descriptor lexeme member noString before digits angle after whole column nonempty allDigits
      isAngle :=
    scan_descriptor member noString whole column nonempty allDigits isAngle
  unknown lexeme member noString := by
    obtain ⟨before, first, rest, beginsAt⟩ := exists_beginsAt member noString
    rw [beginsAt.kind] at noString
    rw [beginsAt.kind, beginsAt.text_eq]
    exact beginsAt.begins.unknown_iff beginsAt.solid noString
  newline before after whole := scan_newline whole
  comment comment member isComment := scan_comment member isComment

/--
The tokens of a line record lexemes whose classes the line tells. On a physical line
the scan for quotes tells which of them are strings.
-/
theorem feedLine_classifies
    {next : LineLexer}
    {arena after : Arena}
    {text : String}
    {number : Nat}
    {lexed : LexedLine}
    (fed : lexer.feedLine arena text number = (.ok lexed, next, after)) :
    ∃ tokens,
      HoldsLexemes after lexed text tokens (lexer.scan text.toList).1 ∧
        Classified text.toList (lexer.scan text.toList).1 ∧
          (OneLine text.toList →
            TellsStrings (QuoteState.ofOpen lexer.openQuote) 0 text.toList
              (lexer.scan text.toList).1) := by
  obtain ⟨_, tokens, holds, -⟩ := feedLine_accepted fed
  exact ⟨tokens, holds, lexer.scan_classified text.toList, lexer.scan_tellsStrings⟩

/-- A line with a keyword, a descriptor, a word with a `#` in it, a blank and a comment. -/
theorem mixed_line_is_classified :
    ∃ lexed next after tokens lexemes,
      LineLexer.start.feedLine (Arena.empty.openSource .interactive).2
          "return;12>a#b\u00a0#c\n" 1 =
        (.ok lexed, next, after) ∧
      lexemes =
        [⟨.control .returnCall, 0, ['r', 'e', 't', 'u', 'r', 'n'], none⟩,
          ⟨.operator, 6, [';'], none⟩,
          ⟨.redirect, 7, ['1', '2', '>'], none⟩,
          ⟨.word, 10, ['a', '#', 'b'], none⟩,
          ⟨.unknown, 13, ['\u00a0'], none⟩,
          ⟨.comment, 15, ['#', 'c'], none⟩,
          ⟨.newline, 17, ['\n'], none⟩] ∧
      HoldsLexemes after lexed "return;12>a#b\u00a0#c\n" tokens lexemes ∧
      Classified "return;12>a#b\u00a0#c\n".toList lexemes ∧
      TellsStrings .fresh 0 "return;12>a#b\u00a0#c\n".toList lexemes := by
  obtain ⟨lexed, next, after, fed⟩ :=
    feedLine_start_succeeds "return;12>a#b\u00a0#c\n" (by decide +kernel)
  obtain ⟨tokens, holds, classified, told⟩ := feedLine_classifies fed
  have oneLine : OneLine "return;12>a#b\u00a0#c\n".toList := oneLine_of_only (by decide +kernel)
  exact ⟨lexed, next, after, tokens, _, fed, by decide +kernel, holds, classified, told oneLine⟩

end LineLexer

end ShellCore
