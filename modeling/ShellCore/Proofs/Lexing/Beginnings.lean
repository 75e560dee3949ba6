import ShellCore.Proofs.Lexing.QuoteLexemes
import ShellCore.Proofs.Lexing.Tiling

namespace ShellCore

/-!
# How lexemes begin

A lexeme is decided by the characters from its own first one on. The patterns
that compete for these characters come down to one case for each class of first
character, so that what holds of every lexeme is judged case by case.
-/

theorem isBlank_of_isWordPart
    {character : Char}
    (part : isWordPart character = true) :
    Text.isBlank character = false := by
  simp only [isWordPart, isWordBreak, Bool.not_eq_true', Bool.or_eq_false_iff] at part
  exact part.1

/-- The extent of a string behind its opening quote, and whether it is closed there. -/
def extentOf :
    Quote →
    List Char →
    Nat × Bool
  | .single => singleQuotedLength
  | .double => doubleQuotedLength

/-- Characters none of which ends a line or is a quote. -/
def ArePlain
    (characters : List Char) :
    Prop :=
  ∀ character ∈ characters, character ≠ '\n' ∧ character ≠ '\'' ∧ character ≠ '"'

/-- The ways in which a character and what follows it begin a lexeme. -/
inductive Begins (first : Char) (rest : List Char) : LexemeShape → Prop where
  | newline :
      first = '\n' →
      Begins first rest (.plain .newline 0)
  | leftBrace :
      first = '\x7b' →
      Begins first rest (.plain .leftBrace 0)
  | rightBrace :
      first = '\x7d' →
      Begins first rest (.plain .rightBrace 0)
  | comment :
      first = '#' →
      Begins first rest (.plain .comment (countWhile (· ≠ '\n') rest))
  | string {quote : Quote} :
      first = quote.char →
      Begins first rest (quotedShape quote (extentOf quote rest))
  | operator {following : Nat} :
      first ∈ ['(', ')', '|', ';', '&'] →
      ArePlain (rest.take following) →
      Begins first rest (.plain .operator following)
  | redirect {following : Nat} :
      first ∈ ['<', '>', '&'] ∨ first.isDigit = true →
      ArePlain (rest.take following) →
      Begins first rest (.plain .redirect following)
  | blank :
      Text.isBlank first = true →
      isSeparator first = false →
      first ≠ '\n' →
      Begins first rest (.plain .unknown 0)
  | keyword {keyword : ControlKeyword} :
      isWordStart first = true →
      ControlKeyword.ofWord?
          (String.ofList (first :: rest.take (countWhile isWordPart rest))) = some keyword →
      Begins first rest (.plain (.control keyword) (countWhile isWordPart rest))
  | word :
      isWordStart first = true →
      ControlKeyword.ofWord?
          (String.ofList (first :: rest.take (countWhile isWordPart rest))) = none →
      Begins first rest (.plain .word (countWhile isWordPart rest))

theorem Begins.choice
    {first : Char}
    {rest : List Char}
    {shape other : LexemeShape}
    {condition : Prop}
    [Decidable condition]
    (holds : condition → Begins first rest shape)
    (fails : ¬ condition → Begins first rest other) :
    Begins first rest (if condition then shape else other) := by
  split
  next true_condition => exact holds true_condition
  next false_condition => exact fails false_condition

theorem wordShape_begins
    {first : Char}
    (rest : List Char)
    (start : isWordStart first = true) :
    Begins first rest (wordShape first rest) := by
  simp only [wordShape]
  split
  next keyword written => exact .keyword start written
  next plain => exact .word start plain

/-- What continues an angle bracket stands on its line, and is no quote. -/
theorem angleFollowing_plain
    (angle : Char)
    (rest : List Char) :
    ArePlain (rest.take (angleFollowing angle rest)) := by
  unfold angleFollowing
  split <;> try split
  all_goals simp [ArePlain]

/-- A descriptor and its operator stand on one line, and have no quotes. -/
theorem descriptorShape?_begins
    {first : Char}
    {rest : List Char}
    {shape : LexemeShape}
    (digit : first.isDigit = true)
    (found : descriptorShape? rest = some shape) :
    Begins first rest shape := by
  have digits : ArePlain (rest.take (countWhile Char.isDigit rest)) := by
    intro character member
    have isDigit := mem_take_countWhile Char.isDigit rest character member
    refine ⟨?_, ?_, ?_⟩ <;>
      · rintro rfl
        cases isDigit
  have plain :
      ∀ {angle operator},
        rest.drop (countWhile Char.isDigit rest) = angle :: operator → ArePlain [angle] →
          ArePlain
            (rest.take (countWhile Char.isDigit rest + 1 + angleFollowing angle operator)) := by
    intro angle operator behind angle_plain character member
    rw [Nat.add_assoc, List.take_add, behind, Nat.add_comm 1, List.take_succ_cons] at member
    rcases List.mem_append.mp member with inDigits | behindDigits
    · exact digits character inDigits
    · rcases List.mem_cons.mp behindDigits with rfl | inOperator
      · exact angle_plain character List.mem_cons_self
      · exact angleFollowing_plain angle operator character inOperator
  simp only [descriptorShape?] at found
  split at found
  next operator behind =>
    cases found
    exact .redirect (.inr digit) (plain behind (by simp [ArePlain]))
  next operator behind =>
    cases found
    exact .redirect (.inr digit) (plain behind (by simp [ArePlain]))
  · cases found

theorem ampersandShape_begins
    (rest : List Char) :
    Begins '&' rest (ampersandShape rest) := by
  unfold ampersandShape
  split
  · exact .operator (by simp) (by simp [ArePlain])
  · exact .redirect (.inl (by simp)) (by simp [ArePlain])
  · exact .operator (by simp) (by simp [ArePlain])

theorem doubledShape_begins
    {first : Char}
    (rest : List Char)
    (doubled : first = '|' ∨ first = ';') :
    Begins first rest (doubledShape first rest) := by
  refine .operator (by rcases doubled with rfl | rfl <;> simp) ?_
  split
  next again =>
    cases rest with
    | nil => cases again
    | cons second rest =>
        cases again
        rcases doubled with rfl | rfl <;> simp [ArePlain]
  · simp [ArePlain]

/-- A character that does not separate lexemes begins one in one of these ways. -/
theorem lexemeShape_begins
    {first : Char}
    (rest : List Char)
    (solid : isSeparator first = false) :
    Begins first rest (lexemeShape first rest) := by
  unfold lexemeShape
  refine .choice .newline fun noNewline => ?_
  refine .choice .leftBrace fun noLeft => ?_
  refine .choice .rightBrace fun noRight => ?_
  refine .choice .comment fun noHash => ?_
  refine .choice (@Begins.string first rest .single) fun noSingle => ?_
  refine .choice (@Begins.string first rest .double) fun noDouble => ?_
  refine .choice (fun isGroup => ?_) fun noGroup => ?_
  · exact .operator (by rcases isGroup with rfl | rfl <;> simp) (by simp [ArePlain])
  refine .choice (doubledShape_begins rest) fun noDoubled => ?_
  refine .choice (fun isAmpersand => isAmpersand ▸ ampersandShape_begins rest) fun noAmpersand => ?_
  refine .choice (fun isAngle => ?_) fun noAngle => ?_
  · exact .redirect (.inl (by rcases isAngle with rfl | rfl <;> simp))
      (angleFollowing_plain first rest)
  refine .choice (fun isBlank => .blank isBlank solid noNewline) fun noBlank => ?_
  have start : isWordStart first = true := by
    rw [not_or] at noGroup noDoubled noAngle
    simp [isWordStart, isWordPart, isWordBreak, noLeft, noRight, noHash, noSingle, noDouble,
      noGroup, noDoubled, noAmpersand, noAngle, noBlank]
  refine .choice (fun digit => ?_) fun _ => wordShape_begins rest start
  cases found : descriptorShape? rest with
  | none => exact wordShape_begins rest start
  | some shape => exact descriptorShape?_begins digit found

/-- The lexeme that a character and what follows it begin at a column. -/
def lexemeAt
    (column : Nat)
    (first : Char)
    (rest : List Char) :
    Lexeme where
  kind := (lexemeShape first rest).kind
  column := column
  text := first :: rest.take (lexemeShape first rest).following
  opens := (lexemeShape first rest).opens

/--
Where a lexeme begins in a text, whose first column is given: it is what the text
from there on begins, and the lexemes of what follows it come after it.
-/
structure Lexeme.BeginsAt
    (lexeme : Lexeme)
    (column : Nat)
    (text : List Char)
    (lexemes : List Lexeme)
    (before : List Char)
    (first : Char)
    (rest : List Char) :
    Prop where
  whole : text = before ++ first :: rest
  solid : isSeparator first = false
  same : lexeme = lexemeAt (column + Text.byteLength before) first rest
  followed :
    lexeme :: lexemesFrom lexeme.endColumn (rest.drop (lexemeShape first rest).following) <:+
      lexemes

namespace Lexeme.BeginsAt

variable {lexeme : Lexeme} {column : Nat} {text : List Char} {lexemes : List Lexeme}
  {before rest : List Char} {first : Char}

theorem begins
    (beginsAt : lexeme.BeginsAt column text lexemes before first rest) :
    Begins first rest (lexemeShape first rest) :=
  lexemeShape_begins rest beginsAt.solid

theorem kind
    (beginsAt : lexeme.BeginsAt column text lexemes before first rest) :
    lexeme.kind = (lexemeShape first rest).kind :=
  congrArg Lexeme.kind beginsAt.same

theorem text_eq
    (beginsAt : lexeme.BeginsAt column text lexemes before first rest) :
    lexeme.text = first :: rest.take (lexemeShape first rest).following :=
  congrArg Lexeme.text beginsAt.same

theorem column_eq
    (beginsAt : lexeme.BeginsAt column text lexemes before first rest) :
    lexeme.column = column + Text.byteLength before :=
  congrArg Lexeme.column beginsAt.same

/-- The text around a lexeme. -/
theorem cut
    (beginsAt : lexeme.BeginsAt column text lexemes before first rest) :
    text = (before ++ lexeme.text) ++ rest.drop (lexemeShape first rest).following := by
  rw [beginsAt.whole, beginsAt.text_eq, List.append_assoc, lexeme_append_rest]

/-- A text in front moves the lexeme behind it, as lexemes in front do. -/
theorem behind
    {start : Nat}
    (beginsAt : lexeme.BeginsAt column text lexemes before first rest)
    (skipped : List Char)
    (earlier : List Lexeme)
    (starts : column = start + Text.byteLength skipped) :
    lexeme.BeginsAt start (skipped ++ text) (earlier ++ lexemes) (skipped ++ before) first
      rest where
  whole := by rw [beginsAt.whole, List.append_assoc]
  solid := beginsAt.solid
  same := by rw [beginsAt.same, starts, Text.byteLength_append, Nat.add_assoc]
  followed := beginsAt.followed.trans (List.suffix_append earlier lexemes)

end Lexeme.BeginsAt

theorem lexemesFrom_of_not_isSeparator
    {first : Char}
    (column : Nat)
    (rest : List Char)
    (solid : isSeparator first = false) :
    lexemesFrom column (first :: rest) =
      lexemeAt column first rest ::
        lexemesFrom (lexemeAt column first rest).endColumn
          (rest.drop (lexemeShape first rest).following) := by
  rw [lexemesFrom, if_neg (by simp [solid])]
  rfl

/-- Every lexeme is what the text from its column on begins. -/
theorem lexemesFrom_begin
    (column : Nat)
    (text : List Char) :
    ∀ lexeme ∈ lexemesFrom column text,
      ∃ before first rest,
        lexeme.BeginsAt column text (lexemesFrom column text) before first rest := by
  induction column, text using lexemesFrom.induct with
  | case1 column =>
      simp [lexemesFrom]
  | case2 column first rest separates inductionHypothesis =>
      intro lexeme member
      rw [lexemesFrom, if_pos separates] at member ⊢
      obtain ⟨before, second, later, beginsAt⟩ := inductionHypothesis lexeme member
      exact ⟨first :: before, second, later, beginsAt.behind [first] [] rfl⟩
  | case3 column first rest notSeparator shape text inductionHypothesis =>
      have solid : isSeparator first = false := by simpa using notSeparator
      intro lexeme member
      rw [lexemesFrom_of_not_isSeparator column rest solid] at member ⊢
      rcases List.mem_cons.mp member with rfl | member
      · exact ⟨[], first, rest, rfl, solid, rfl, List.suffix_refl _⟩
      · obtain ⟨before, second, later, beginsAt⟩ := inductionHypothesis lexeme member
        have behind := beginsAt.behind text [lexemeAt column first rest] rfl
        rw [lexeme_append_rest] at behind
        exact ⟨text ++ before, second, later, behind⟩

/-- A lexeme of a line continues a string, or is what the line begins at its column. -/
theorem LineLexer.scan_begins
    (lexer : LineLexer)
    (text : List Char) :
    ∀ lexeme ∈ (lexer.scan text).1,
      lexeme.kind = .quotedPart ∨
        ∃ before first rest,
          lexeme.BeginsAt 0 text (lexer.scan text).1 before first rest := by
  intro lexeme member
  unfold scan at member ⊢
  split at member
  · exact .inr (lexemesFrom_begin 0 text lexeme member)
  · split at member
    · exact .inl (congrArg Lexeme.kind (List.mem_singleton.mp member))
    next length closes =>
      rcases List.mem_cons.mp member with rfl | member
      · exact .inl rfl
      · obtain ⟨before, first, rest, beginsAt⟩ := lexemesFrom_begin _ _ lexeme member
        have behind := beginsAt.behind (text.take length)
          [⟨.quotedPart, 0, text.take length, none⟩] (Nat.zero_add _).symm
        rw [List.take_append_drop] at behind
        exact .inr ⟨text.take length ++ before, first, rest, behind⟩

end ShellCore
