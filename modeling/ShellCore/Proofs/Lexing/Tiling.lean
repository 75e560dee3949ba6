import ShellCore.Lexing.Line
import ShellCore.Proofs.Text.Encoding

namespace ShellCore

/-!
# Lexemes tile a text

The lexemes of a text, with the separators between them, make up the text. From
this alone follow the order of their columns, the bytes at these columns and the
bytes that no lexeme has.
-/

namespace Lexeme

/-- The byte column behind a lexeme. -/
def endColumn
    (lexeme : Lexeme) :
    Nat :=
  lexeme.column + Text.byteLength lexeme.text

/-- Whether a byte of the line belongs to a lexeme. -/
def Covers
    (lexeme : Lexeme)
    (place : Nat) :
    Prop :=
  lexeme.column ≤ place ∧ place < lexeme.endColumn

end Lexeme

/-- Lexemes and separators that make up a text, which begins at a byte column. -/
inductive Tiles : Nat → List Char → List Lexeme → Prop where
  | done {column} :
      Tiles column [] []
  | separator {column character rest lexemes} :
      isSeparator character = true →
      Tiles (column + character.utf8Size) rest lexemes →
      Tiles column (character :: rest) lexemes
  | lexeme {column kind text opens rest lexemes} :
      Tiles (column + Text.byteLength text) rest lexemes →
      Tiles column (text ++ rest) (⟨kind, column, text, opens⟩ :: lexemes)

namespace Tiles

variable {column : Nat} {characters : List Char} {lexemes : List Lexeme}

theorem column_le
    (tiles : Tiles column characters lexemes) :
    ∀ lexeme ∈ lexemes, column ≤ lexeme.column := by
  induction tiles with
  | done =>
      intro lexeme member
      cases member
  | separator isSeparator tiles inductionHypothesis =>
      intro lexeme member
      have later := inductionHypothesis lexeme member
      omega
  | lexeme tiles inductionHypothesis =>
      intro lexeme member
      rcases List.mem_cons.mp member with rfl | member
      · exact Nat.le_refl _
      · have later := inductionHypothesis lexeme member
        omega

/-- A lexeme ends before the next one begins. -/
theorem ordered
    (tiles : Tiles column characters lexemes) :
    lexemes.Pairwise fun left right => left.endColumn ≤ right.column := by
  induction tiles with
  | done => exact .nil
  | separator isSeparator tiles inductionHypothesis => exact inductionHypothesis
  | lexeme tiles inductionHypothesis =>
      exact .cons tiles.column_le inductionHypothesis

/-- Of two different lexemes one ends before the other one begins. -/
theorem apart
    (tiles : Tiles column characters lexemes)
    {left right : Lexeme}
    (leftMember : left ∈ lexemes)
    (rightMember : right ∈ lexemes) :
    left = right ∨ left.endColumn ≤ right.column ∨ right.endColumn ≤ left.column := by
  induction tiles with
  | done => cases leftMember
  | separator isSeparator tiles inductionHypothesis =>
      exact inductionHypothesis leftMember rightMember
  | lexeme tiles inductionHypothesis =>
      rcases List.mem_cons.mp leftMember with rfl | leftMember
      · rcases List.mem_cons.mp rightMember with rfl | rightMember
        · exact .inl rfl
        · exact .inr (.inl (tiles.column_le right rightMember))
      · rcases List.mem_cons.mp rightMember with rfl | rightMember
        · exact .inr (.inr (tiles.column_le left leftMember))
        · exact inductionHypothesis leftMember rightMember

/-- The text of a lexeme stands at its column. -/
theorem place
    (tiles : Tiles column characters lexemes) :
    ∀ lexeme ∈ lexemes,
      ∃ before after,
        characters = before ++ (lexeme.text ++ after) ∧
          lexeme.column = column + Text.byteLength before := by
  induction tiles with
  | done =>
      intro lexeme member
      cases member
  | @separator column character rest lexemes isSeparator tiles inductionHypothesis =>
      intro lexeme member
      obtain ⟨before, after, rfl, begins⟩ := inductionHypothesis lexeme member
      refine ⟨character :: before, after, rfl, ?_⟩
      rw [begins, Text.byteLength_cons, Nat.add_assoc]
  | @lexeme column kind text opens rest lexemes tiles inductionHypothesis =>
      intro lexeme member
      rcases List.mem_cons.mp member with rfl | member
      · exact ⟨[], rest, rfl, rfl⟩
      · obtain ⟨before, after, rfl, begins⟩ := inductionHypothesis lexeme member
        refine ⟨text ++ before, after, by rw [List.append_assoc], ?_⟩
        rw [begins, Text.byteLength_append, Nat.add_assoc]

/-- There are no more lexemes than bytes if none of them is empty. -/
theorem length_le
    (tiles : Tiles column characters lexemes)
    (nonempty : ∀ lexeme ∈ lexemes, lexeme.text ≠ []) :
    lexemes.length ≤ Text.byteLength characters := by
  induction tiles with
  | done => exact Nat.le_refl 0
  | separator isSeparator tiles inductionHypothesis =>
      have counted := inductionHypothesis nonempty
      rw [Text.byteLength_cons]
      omega
  | @lexeme column kind text opens rest lexemes tiles inductionHypothesis =>
      have counted := inductionHypothesis fun lexeme member =>
        nonempty lexeme (List.mem_cons_of_mem _ member)
      have positive : 0 < Text.byteLength text := by
        cases text with
        | nil => exact absurd rfl (nonempty _ List.mem_cons_self)
        | cons first following =>
            have size := first.utf8Size_pos
            rw [Text.byteLength_cons]
            omega
      rw [Text.byteLength_append, List.length_cons]
      omega

theorem endColumn_le
    (tiles : Tiles 0 characters lexemes) :
    ∀ lexeme ∈ lexemes, lexeme.endColumn ≤ Text.byteLength characters := by
  intro lexeme member
  obtain ⟨before, after, whole, begins⟩ := tiles.place lexeme member
  rw [whole, Text.byteLength_append, Text.byteLength_append, Lexeme.endColumn]
  omega

/-- The only bytes of a separator are a space or a tab. -/
theorem separator_byte
    {character : Char}
    {place : Nat}
    {byte : UInt8}
    (separates : isSeparator character = true)
    (found : (String.utf8EncodeChar character)[place]? = some byte) :
    byte = 0x20 ∨ byte = 0x09 := by
  have member := List.mem_of_getElem? found
  simp only [isSeparator, Bool.or_eq_true, decide_eq_true_eq] at separates
  rcases separates with rfl | rfl
  · have isSpace : byte ∈ [(0x20 : UInt8)] := member
    exact .inl (List.mem_singleton.mp isSpace)
  · have isTab : byte ∈ [(0x09 : UInt8)] := member
    exact .inr (List.mem_singleton.mp isTab)

/-- A byte that no lexeme covers belongs to a separator. -/
theorem uncovered
    (tiles : Tiles column characters lexemes) :
    ∀ {place : Nat} {byte : UInt8},
      (Text.encode characters)[place]? = some byte →
      (∀ lexeme ∈ lexemes, ¬ lexeme.Covers (column + place)) →
      byte = 0x20 ∨ byte = 0x09 := by
  induction tiles with
  | done =>
      intro place byte found bare
      cases found
  | @separator column character rest lexemes separates tiles inductionHypothesis =>
      intro place byte found bare
      rw [Text.encode_cons] at found
      by_cases inside : place < character.utf8Size
      · rw [List.getElem?_append_left (by simpa using inside)] at found
        exact separator_byte separates found
      · rw [List.getElem?_append_right (by simpa using inside),
          String.length_utf8EncodeChar] at found
        refine inductionHypothesis found ?_
        have shifted :
            column + character.utf8Size + (place - character.utf8Size) = column + place := by
          omega
        simpa only [shifted] using bare
  | @lexeme column kind text opens rest lexemes tiles inductionHypothesis =>
      intro place byte found bare
      rw [Text.encode_append] at found
      by_cases inside : place < Text.byteLength text
      · have covered : Lexeme.Covers ⟨kind, column, text, opens⟩ (column + place) :=
          ⟨Nat.le_add_right column place, Nat.add_lt_add_left inside column⟩
        exact absurd covered (bare _ List.mem_cons_self)
      · rw [List.getElem?_append_right (by simpa using inside),
          Text.length_encode] at found
        refine inductionHypothesis found ?_
        have shifted :
            column + Text.byteLength text + (place - Text.byteLength text) =
              column + place := by
          omega
        intro lexeme member
        rw [shifted]
        exact bare lexeme (List.mem_cons_of_mem _ member)

end Tiles

theorem lexeme_append_rest
    (first : Char)
    (rest : List Char)
    (following : Nat) :
    first :: rest.take following ++ rest.drop following = first :: rest := by
  rw [List.cons_append, List.take_append_drop]

/-- The lexemes of a text tile it. -/
theorem tiles_lexemesFrom
    (column : Nat)
    (characters : List Char) :
    Tiles column characters (lexemesFrom column characters) := by
  induction column, characters using lexemesFrom.induct with
  | case1 column =>
      rw [lexemesFrom]
      exact .done
  | case2 column first rest separates inductionHypothesis =>
      rw [lexemesFrom, if_pos separates]
      exact .separator separates inductionHypothesis
  | case3 column first rest solid shape text inductionHypothesis =>
      rw [lexemesFrom, if_neg solid]
      rw [← lexeme_append_rest first rest shape.following]
      exact .lexeme inductionHypothesis

theorem lexemesFrom_nonempty
    (column : Nat)
    (characters : List Char) :
    ∀ lexeme ∈ lexemesFrom column characters, lexeme.text ≠ [] := by
  induction column, characters using lexemesFrom.induct with
  | case1 column =>
      rw [lexemesFrom]
      intro lexeme member
      cases member
  | case2 column first rest separates inductionHypothesis =>
      rw [lexemesFrom, if_pos separates]
      exact inductionHypothesis
  | case3 column first rest solid shape text inductionHypothesis =>
      rw [lexemesFrom, if_neg solid]
      intro lexeme member
      rcases List.mem_cons.mp member with rfl | member
      · exact List.cons_ne_nil _ _
      · exact inductionHypothesis lexeme member

theorem closingLength?_pos
    {quote : Quote}
    {text : List Char}
    {length : Nat}
    (closes : closingLength? quote text = some length) :
    0 < length := by
  unfold closingLength? at closes
  split at closes
  · cases closes
  · split at closes
    · cases closes
      exact Nat.one_pos
    · obtain ⟨count, _, rfl⟩ := Option.map_eq_some_iff.mp closes
      exact Nat.succ_pos count
  · cases closes
    exact Nat.one_pos
  · cases closes
  · obtain ⟨count, _, rfl⟩ := Option.map_eq_some_iff.mp closes
    exact Nat.succ_pos (count + 1)
  · obtain ⟨count, _, rfl⟩ := Option.map_eq_some_iff.mp closes
    exact Nat.succ_pos count

/-- The part of a line that closes a string is not empty. -/
theorem take_closingLength?_ne_nil
    {quote : Quote}
    {text : List Char}
    {length : Nat}
    (closes : closingLength? quote text = some length) :
    text.take length ≠ [] := by
  have positive := closingLength?_pos closes
  cases text with
  | nil => cases closes
  | cons first rest =>
      intro empty
      rcases List.take_eq_nil_iff.mp empty with zero | absurdly
      · omega
      · cases absurdly

namespace LineLexer

/-- The lexemes of a line tile it, whether it begins inside a string or not. -/
theorem tiles_scan
    (lexer : LineLexer)
    (text : List Char) :
    Tiles 0 text (lexer.scan text).1 := by
  unfold scan
  split
  · exact tiles_lexemesFrom 0 text
  · split
    · -- The whole line is one lexeme, even if it is empty.
      have whole : Tiles 0 (text ++ []) [⟨.quotedPart, 0, text, none⟩] := .lexeme .done
      rwa [List.append_nil] at whole
    next length closes =>
      have tail := tiles_lexemesFrom (Text.byteLength (text.take length)) (text.drop length)
      have whole :
          Tiles 0 (text.take length ++ text.drop length)
            (⟨.quotedPart, 0, text.take length, none⟩ ::
              lexemesFrom (Text.byteLength (text.take length)) (text.drop length)) := by
        refine .lexeme ?_
        rw [Nat.zero_add]
        exact tail
      rwa [List.take_append_drop] at whole

/-- Only an empty line inside a string has an empty lexeme, which is its only one. -/
theorem scan_nonempty
    (lexer : LineLexer)
    (text : List Char) :
    ∀ lexeme ∈ (lexer.scan text).1,
      lexeme.text ≠ [] ∨
        text = [] ∧ lexer.inQuote = true ∧
          (lexer.scan text).1 = [⟨.quotedPart, 0, [], none⟩] := by
  obtain ⟨openQuote⟩ := lexer
  intro lexeme member
  cases openQuote with
  | none => exact .inl (lexemesFrom_nonempty 0 text lexeme member)
  | some quote =>
      unfold scan at member ⊢
      dsimp only at member ⊢
      split at member
      next unclosed =>
        obtain rfl := List.mem_singleton.mp member
        by_cases empty : text = []
        · subst empty
          exact .inr ⟨rfl, rfl, rfl⟩
        · exact .inl empty
      next length closes =>
        rcases List.mem_cons.mp member with rfl | member
        · exact .inl (take_closingLength?_ne_nil closes)
        · exact .inl (lexemesFrom_nonempty _ _ lexeme member)

/-- A line has no more lexemes than bytes, or a single one. -/
theorem length_scan_le
    (lexer : LineLexer)
    (text : List Char) :
    (lexer.scan text).1.length ≤ Text.byteLength text + 1 := by
  by_cases empty : ∃ lexeme ∈ (lexer.scan text).1, lexeme.text = []
  · obtain ⟨lexeme, member, isEmpty⟩ := empty
    rcases lexer.scan_nonempty text lexeme member with nonempty | ⟨_, _, only⟩
    · exact absurd isEmpty nonempty
    · rw [only, List.length_singleton]
      omega
  · have counted := (lexer.tiles_scan text).length_le fun lexeme member isEmpty =>
      empty ⟨lexeme, member, isEmpty⟩
    omega

end LineLexer

end ShellCore
