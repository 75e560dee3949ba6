import Mathlib.Data.List.SplitBy
import ShellCore.Proofs.Lexing.Beginnings
import ShellCore.Proofs.Lexing.Coverage

namespace ShellCore

/-!
# Runs of lexemes

Lexemes that touch make a run. Its text is that of its lexemes, joined.
-/

/-- A part of a line, which stands between two columns. -/
structure Stretch where
  column : Nat
  endColumn : Nat
  text : List Char

namespace Stretch

/-- One part ends where the other begins. -/
def touches
    (left right : Stretch) :
    Bool :=
  left.endColumn == right.column

/-- The texts of the runs in which the parts touch. -/
def runTexts
    (stretches : List Stretch) :
    List (List Char) :=
  (stretches.splitBy touches).map fun run => run.flatMap text

end Stretch

/-- Where a lexeme stands. -/
def Lexeme.stretch
    (lexeme : Lexeme) :
    Stretch :=
  ⟨lexeme.column, lexeme.endColumn, lexeme.text⟩

/-- Where a token stands. -/
def Token.stretch
    (token : Token) :
    Stretch :=
  ⟨token.column.toNat, token.endColumn, token.text.toList⟩

/-- A list is split behind its first element, unless that goes together with the second. -/
theorem splitBy_cons_cons
    (together : α → α → Bool)
    (first second : α)
    (rest : List α) :
    (first :: second :: rest).splitBy together =
      if together first second then
        ((second :: rest).splitBy together).modifyHead (first :: ·)
      else
        [first] :: (second :: rest).splitBy together := by
  split
  next joined =>
    obtain ⟨group, others, shape⟩ :=
      List.exists_cons_of_ne_nil (List.splitBy_ne_nil.mpr (List.cons_ne_nil second rest))
    obtain ⟨flat, noEmpty, chains, borders⟩ := List.splitBy_eq_iff.mp shape
    have isGroup : group ≠ [] := fun isEmpty => noEmpty (isEmpty ▸ List.mem_cons_self)
    obtain ⟨leader, group, rfl⟩ := List.exists_cons_of_ne_nil isGroup
    obtain rfl : second = leader := List.head_eq_of_cons_eq flat
    rw [shape]
    refine List.splitBy_eq_iff.mpr ⟨by rw [flat]; rfl, ?_, ?_, ?_⟩
    · exact fun member => noEmpty (by simpa using member)
    · intro run member
      rcases List.mem_cons.mp member with rfl | member
      · exact .cons_cons joined (chains _ List.mem_cons_self)
      · exact chains run (List.mem_cons_of_mem _ member)
    · cases others with
      | nil => exact .singleton _
      | cons next others =>
          obtain ⟨⟨isRun, isNext, apart⟩, later⟩ := List.isChain_cons_cons.mp borders
          refine .cons_cons ⟨List.cons_ne_nil _ _, isNext, ?_⟩ later
          rwa [List.getLast_cons isRun]
  next apart =>
    refine List.splitBy_append_cons (l := [first]) rest fun last isLast => ?_
    cases isLast
    simpa using apart

namespace Stretch

variable {first second : Stretch} {rest : List Stretch}

theorem runTexts_of_touches
    (touching : first.endColumn = second.column) :
    runTexts (first :: second :: rest) =
      (runTexts (second :: rest)).modifyHead (first.text ++ ·) := by
  have together : touches first second = true := by
    rw [touches, touching, beq_self_eq_true]
  rw [runTexts, splitBy_cons_cons, if_pos together, runTexts]
  cases (second :: rest).splitBy touches with
  | nil => rfl
  | cons run others => rfl

theorem runTexts_of_apart
    (apart : first.endColumn ≠ second.column) :
    runTexts (first :: second :: rest) = first.text :: runTexts (second :: rest) := by
  have separate : ¬ touches first second = true := by
    rwa [touches, beq_iff_eq]
  rw [runTexts, splitBy_cons_cons, if_neg separate, runTexts, List.map_cons, List.flatMap_singleton]

end Stretch

/-- Tokens that record and measure lexemes stand where these stand. -/
theorem map_stretch_of_records
    {line : LineId}
    {tokens : List Token}
    {lexemes : List Lexeme}
    (records : List.Forall₂ (Token.Records line) tokens lexemes)
    (measures : List.Forall₂ Token.Measures tokens lexemes) :
    tokens.map Token.stretch = lexemes.map Lexeme.stretch := by
  induction records with
  | nil => rfl
  | @cons token lexeme tokens lexemes recorded _ inductionHypothesis =>
      cases measures with
      | cons measured later =>
          rw [List.map_cons, List.map_cons, inductionHypothesis later, Token.stretch,
            Token.endColumn, measured.column, measured.length, recorded.text,
            String.toList_ofList]
          rfl

/-- The lexemes of a text begin where it does, unless it begins with a separator. -/
theorem head_lexemesFrom
    {column : Nat}
    {first : Char}
    {rest : List Char}
    {lexeme : Lexeme}
    {others : List Lexeme}
    (lexed : lexemesFrom column (first :: rest) = lexeme :: others) :
    lexeme.column = column ↔ isSeparator first = false := by
  cases separates : isSeparator first with
  | false =>
      rw [lexemesFrom_of_not_isSeparator column rest separates] at lexed
      cases lexed
      exact ⟨fun _ => rfl, fun _ => rfl⟩
  | true =>
      rw [lexemesFrom, if_pos separates] at lexed
      have tiles := tiles_lexemesFrom (column + first.utf8Size) rest
      rw [lexed] at tiles
      have further := tiles.column_le lexeme List.mem_cons_self
      have positive := first.utf8Size_pos
      refine ⟨fun same => ?_, fun apart => Bool.noConfusion apart⟩
      omega

end ShellCore
