import ShellCore.Proofs.Lexing.Coverage
import ShellCore.Proofs.Source.Representation

namespace ShellCore

/-!
# The lines of a lexed source

Lexing a source adds its physical lines to the arena, one behind the other and
to the end of the window, and to each line the tokens that record its lexemes.
The tables keep this for good; the window keeps it until it is emptied.
-/

namespace Arena

/-- What operations add that neither open or close a source nor empty the window. -/
structure Grows (after arena : Arena) (added : List LineId) : Prop where
  tables : after.Extends arena
  lineCount : after.lines.size = arena.lines.size + added.length
  openSources : after.openSources = arena.openSources
  active : after.active = arena.active ++ added

namespace Grows

variable {arena middle after : Arena}

theorem refl
    (arena : Arena) :
    Grows arena arena [] :=
  ⟨.refl arena, rfl, rfl, (List.append_nil _).symm⟩

theorem trans
    {first second : List LineId}
    (later : Grows after middle second)
    (earlier : Grows middle arena first) :
    Grows after arena (first ++ second) where
  tables := later.tables.trans earlier.tables
  lineCount := by
    rw [later.lineCount, earlier.lineCount, List.length_append, Nat.add_assoc]
  openSources := later.openSources.trans earlier.openSources
  active := by
    rw [later.active, earlier.active, List.append_assoc]

theorem currentSource?
    {added : List LineId}
    (grows : Grows after arena added) :
    after.currentSource? = arena.currentSource? :=
  congrArg List.head? grows.openSources

theorem addToken
    {kind : TokenKind}
    {column length : UInt32}
    {line : LineId}
    {text : String}
    {span : SpanId}
    (performed : arena.addToken kind column length line text = (.ok span, after)) :
    Grows after arena [] := by
  have tables := Extends.attempt arena (.addToken kind column length line text)
  rw [Arena.attempt, Arena.perform, unanswered, performed] at tables
  unfold Arena.addToken at performed
  split at performed
  · cases performed
  · split at performed
    · cases performed
    · split at performed
      · cases performed
        exact ⟨tables, rfl, rfl, (List.append_nil _).symm⟩
      · cases performed

/-- A line is added behind all others, under the source that is open. -/
theorem addLine
    {source : SourceId}
    {text : String}
    {number : UInt32}
    {line : LineId}
    (isOpen : arena.currentSource? = some source)
    (performed : arena.addLine text number = (.ok line, after)) :
    Grows after arena [line] ∧
      line.index = arena.lines.size ∧
        after.line line = .ok ⟨line, number, text, source⟩ := by
  have tables := Extends.attempt arena (.addLine text number)
  rw [Arena.attempt, Arena.perform, unanswered, performed] at tables
  rw [Arena.addLine, isOpen] at performed
  dsimp only at performed
  split at performed
  · cases performed
  next handle given =>
    cases performed
    have place := (nextHandle_ok given).1
    refine ⟨⟨tables, Array.size_push _, rfl, rfl⟩, place, line_ok_iff.mpr ?_⟩
    rw [LineId.index, place, Array.getElem?_push_size]

end Grows

/-- Whether an operation empties the window; one that is refused does not. -/
def Empties
    (arena : Arena) :
    Operation →
    Prop
  | .discard => True
  | .saveBlock left right => ∃ count, (arena.saveBlock left right).1 = .ok count
  | _ => False

/-- No operation of a sequence empties the window. -/
def KeepsWindow
    (arena : Arena) :
    List Operation →
    Prop
  | [] => True
  | operation :: later =>
      ¬ arena.Empties operation ∧ (arena.attempt operation).KeepsWindow later

theorem attempt_window
    {arena : Arena}
    {operation : Operation}
    (keeps : ¬ arena.Empties operation) :
    arena.active <+: (arena.attempt operation).active := by
  cases performed : (arena.perform operation).1 with
  | error error =>
      have unchanged := congrArg active (attempt_of_refused performed)
      exact ⟨[], (List.append_nil _).trans unchanged.symm⟩
  | ok answer =>
      have changes := changes_of_perform performed
      generalize arena.attempt operation = after at changes
      cases changes with
      | discard => exact absurd trivial keeps
      | saveBlock inWindow =>
          obtain ⟨count, saved⟩ := unanswered_ok performed
          exact absurd ⟨count, congrArg Prod.fst saved⟩ keeps
      | addLine line isOpen place => exact List.prefix_append _ _
      | _ => exact List.prefix_rfl

/-- The window only grows while it is not emptied. -/
theorem attemptAll_window
    {arena : Arena}
    {operations : List Operation}
    (keeps : arena.KeepsWindow operations) :
    arena.active <+: (arena.attemptAll operations).active := by
  induction operations generalizing arena with
  | nil => exact List.prefix_rfl
  | cons operation later inductionHypothesis =>
      exact (attempt_window keeps.1).trans (inductionHypothesis keeps.2)

/-- What an arena keeps of a lexed line: its text, and tokens that record its lexemes. -/
structure KeepsLine
    (arena : Arena)
    (source : SourceId)
    (place : Nat)
    (text : List Char)
    (lexed : LexedLine) :
    Prop where
  index : lexed.line.index = place
  record : ∃ number, arena.line lexed.line = .ok ⟨lexed.line, number, String.ofList text, source⟩
  tokens : ∃ lexemes,
    Tiles 0 text lexemes ∧
      (∀ lexeme ∈ lexemes, lexeme.text ≠ [] ∨ text = []) ∧
        ∀ span ∈ lexed.tokens,
          ∃ token, arena.token span = .ok token ∧
            ∃ lexeme ∈ lexemes, token.Records lexed.line lexeme

theorem KeepsLine.later
    {arena after : Arena}
    {source : SourceId}
    {place : Nat}
    {text : List Char}
    {lexed : LexedLine}
    (extended : after.Extends arena)
    (keeps : arena.KeepsLine source place text lexed) :
    after.KeepsLine source place text lexed where
  index := keeps.index
  record := keeps.record.imp fun _ => extended.line
  tokens := by
    obtain ⟨lexemes, tiles, nonempty, recorded⟩ := keeps.tokens
    refine ⟨lexemes, tiles, nonempty, fun span member => ?_⟩
    obtain ⟨token, found, records⟩ := recorded span member
    exact ⟨token, extended.token found, records⟩

/-- Lexed lines stand one behind the other in an arena, the first at a given place. -/
structure KeepsLines
    (arena : Arena)
    (source : SourceId)
    (place : Nat)
    (texts : List (List Char))
    (lines : List LexedLine) :
    Prop where
  length : lines.length = texts.length
  line : ∀ {number : Nat} {text : List Char} {lexed : LexedLine},
    texts[number]? = some text →
    lines[number]? = some lexed →
    arena.KeepsLine source (place + number) text lexed

namespace KeepsLines

variable {arena after : Arena} {source : SourceId} {place : Nat}
  {texts : List (List Char)} {lines : List LexedLine}

theorem nil :
    arena.KeepsLines source place [] [] where
  length := rfl
  line stands := nomatch stands

theorem cons
    {text : List Char}
    {lexed : LexedLine}
    (first : arena.KeepsLine source place text lexed)
    (later : arena.KeepsLines source (place + 1) texts lines) :
    arena.KeepsLines source place (text :: texts) (lexed :: lines) where
  length := congrArg Nat.succ later.length
  line {number} _ _ textStands lexedStands := by
    cases number with
    | zero =>
        cases textStands
        cases lexedStands
        exact first
    | succ number =>
        have found := later.line textStands lexedStands
        rwa [Nat.add_assoc, Nat.add_comm 1] at found

theorem later
    (extended : after.Extends arena)
    (keeps : arena.KeepsLines source place texts lines) :
    after.KeepsLines source place texts lines where
  length := keeps.length
  line textStands lexedStands := (keeps.line textStands lexedStands).later extended

end KeepsLines

end Arena

namespace LineLexer

variable {lexer next : LineLexer} {arena after : Arena} {source : SourceId}

theorem addTokens_grows
    {line : LineId}
    {lexemes : List Lexeme}
    {spans : List SpanId}
    (added : addTokens arena line lexemes = (.ok spans, after)) :
    after.Grows arena [] := by
  induction lexemes generalizing arena spans with
  | nil =>
      cases added
      exact .refl _
  | cons lexeme rest inductionHypothesis =>
      rw [addTokens] at added
      split at added
      · cases added
      next span between first =>
        split at added
        · cases added
        next spans last others =>
          cases added
          exact (inductionHypothesis others).trans (.addToken first)

theorem exists_recorded
    {line : LineId}
    {tokens : List Token}
    {lexemes : List Lexeme}
    (records : List.Forall₂ (Token.Records line) tokens lexemes) :
    ∀ token ∈ tokens, ∃ lexeme ∈ lexemes, token.Records line lexeme := by
  induction records with
  | nil =>
      intro token member
      cases member
  | cons first later inductionHypothesis =>
      intro token member
      rcases List.mem_cons.mp member with rfl | member
      · exact ⟨_, List.mem_cons_self, first⟩
      · obtain ⟨lexeme, isLexeme, records⟩ := inductionHypothesis token member
        exact ⟨lexeme, List.mem_cons_of_mem _ isLexeme, records⟩

/-- Feeding a line adds it and keeps its tokens. -/
theorem feedLine_keeps
    {text : List Char}
    {number : Nat}
    {lexed : LexedLine}
    (isOpen : arena.currentSource? = some source)
    (fed : lexer.feedLine arena (String.ofList text) number = (.ok lexed, next, after)) :
    after.Grows arena [lexed.line] ∧
      after.KeepsLine source arena.lines.size text lexed := by
  unfold feedLine at fed
  split at fed
  · cases fed
  next line between added =>
    dsimp only at fed
    split at fed
    · cases fed
    next spans last tokenized =>
      cases fed
      rw [String.toList_ofList] at tokenized
      obtain ⟨lineGrows, index, record⟩ := Arena.Grows.addLine isOpen added
      have grows := addTokens_grows tokenized
      obtain ⟨tokens, rfl, _, _, found, records⟩ := addTokens_ok tokenized
      refine ⟨grows.trans lineGrows, index, ⟨_, grows.tables.line record⟩, _,
        lexer.tiles_scan text, ?_, ?_⟩
      · intro lexeme member
        exact (lexer.scan_nonempty text lexeme member).imp_right And.left
      · intro span member
        obtain ⟨token, isToken, rfl⟩ := List.mem_map.mp member
        exact ⟨token, found token isToken, exists_recorded records token isToken⟩

/-- Feeding lines adds them one behind the other. -/
theorem feedLines_keeps
    {number : Nat}
    {texts : List (List Char)}
    {lines : List LexedLine}
    (isOpen : arena.currentSource? = some source)
    (fed : lexer.feedLines arena number texts = (.ok lines, next, after)) :
    after.Grows arena (lines.map (·.line)) ∧
      after.KeepsLines source arena.lines.size texts lines := by
  induction texts generalizing lexer arena number lines with
  | nil =>
      cases fed
      exact ⟨.refl _, .nil⟩
  | cons text rest inductionHypothesis =>
      simp only [feedLines] at fed
      split at fed
      · cases fed
      next lexed middle between first =>
        split at fed
        · cases fed
        next others last final remaining =>
          cases fed
          obtain ⟨grows, keeps⟩ := feedLine_keeps isOpen first
          obtain ⟨laterGrow, laterKept⟩ :=
            inductionHypothesis (grows.currentSource?.trans isOpen) remaining
          rw [grows.lineCount] at laterKept
          exact ⟨laterGrow.trans grows, .cons (keeps.later laterGrow.tables) laterKept⟩

/-- A source is accepted if its lines are, and closed behind them. -/
theorem lexSource_ok_iff
    {provenance : Provenance}
    {text : String}
    {lines : List LexedLine} :
    lexer.lexSource arena provenance text = (.ok lines, next, after) ↔
      ∃ filled,
        lexer.feedLines (arena.openSource provenance).2 1 (physicalLines text.toList) =
            (.ok lines, next, filled) ∧
          after = filled.closeInnermost := by
  unfold lexSource
  rcases lexer.feedLines (arena.openSource provenance).2 1 (physicalLines text.toList) with
    ⟨result, last, filled⟩
  constructor
  · intro lexed
    cases lexed
    exact ⟨filled, rfl, rfl⟩
  · rintro ⟨_, fed, rfl⟩
    cases fed
    rfl

/-- Lexing a source adds its physical lines one behind the other, and to the window. -/
theorem lexSource_keeps
    {provenance : Provenance}
    {text : String}
    {lines : List LexedLine}
    (lexed : lexer.lexSource arena provenance text = (.ok lines, next, after)) :
    ∃ source place,
      after.KeepsLines source place (physicalLines text.toList) lines ∧
        ∀ line ∈ lines, line.line ∈ after.active := by
  obtain ⟨filled, fed, rfl⟩ := lexSource_ok_iff.mp lexed
  obtain ⟨grows, keeps⟩ := feedLines_keeps rfl fed
  have closed : filled.closeInnermost.Extends filled :=
    ⟨List.prefix_rfl, List.prefix_rfl, List.prefix_rfl, List.prefix_rfl⟩
  refine ⟨_, _, keeps.later closed, ?_⟩
  intro line member
  have added := List.mem_map_of_mem (f := LexedLine.line) member
  change line.line ∈ filled.active
  rw [grows.active]
  exact List.mem_append_right _ added

end LineLexer

end ShellCore
