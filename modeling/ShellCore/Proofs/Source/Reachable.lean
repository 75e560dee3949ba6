import ShellCore.Proofs.Source.Representation
import ShellCore.Shell.Basic

namespace ShellCore

/-!
# Arenas of lexers and shells

A lexer and a shell change their arena by its operations only, also where a line, a
token or a whole source is refused midway. So what holds of every history of
operations holds of the arenas that they fill.
-/

namespace Arena

/-- What operations can make of the empty arena. -/
def Reachable
    (arena : Arena) :
    Prop :=
  ∃ operations, arena = ofHistory operations

namespace Reachable

variable {arena : Arena}

theorem empty :
    Reachable .empty :=
  ⟨[], rfl⟩

theorem wellFormed
    (reachable : arena.Reachable) :
    arena.WellFormed := by
  obtain ⟨operations, rfl⟩ := reachable
  exact WellFormed.empty.attemptAll operations

theorem attemptAll
    (reachable : arena.Reachable)
    (operations : List Operation) :
    (arena.attemptAll operations).Reachable := by
  obtain ⟨earlier, rfl⟩ := reachable
  exact ⟨earlier ++ operations, (ofHistory_append earlier operations).symm⟩

theorem openSource
    (reachable : arena.Reachable)
    (provenance : Provenance) :
    (arena.openSource provenance).2.Reachable :=
  reachable.attemptAll [.openSource provenance]

end Reachable

/-- Closing where nothing is open changes nothing. -/
theorem attempt_closeSource
    (arena : Arena) :
    arena.attempt .closeSource = arena.closeInnermost := by
  cases isOpen : arena.openSources with
  | nil =>
      simp only [attempt, perform, unanswered, closeSource, closeInnermost, isOpen, List.tail_nil]
      rw [← isOpen]
  | cons source outer =>
      simp only [attempt, perform, unanswered, closeSource, closeInnermost, isOpen, List.tail_cons]

/-- Whether an operation adds a line or a token. -/
inductive Operation.Registers : Operation → Prop where
  | addLine (text : String) (number : UInt32) :
      Registers (.addLine text number)
  | addToken (kind : TokenKind) (column length : UInt32) (line : LineId) (text : String) :
      Registers (.addToken kind column length line text)

/-- What adding lines and tokens can make of an arena, whether or not some are refused. -/
def Registered
    (after arena : Arena) :
    Prop :=
  ∃ operations, (∀ operation ∈ operations, operation.Registers) ∧
    after = arena.attemptAll operations

namespace Registered

variable {arena middle after : Arena}

theorem refl
    (arena : Arena) :
    Registered arena arena :=
  ⟨[], nofun, rfl⟩

theorem trans
    (later : Registered after middle)
    (earlier : Registered middle arena) :
    Registered after arena := by
  obtain ⟨second, secondRegister, rfl⟩ := later
  obtain ⟨first, firstRegister, rfl⟩ := earlier
  refine ⟨first ++ second, fun operation member => ?_, (attemptAll_append ..).symm⟩
  exact (List.mem_append.mp member).elim (firstRegister operation) (secondRegister operation)

theorem attempt
    {operation : Operation}
    (registers : operation.Registers) :
    Registered (arena.attempt operation) arena := by
  refine ⟨[operation], fun member isMember => ?_, rfl⟩
  rwa [List.mem_singleton.mp isMember]

theorem reachable
    (registered : Registered after arena)
    (before : arena.Reachable) :
    after.Reachable := by
  obtain ⟨operations, _, rfl⟩ := registered
  exact before.attemptAll operations

theorem tables
    (registered : Registered after arena) :
    after.Extends arena := by
  obtain ⟨operations, _, rfl⟩ := registered
  exact .attemptAll arena operations

/-- Adding lines and tokens opens and closes no source. -/
theorem openSources
    (registered : Registered after arena) :
    after.openSources = arena.openSources := by
  obtain ⟨operations, register, rfl⟩ := registered
  induction operations generalizing arena with
  | nil => rfl
  | cons operation later inductionHypothesis =>
      refine (inductionHypothesis fun other member =>
        register other (List.mem_cons_of_mem operation member)).trans ?_
      have registers := register operation List.mem_cons_self
      rcases arena.attempt_cases operation with changes | refused
      · generalize arena.attempt operation = next at changes
        cases changes with
        | addLine | addToken => rfl
        | _ => cases registers
      · rw [refused]

end Registered

end Arena

namespace LineLexer

theorem addTokens_registered
    (arena : Arena)
    (line : LineId)
    (lexemes : List Lexeme) :
    (addTokens arena line lexemes).2.Registered arena := by
  induction lexemes generalizing arena with
  | nil => exact .refl arena
  | cons lexeme rest inductionHypothesis =>
      have first : (arena.addToken lexeme.kind (UInt32.ofNat lexeme.column)
          (UInt32.ofNat (Text.byteLength lexeme.text)) line
          (String.ofList lexeme.text)).2.Registered arena :=
        .attempt (.addToken ..)
      unfold addTokens
      split
      next refused =>
        rw [refused] at first
        exact first
      next between added =>
        rw [added] at first
        have others := inductionHypothesis between
        split
        all_goals
          next performed =>
            rw [performed] at others
            exact others.trans first

/-- A line and its tokens are added, up to the first that is refused. -/
theorem feedLine_registered
    (lexer : LineLexer)
    (arena : Arena)
    (text : String)
    (number : Nat) :
    (lexer.feedLine arena text number).2.2.Registered arena := by
  have withLine : (arena.addLine text (UInt32.ofNat number)).2.Registered arena :=
    .attempt (.addLine ..)
  unfold feedLine
  split
  next refused =>
    rw [refused] at withLine
    exact withLine
  next line between added =>
    rw [added] at withLine
    have lexed := addTokens_registered between line (lexer.scan text.toList).1
    dsimp only
    split
    all_goals
      next performed =>
        rw [performed] at lexed
        exact lexed.trans withLine

theorem feedLines_registered
    (lexer : LineLexer)
    (arena : Arena)
    (number : Nat)
    (texts : List (List Char)) :
    (lexer.feedLines arena number texts).2.2.Registered arena := by
  induction texts generalizing lexer arena number with
  | nil => exact .refl arena
  | cons text rest inductionHypothesis =>
      have first := lexer.feedLine_registered arena (String.ofList text) number
      unfold feedLines
      split
      next refused =>
        rw [refused] at first
        exact first
      next line middle between fed =>
        rw [fed] at first
        have others := inductionHypothesis middle between (number + 1)
        split
        all_goals
          next performed =>
            rw [performed] at others
            exact others.trans first

/-- A source is opened, filled and closed, however many of its lines are accepted. -/
theorem lexSource_registered
    (lexer : LineLexer)
    (arena : Arena)
    (provenance : Provenance)
    (text : String) :
    ∃ filled : Arena,
      (lexer.lexSource arena provenance text).2.2 = filled.closeInnermost ∧
        filled.Registered (arena.openSource provenance).2 :=
  ⟨_, rfl, lexer.feedLines_registered (arena.openSource provenance).2 1 _⟩

theorem lexSource_openSources
    (lexer : LineLexer)
    (arena : Arena)
    (provenance : Provenance)
    (text : String) :
    (lexer.lexSource arena provenance text).2.2.openSources = arena.openSources := by
  obtain ⟨filled, isLeft, registered⟩ := lexer.lexSource_registered arena provenance text
  rw [isLeft]
  exact congrArg List.tail registered.openSources

theorem lexSource_attempted
    (lexer : LineLexer)
    (arena : Arena)
    (provenance : Provenance)
    (text : String) :
    ∃ operations, (lexer.lexSource arena provenance text).2.2 = arena.attemptAll operations := by
  obtain ⟨filled, isLeft, operations, _, rfl⟩ :=
    lexer.lexSource_registered arena provenance text
  refine ⟨.openSource provenance :: (operations ++ [.closeSource]), ?_⟩
  rw [isLeft, ← Arena.attempt_closeSource, Arena.attemptAll_cons, Arena.attemptAll_append]
  rfl

theorem lexSource_reachable
    {arena : Arena}
    (reachable : arena.Reachable)
    (lexer : LineLexer)
    (provenance : Provenance)
    (text : String) :
    (lexer.lexSource arena provenance text).2.2.Reachable := by
  obtain ⟨operations, made⟩ := lexer.lexSource_attempted arena provenance text
  rw [made]
  exact reachable.attemptAll operations

end LineLexer

namespace Shell

variable {shell : Shell}

theorem new_reachable
    {config : Config}
    {host : Host}
    (built : new config host = .ok shell) :
    shell.arena.Reachable := by
  unfold new at built
  split at built
  · cases built
  · cases built
    exact Arena.Reachable.empty.openSource config.provenance

theorem feedLine_reachable
    (reachable : shell.arena.Reachable)
    (text : String) :
    (shell.feedLine text).2.arena.Reachable :=
  (shell.lexer.feedLine_registered shell.arena text (shell.linesFed + 1)).reachable reachable

theorem lexSource_reachable
    (reachable : shell.arena.Reachable)
    (provenance : Provenance)
    (text : String) :
    (shell.lexSource provenance text).2.arena.Reachable :=
  LineLexer.lexSource_reachable reachable .start provenance text

end Shell

end ShellCore
