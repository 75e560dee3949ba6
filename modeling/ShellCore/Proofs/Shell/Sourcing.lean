import ShellCore.Proofs.Shell.Statement
import ShellCore.Proofs.Source.Reachable
import ShellCore.Proofs.Source.Room

namespace ShellCore.Shell

/-!
# Sources of a shell

A shell has one lexer for its root source, and takes a new one for each nested
source. While the source stack is left alone otherwise, the root lines of a history
are lexed as if nothing else was, and so are the lines of each nested source.
-/

/-- A line of the root source, and what it was lexed to. -/
structure RootLine where
  text : String
  lexed : LexedLine

/-- What a shell does with neither its lexer nor its source stack. -/
structure KeepsSources (before after : Shell) : Prop where
  lexer : after.lexer = before.lexer
  linesFed : after.linesFed = before.linesFed
  arena : ∃ operations, after.arena = before.arena.attemptAll operations
  openSources : after.arena.openSources = before.arena.openSources

namespace KeepsSources

variable {before between after : Shell}

theorem refl
    (shell : Shell) :
    KeepsSources shell shell :=
  ⟨rfl, rfl, ⟨[], rfl⟩, rfl⟩

theorem trans
    (earlier : KeepsSources before between)
    (later : KeepsSources between after) :
    KeepsSources before after where
  lexer := later.lexer.trans earlier.lexer
  linesFed := later.linesFed.trans earlier.linesFed
  arena := by
    obtain ⟨first, made⟩ := earlier.arena
    obtain ⟨second, madeLater⟩ := later.arena
    refine ⟨first ++ second, ?_⟩
    rw [madeLater, made, Arena.attemptAll_append]
  openSources := later.openSources.trans earlier.openSources

/-- The tables of the arena only grow meanwhile. -/
theorem tables
    (keeps : KeepsSources before after) :
    after.arena.Extends before.arena := by
  obtain ⟨operations, made⟩ := keeps.arena
  rw [made]
  exact .attemptAll before.arena operations

/-- The arena may be lent out for any operation that neither opens nor closes a source. -/
theorem attempt
    {operation : Arena.Operation}
    (notOpen : ∀ provenance, operation ≠ .openSource provenance)
    (notClose : operation ≠ .closeSource) :
    KeepsSources before { before with arena := before.arena.attempt operation } where
  lexer := rfl
  linesFed := rfl
  arena := ⟨[operation], rfl⟩
  openSources := by
    rcases before.arena.attempt_cases operation with changes | refused
    · dsimp only
      generalize before.arena.attempt operation = arena at changes
      cases changes with
      | openSource provenance => exact absurd rfl (notOpen provenance)
      | closeSource => exact absurd rfl notClose
      | _ => rfl
    · dsimp only
      rw [refused]

/-- A nested source is closed again, also where it is refused midway. -/
theorem lexSource
    (provenance : Provenance)
    (text : String) :
    KeepsSources before (before.lexSource provenance text).2 where
  lexer := rfl
  linesFed := rfl
  arena := LineLexer.start.lexSource_attempted before.arena provenance text
  openSources := LineLexer.start.lexSource_openSources before.arena provenance text

theorem settle
    (status : Int32) :
    KeepsSources before (before.settle status) := by
  unfold Shell.settle
  split
  · have discarded : KeepsSources before { before with arena := before.arena.attempt .discard } :=
      .attempt nofun nofun
    exact discarded.trans ⟨rfl, rfl, ⟨[], rfl⟩, rfl⟩
  · exact ⟨rfl, rfl, ⟨[], rfl⟩, rfl⟩

theorem executeStatement
    {fuel : Nat}
    {statement : Command}
    {result : Except ShellError (Int32 × Option Diagnostic)}
    (ran : (Shell.executeStatement fuel statement).run before = some (result, after)) :
    KeepsSources before after := by
  obtain ⟨ended, machine, _, _, isLeft⟩ := executeStatement_eq_some_iff.mp ran
  have evaluated : KeepsSources before (before.withMachine machine) :=
    ⟨rfl, rfl, ⟨[], rfl⟩, rfl⟩
  rw [isLeft]
  cases result with
  | ok settled => exact evaluated.trans (.settle settled.1)
  | error error => exact evaluated

/-- Executing a program leaves the sources alone, however it ends. -/
theorem executeFrom
    {fuel : Nat}
    {outcome : Outcome}
    {program : List Command}
    {result : Except ShellError Outcome}
    (ran : (Shell.executeFrom fuel outcome program).run before = some (result, after)) :
    KeepsSources before after := by
  induction program generalizing before outcome with
  | nil =>
      cases ran
      exact .refl _
  | cons first rest inductionHypothesis =>
      rcases Execution.bind_eq_some_iff.mp ran with
        ⟨error, failed, rfl⟩ | ⟨settled, between, started, others⟩
      · exact executeStatement failed
      · exact (executeStatement started).trans (inductionHypothesis others)

end KeepsSources

/-- What a shell can do next, with the root lines that it accepts in doing so. -/
inductive Step (before : Shell) : List RootLine → Shell → Prop where
  | feedLine {text : String} {lexed : LexedLine} {after : Shell} :
      before.feedLine text = (.ok lexed, after) →
      Step before [⟨text, lexed⟩] after
  /-- A nested source may be accepted or refused. -/
  | lexSource (provenance : Provenance) (text : String) :
      Step before [] (before.lexSource provenance text).2
  | elsewhere {after : Shell} :
      KeepsSources before after →
      Step before [] after

/-- A history of a shell whose source stack is left alone, and its root lines so far. -/
inductive Sourcing (first : Shell) : List RootLine → Shell → Prop where
  | start : Sourcing first [] first
  | step {log added : List RootLine} {between after : Shell} :
      Sourcing first log between →
      Step between added after →
      Sourcing first (log ++ added) after

/-- Feed lines to the root source in order, up to the first that is refused. -/
def feedLines
    (shell : Shell) :
    List String →
    Except ShellError (List LexedLine) × Shell
  | [] => (.ok [], shell)
  | text :: rest =>
      match shell.feedLine text with
      | (.error error, after) => (.error error, after)
      | (.ok lexed, after) =>
          match feedLines after rest with
          | (.error error, last) => (.error error, last)
          | (.ok lines, last) => (.ok (lexed :: lines), last)

variable {shell before after first last : Shell} {source : SourceId}
variable {texts : List String} {lines : List LexedLine} {log added : List RootLine}

/-- A shell feeds a line to its own lexer. -/
theorem feedLine_ok_iff
    {text : String}
    {lexed : LexedLine} :
    shell.feedLine text = (.ok lexed, after) ↔
      ∃ lexer arena,
        shell.lexer.feedLine shell.arena text (shell.linesFed + 1) =
            (.ok lexed, lexer, arena) ∧
          after =
            { shell with linesFed := shell.linesFed + 1, lexer := lexer, arena := arena } := by
  unfold feedLine
  dsimp only
  rcases shell.lexer.feedLine shell.arena text (shell.linesFed + 1) with ⟨result, lexer, arena⟩
  constructor
  · intro accepted
    cases result with
    | error error => cases accepted
    | ok line =>
        cases accepted
        exact ⟨lexer, arena, rfl, rfl⟩
  · rintro ⟨_, _, fed, rfl⟩
    cases fed
    rfl

/-- A shell lexes a nested source with a new lexer. -/
theorem lexSource_ok_iff
    {provenance : Provenance}
    {text : String} :
    shell.lexSource provenance text = (.ok lines, after) ↔
      ∃ lexer arena,
        LineLexer.start.lexSource shell.arena provenance text = (.ok lines, lexer, arena) ∧
          after = { shell with arena := arena } := by
  unfold lexSource
  rcases LineLexer.start.lexSource shell.arena provenance text with ⟨result, lexer, arena⟩
  constructor
  · intro accepted
    cases result with
    | error error => cases accepted
    | ok lexed =>
        cases accepted
        exact ⟨lexer, arena, rfl, rfl⟩
  · rintro ⟨_, _, lexed, rfl⟩
    cases lexed
    rfl

theorem feedLines_snoc
    {text : String}
    {lexed : LexedLine}
    (fed : shell.feedLines texts = (.ok lines, before))
    (last : before.feedLine text = (.ok lexed, after)) :
    shell.feedLines (texts ++ [text]) = (.ok (lines ++ [lexed]), after) := by
  induction texts generalizing shell lines with
  | nil =>
      cases fed
      simp only [List.nil_append, feedLines, last]
  | cons earlier rest inductionHypothesis =>
      simp only [feedLines] at fed
      split at fed
      · cases fed
      next line between accepted =>
        split at fed
        · cases fed
        next others final remaining =>
          cases fed
          simp only [List.cons_append, feedLines, accepted, inductionHypothesis remaining]

/-- A shell after root lines of a source that is still open, which began at the first shell. -/
structure Follows
    (first : Shell)
    (source : SourceId)
    (texts : List String)
    (lines : List LexedLine)
    (last : Shell) :
    Prop where
  lexer : last.lexer = first.lexer.afterLines texts
  linesFed : last.linesFed = first.linesFed + texts.length
  openSources : last.arena.openSources = first.arena.openSources
  isOpen : last.arena.currentSource? = some source
  counted : last.linesFed ≤ last.arena.lines.size
  tables : last.arena.Extends first.arena
  shows : List.Forall₂ (last.arena.Shows source) lines
    (first.lexer.records (first.linesFed + 1) texts)

namespace Follows

theorem start
    (isOpen : first.arena.currentSource? = some source)
    (counted : first.linesFed ≤ first.arena.lines.size) :
    Follows first source [] [] first :=
  ⟨rfl, rfl, rfl, isOpen, counted, .refl _, .nil⟩

/-- What follows does so while lexer and source stack are left alone. -/
theorem elsewhere
    (follows : Follows first source texts lines before)
    (keeps : KeepsSources before after) :
    Follows first source texts lines after where
  lexer := keeps.lexer.trans follows.lexer
  linesFed := keeps.linesFed.trans follows.linesFed
  openSources := keeps.openSources.trans follows.openSources
  isOpen := (congrArg List.head? keeps.openSources).trans follows.isOpen
  counted := by
    rw [keeps.linesFed]
    exact Nat.le_trans follows.counted keeps.tables.lines.length_le
  tables := keeps.tables.trans follows.tables
  shows := Arena.Shows.all_later keeps.tables follows.shows

/-- One more root line is lexed by the lexer that the lines before it left. -/
theorem feedLine
    {text : String}
    {lexed : LexedLine}
    (follows : Follows first source texts lines before)
    (fed : before.feedLine text = (.ok lexed, after)) :
    Follows first source (texts ++ [text]) (lines ++ [lexed]) after := by
  obtain ⟨lexer, arena, accepted, rfl⟩ := feedLine_ok_iff.mp fed
  have feeds := LineLexer.feedLine_feeds follows.isOpen accepted
  have shown := feeds.shows (Nat.succ_le_succ follows.counted)
  have number : before.linesFed + 1 = first.linesFed + 1 + texts.length := by
    rw [follows.linesFed]
    omega
  rw [follows.lexer, number] at shown
  refine
    { lexer := ?_
      linesFed := ?_
      openSources := feeds.grows.openSources.trans follows.openSources
      isOpen := feeds.grows.currentSource?.trans follows.isOpen
      counted := ?_
      tables := feeds.grows.tables.trans follows.tables
      shows := ?_ }
  · rw [LineLexer.afterLines_append, ← follows.lexer]
    exact feeds.next
  · rw [List.length_append, List.length_singleton, ← Nat.add_assoc, ← follows.linesFed]
  · change before.linesFed + 1 ≤ arena.lines.size
    rw [feeds.lineCount]
    exact Nat.succ_le_succ follows.counted
  · rw [LineLexer.records_append]
    exact List.rel_append (Arena.Shows.all_later feeds.grows.tables follows.shows)
      (.cons shown .nil)

theorem step
    (follows : Follows first source texts lines before)
    (step : Step before added after) :
    Follows first source (texts ++ added.map (·.text)) (lines ++ added.map (·.lexed)) after := by
  cases step with
  | feedLine fed => exact follows.feedLine fed
  | lexSource provenance text =>
      simp only [List.map_nil, List.append_nil]
      exact follows.elsewhere (.lexSource provenance text)
  | elsewhere keeps =>
      simp only [List.map_nil, List.append_nil]
      exact follows.elsewhere keeps

end Follows

namespace Sourcing

/-- Programs may be executed in between. -/
theorem executed
    {fuel : Nat}
    {program : List Command}
    {result : Except ShellError Outcome}
    (history : Sourcing first log last)
    (ran : (execute fuel program).run last = some (result, after)) :
    Sourcing first log after := by
  have continued := history.step (.elsewhere (KeepsSources.executeFrom ran))
  rwa [List.append_nil] at continued

theorem reachable
    (history : Sourcing first log last)
    (reachable : first.arena.Reachable) :
    last.arena.Reachable := by
  induction history with
  | start => exact reachable
  | step _ step inductionHypothesis =>
      cases step with
      | @feedLine text lexed _ fed =>
          have kept := feedLine_reachable inductionHypothesis text
          rwa [fed] at kept
      | lexSource provenance text => exact lexSource_reachable inductionHypothesis provenance text
      | elsewhere keeps =>
          obtain ⟨operations, made⟩ := keeps.arena
          rw [made]
          exact inductionHypothesis.attemptAll operations

/-- Whatever else a shell does, its root lines follow each other. -/
theorem follows
    (history : Sourcing first log last)
    (isOpen : first.arena.currentSource? = some source)
    (counted : first.linesFed ≤ first.arena.lines.size) :
    Follows first source (log.map (·.text)) (log.map (·.lexed)) last := by
  induction history with
  | start => exact .start isOpen counted
  | step _ step inductionHypothesis =>
      rw [List.map_append, List.map_append]
      exact inductionHypothesis.step step

/-- The root lines that a shell accepts among other things it also accepts alone. -/
theorem alone
    (history : Sourcing first log last)
    (isOpen : first.arena.currentSource? = some source)
    (counted : first.linesFed ≤ first.arena.lines.size) :
    ∃ lines alone,
      first.feedLines (log.map (·.text)) = (.ok lines, alone) ∧
        Follows first source (log.map (·.text)) lines alone ∧
          alone.arena.Smaller last.arena := by
  induction history with
  | start => exact ⟨[], first, rfl, .start isOpen counted, .refl _⟩
  | @step log added between after earlier step inductionHypothesis =>
      obtain ⟨lines, alone, fedAlone, followsAlone, smaller⟩ := inductionHypothesis
      have follows := earlier.follows isOpen counted
      cases step with
      | @feedLine text lexed _ fed =>
          obtain ⟨lexer, arena, accepted, rfl⟩ := feedLine_ok_iff.mp fed
          have sameLexer : alone.lexer = between.lexer :=
            followsAlone.lexer.trans follows.lexer.symm
          rw [← sameLexer] at accepted
          obtain ⟨lexedAlone, arenaAlone, acceptedAlone, stillSmaller⟩ :=
            LineLexer.feedLine_smaller smaller followsAlone.isOpen accepted (alone.linesFed + 1)
          have oneMore := feedLine_ok_iff.mpr ⟨lexer, arenaAlone, acceptedAlone, rfl⟩
          rw [List.map_append]
          exact ⟨_, _, feedLines_snoc fedAlone oneMore, followsAlone.feedLine oneMore,
            stillSmaller⟩
      | lexSource provenance text =>
          rw [List.append_nil]
          have keeps : KeepsSources between _ := .lexSource provenance text
          exact ⟨lines, alone, fedAlone, followsAlone, smaller.trans (.of_extends keeps.tables)⟩
      | elsewhere keeps =>
          rw [List.append_nil]
          exact ⟨lines, alone, fedAlone, followsAlone, smaller.trans (.of_extends keeps.tables)⟩

end Sourcing

end ShellCore.Shell
