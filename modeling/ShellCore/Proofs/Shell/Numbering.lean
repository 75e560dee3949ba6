import ShellCore.Proofs.Shell.Interleaving

namespace ShellCore

/-!
# Numbers of root lines

A shell counts the lines that it is offered for its root source, and gives each that
it registers its count as a number. A line that is refused is counted too, so those
behind it are numbered too high, and the shell is not quite as it was.
-/

namespace LineLexer

variable {arena after : Arena} {lexer next : LineLexer} {text : String} {number : Nat}

/-- Where no source is open, a line changes neither the lexer nor the arena. -/
theorem feedLine_of_noneOpen
    (lexer : LineLexer)
    (noneOpen : arena.currentSource? = none)
    (text : String)
    (number : Nat) :
    lexer.feedLine arena text number = (.error .noActiveSource, lexer, arena) := by
  rw [feedLine, Arena.addLine, noneOpen]

/-- A line that is registered is registered under a source. -/
theorem feedLine_isOpen
    {lexed : LexedLine}
    (fed : lexer.feedLine arena text number = (.ok lexed, next, after)) :
    ∃ source, arena.currentSource? = some source := by
  refine Option.ne_none_iff_exists'.mp fun noneOpen => ?_
  rw [lexer.feedLine_of_noneOpen noneOpen] at fed
  cases fed

end LineLexer

namespace Shell

variable {shell before after first last : Shell}

/-- A line that a shell was offered for its root source, and its answer. -/
structure Offer where
  text : String
  answer : Except ShellError LexedLine

/--
A history of a shell whose arena is lent out for any operations, also for opening and
closing sources, with the lines that were offered so far.
-/
inductive Offering (first : Shell) : List Offer → Shell → Prop where
  | start : Offering first [] first
  | feedLine {log : List Offer} {before : Shell} (text : String) :
      Offering first log before →
      Offering first (log ++ [⟨text, (before.feedLine text).1⟩]) (before.feedLine text).2
  | lexSource {log : List Offer} {before : Shell} (provenance : Provenance) (text : String) :
      Offering first log before →
      Offering first log (before.lexSource provenance text).2
  | lend {log : List Offer} {before : Shell} (operation : Arena.Operation) :
      Offering first log before →
      Offering first log { before with arena := before.arena.attempt operation }
  | execute {log : List Offer} {before after : Shell} {fuel : Nat} {program : List Command}
      {result : Except ShellError Outcome} :
      Offering first log before →
      (execute fuel program).run before = some (result, after) →
      Offering first log after

/-- A shell has counted the lines that it was offered, and numbered those it registered so. -/
structure Numbered (log : List Offer) (shell : Shell) : Prop where
  counted : shell.linesFed = log.length
  numbers : ∀ {place : Nat} {text : String} {lexed : LexedLine},
    log[place]? = some ⟨text, .ok lexed⟩ →
    shell.arena.lineNumber lexed.line = .ok (UInt32.ofNat (place + 1))

/-- A line that is registered has the count as its number. -/
theorem feedLine_lineNumber
    {text : String}
    {lexed : LexedLine}
    (accepted : shell.feedLine text = (.ok lexed, after)) :
    after.arena.lineNumber lexed.line = .ok (UInt32.ofNat (shell.linesFed + 1)) := by
  obtain ⟨lexer, arena, fed, rfl⟩ := feedLine_ok_iff.mp accepted
  obtain ⟨source, isOpen⟩ := LineLexer.feedLine_isOpen fed
  have feeds := LineLexer.feedLine_feeds isOpen fed
  rw [Arena.lineNumber, feeds.line]
  rfl

theorem feedLine_extends
    (shell : Shell)
    (text : String) :
    (shell.feedLine text).2.arena.Extends shell.arena :=
  (shell.lexer.feedLine_registered shell.arena text (shell.linesFed + 1)).tables

namespace Numbered

variable {log : List Offer}

/-- What offers no line keeps the numbers, if it takes nothing out of the tables. -/
theorem later
    (numbered : Numbered log before)
    (sameCount : after.linesFed = before.linesFed)
    (extended : after.arena.Extends before.arena) :
    Numbered log after where
  counted := sameCount.trans numbered.counted
  numbers stands := extended.lineNumber (numbered.numbers stands)

/-- The next line that is offered has the next number, if it is registered. -/
theorem feedLine
    (numbered : Numbered log before)
    (text : String) :
    Numbered (log ++ [⟨text, (before.feedLine text).1⟩]) (before.feedLine text).2 where
  counted := by
    rw [List.length_append, List.length_singleton, ← numbered.counted]
    rfl
  numbers {place earlierText lexed} stands := by
    rcases Nat.lt_or_ge place log.length with inLog | isLast
    · rw [List.getElem?_append_left inLog] at stands
      exact (before.feedLine_extends text).lineNumber (numbered.numbers stands)
    · rw [List.getElem?_append_right isLast] at stands
      obtain ⟨atEnd, same⟩ := List.getElem?_eq_some_iff.mp stands
      have place_eq : place = log.length := by
        rw [List.length_singleton] at atEnd
        omega
      rw [List.getElem_singleton, Offer.mk.injEq] at same
      rw [place_eq, ← numbered.counted]
      exact feedLine_lineNumber (Prod.ext same.2 rfl)

end Numbered

/-- However its lines are mixed with other work, a shell numbers them by its offers. -/
theorem Offering.numbered
    {log : List Offer}
    (noLines : first.linesFed = 0)
    (history : Offering first log last) :
    Numbered log last := by
  induction history with
  | start => exact ⟨noLines, fun stands => nomatch stands⟩
  | feedLine text _ inductionHypothesis => exact inductionHypothesis.feedLine text
  | @lexSource _ before provenance text _ inductionHypothesis =>
      have keeps : KeepsSources before _ := .lexSource provenance text
      exact inductionHypothesis.later keeps.linesFed keeps.tables
  | lend operation _ inductionHypothesis =>
      exact inductionHypothesis.later rfl (.attempt _ operation)
  | execute _ ran inductionHypothesis =>
      have keeps := KeepsSources.executeFrom ran
      exact inductionHypothesis.later keeps.linesFed keeps.tables

/-- A shell without its root source. -/
def closed
    (shell : Shell) :
    Shell :=
  { shell with arena := shell.arena.attempt .closeSource }

end Shell

end ShellCore
