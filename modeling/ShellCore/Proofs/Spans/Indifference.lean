import ShellCore.Proofs.Shell.Composition
import ShellCore.Proofs.Spans.Requests

namespace ShellCore

/-!
# Indifference to tokens

Programs that are alike, run by shells that are alike, come to outcomes that are alike
and leave shells behind that are. Only telling a user of an error looks at what its token
is: the diagnostic names the token and where it stands, and of a token that stands too
far right nobody can be told.
-/

variable {paired : SpanId → SpanId → Prop}

namespace RuntimeError.Alike

variable {error other : RuntimeError}

theorem message_eq
    (errors : error.Alike paired other) :
    other.message = error.message := by
  cases errors <;> rfl

theorem tokens
    (errors : error.Alike paired other) :
    Option.Rel paired error.token? other.token? := by
  cases errors with
  | tokenless none =>
      rw [none]
      exact .none
  | unmatchedControl tokens => exact .some tokens
  | numericArgRequired tokens => exact .some tokens
  | badLoopLevel tokens => exact .some tokens
  | typedReturnInProc tokens => exact .some tokens
  | undefinedFunction tokens => exact .some tokens

theorem isFatal_eq
    (errors : error.Alike paired other) :
    other.isFatal = error.isFatal := by
  cases errors <;> rfl

/-- A fault is about no token, and so the same. -/
theorem eq_of_fatal
    (errors : error.Alike paired other)
    (fatal : error.isFatal = true) :
    other = error := by
  cases errors with
  | tokenless _ => rfl
  | _ => cases fatal

end RuntimeError.Alike

/-- Diagnostics with one message, of paired tokens or none, each located by its own token. -/
structure Diagnostic.Alike
    (paired : SpanId → SpanId → Prop)
    (arena : Arena)
    (diagnostic other : Diagnostic) :
    Prop where
  message : other.message = diagnostic.message
  token : Option.Rel paired diagnostic.token other.token
  location : Shell.LocatedAt arena diagnostic.token diagnostic.location
  otherLocation : Shell.LocatedAt arena other.token other.location

/-- Outcomes with the same status, and with diagnostics that are alike. -/
structure Outcome.Alike
    (paired : SpanId → SpanId → Prop)
    (arena : Arena)
    (outcome other : Outcome) :
    Prop where
  status : other.status = outcome.status
  diagnostics :
    List.Forall₂ (Diagnostic.Alike paired arena) outcome.diagnostics other.diagnostics

/-- What two statements come to: the same status, and diagnostics that are alike or none. -/
def VerdictAlike
    (paired : SpanId → SpanId → Prop)
    (arena : Arena)
    (verdict other : Int32 × Option Diagnostic) :
    Prop :=
  other.1 = verdict.1 ∧ Option.Rel (Diagnostic.Alike paired arena) verdict.2 other.2

theorem Outcome.Alike.extend
    {arena : Arena}
    {outcome other : Outcome}
    {verdict otherVerdict : Int32 × Option Diagnostic}
    (outcomes : outcome.Alike paired arena other)
    (verdicts : VerdictAlike paired arena verdict otherVerdict) :
    Outcome.Alike paired arena (outcome.extend verdict.1 verdict.2)
      (other.extend otherVerdict.1 otherVerdict.2) := by
  obtain ⟨status, diagnostic⟩ := verdict
  obtain ⟨otherStatus, otherDiagnostic⟩ := otherVerdict
  obtain ⟨sameStatus, diagnostics⟩ := verdicts
  refine ⟨sameStatus, List.rel_append outcomes.diagnostics ?_⟩
  dsimp only at diagnostics ⊢
  cases diagnostics with
  | none => exact .nil
  | some alike => exact .cons alike .nil

namespace Shell

/-- Shells with machines that are alike, and equal in all else. -/
inductive Alike (paired : SpanId → SpanId → Prop) : Shell → Shell → Prop where
  | mk (shell : Shell) {machine otherMachine : Machine} :
      shell.env.Respects paired →
      machine.Alike paired otherMachine →
      Alike paired (shell.withMachine machine) (shell.withMachine otherMachine)

/--
Two executions end alike: both run out of fuel, both end with answers that are related,
or both stop at the same fault. But where one of two paired tokens stands too far right,
the execution that has to tell of it stops, whatever becomes of the other one.
-/
inductive EndsAlike (paired : SpanId → SpanId → Prop) (arena : Arena) (related : α → α → Prop) :
    Option (Except ShellError α × Shell) → Option (Except ShellError α × Shell) → Prop where
  | outOfFuel :
      EndsAlike paired arena related none none
  | answered {answer other : α} {after otherAfter : Shell} :
      related answer other →
      after.Alike paired otherAfter →
      EndsAlike paired arena related (some (.ok answer, after)) (some (.ok other, otherAfter))
  | fault {error : RuntimeError} {after otherAfter : Shell} :
      error.isFatal = true →
      after.Alike paired otherAfter →
      EndsAlike paired arena related (some (.error (.statement error), after))
        (some (.error (.statement error), otherAfter))
  | tooFarRight {span otherSpan : SpanId} {after : Shell}
      {otherEnded : Option (Except ShellError α × Shell)} :
      paired span otherSpan →
      TooFarRight arena span →
      EndsAlike paired arena related (some (.error .columnOverflow, after)) otherEnded
  | otherTooFarRight {span otherSpan : SpanId} {otherAfter : Shell}
      {ended : Option (Except ShellError α × Shell)} :
      paired span otherSpan →
      TooFarRight arena otherSpan →
      EndsAlike paired arena related ended (some (.error .columnOverflow, otherAfter))

section Places

variable {arena otherArena : Arena}

/-- What stands at a place in one arena stands there in the other. -/
def SamePlaces
    (arena otherArena : Arena) :
    Prop :=
  ∀ span token number source,
    Place arena span token number source ↔ Place otherArena span token number source

/-- To settle with a status moves no token: at most the window is cleared. -/
theorem samePlaces_settle
    (status : Int32)
    (shell : Shell) :
    SamePlaces (shell.settle status).arena shell.arena := by
  unfold settle
  dsimp only
  split
  · exact fun _ _ _ _ =>
      ⟨fun place => ⟨place.found, place.number, place.source⟩,
        fun place => ⟨place.found, place.number, place.source⟩⟩
  · exact fun _ _ _ _ => Iff.rfl

theorem SamePlaces.symm
    (same : SamePlaces arena otherArena) :
    SamePlaces otherArena arena :=
  fun span token number source => (same span token number source).symm

theorem SamePlaces.tooFarRight
    (same : SamePlaces arena otherArena)
    {span : SpanId}
    (tooFar : TooFarRight arena span) :
    TooFarRight otherArena span := by
  obtain ⟨token, number, source, place, last⟩ := tooFar
  exact ⟨token, number, source, (same _ _ _ _).mp place, last⟩

theorem SamePlaces.locatedAt
    (same : SamePlaces arena otherArena)
    {token : Option SpanId}
    {location : Option String}
    (located : LocatedAt arena token location) :
    LocatedAt otherArena token location := by
  cases located with
  | noToken => exact .noToken
  | nowhere nowhere => exact .nowhere fun _ _ _ place => nowhere _ _ _ ((same _ _ _ _).mpr place)
  | place place fits => exact .place ((same _ _ _ _).mp place) fits

theorem SamePlaces.diagnostic
    (same : SamePlaces arena otherArena)
    {diagnostic other : Diagnostic}
    (alike : diagnostic.Alike paired arena other) :
    diagnostic.Alike paired otherArena other where
  message := alike.message
  token := alike.token
  location := same.locatedAt alike.location
  otherLocation := same.locatedAt alike.otherLocation

theorem SamePlaces.outcome
    (same : SamePlaces arena otherArena)
    {outcome other : Outcome}
    (alike : outcome.Alike paired arena other) :
    outcome.Alike paired otherArena other where
  status := alike.status
  diagnostics := alike.diagnostics.imp fun _ _ => same.diagnostic

theorem SamePlaces.endsAlike
    (same : SamePlaces arena otherArena)
    {ended otherEnded : Option (Except ShellError Outcome × Shell)}
    (alike : EndsAlike paired arena (Outcome.Alike paired arena) ended otherEnded) :
    EndsAlike paired otherArena (Outcome.Alike paired otherArena) ended otherEnded := by
  cases alike with
  | outOfFuel => exact .outOfFuel
  | answered outcomes shells => exact .answered (same.outcome outcomes) shells
  | fault fatal shells => exact .fault fatal shells
  | tooFarRight spans tooFar => exact .tooFarRight spans (same.tooFarRight tooFar)
  | otherTooFarRight spans tooFar => exact .otherTooFarRight spans (same.tooFarRight tooFar)

end Places

section Statements

variable {shell : Shell} (respects : shell.env.Respects paired)

/-- What a statement comes to whose evaluation ended so, and the shell that it leaves behind. -/
def settledAt
    (shell : Shell)
    (ended : Except RuntimeError ControlFlow × Machine) :
    Except ShellError (Int32 × Option Diagnostic) × Shell :=
  (judge shell.arena ended.1,
    (shell.withMachine ended.2).settledBy (judge shell.arena ended.1))

/-- A statement is evaluated and then judged and settled. -/
theorem executeStatement_eq
    (fuel : Nat)
    (statement : Command) :
    (executeStatement fuel statement).run shell =
      ((Evaluator.command (evaluator fuel) shell.env statement).run shell.machine).map
        shell.settledAt := by
  refine Option.ext fun ⟨result, after⟩ => ?_
  rw [executeStatement_eq_some_iff, Option.map_eq_some_iff]
  constructor
  · rintro ⟨ended, machine, finished, rfl, rfl⟩
    exact ⟨(ended, machine), finished, rfl⟩
  · rintro ⟨⟨ended, machine⟩, finished, same⟩
    cases same
    exact ⟨ended, machine, finished, rfl, rfl⟩

variable {machine otherMachine : Machine} (machines : machine.Alike paired otherMachine)

include respects machines

theorem settle_alike
    (status : Int32) :
    Alike paired ((shell.withMachine machine).settle status)
      ((shell.withMachine otherMachine).settle status) := by
  refine .mk (shell.settle status) respects (machines.mapScope ?_)
  exact machines.scope.map (fun scope => { scope with lastStatus := status }) fun _ _ _ => rfl

/-- Statements that are reported with errors that are alike are told of alike, if at all. -/
theorem reported_endsAlike
    {ended otherEnded : Except RuntimeError ControlFlow}
    {error otherError : RuntimeError}
    (reported : Reported ended error)
    (otherReported : Reported otherEnded otherError)
    (errors : error.Alike paired otherError) :
    EndsAlike paired shell.arena (VerdictAlike paired shell.arena)
      (some (shell.settledAt (ended, machine)))
      (some (shell.settledAt (otherEnded, otherMachine))) := by
  have tokens := errors.tokens
  unfold settledAt
  dsimp only
  rw [judge_of_reported reported, judge_of_reported otherReported]
  rcases located_or_tooFarRight shell.arena error.token? with
    ⟨location, located⟩ | ⟨span, hasToken, tooFar⟩
  · rcases located_or_tooFarRight shell.arena otherError.token? with
      ⟨otherLocation, otherLocated⟩ | ⟨otherSpan, otherHasToken, tooFar⟩
    · rw [diagnose_of_located located, diagnose_of_located otherLocated]
      exact .answered ⟨rfl, .some ⟨errors.message_eq, tokens, located, otherLocated⟩⟩
        (settle_alike respects machines errorStatus)
    · rw [diagnose_of_tooFarRight otherHasToken tooFar]
      rw [otherHasToken] at tokens
      generalize error.token? = token at tokens
      cases tokens with
      | some spans => exact .otherTooFarRight spans tooFar
  · rw [diagnose_of_tooFarRight hasToken tooFar]
    rw [hasToken] at tokens
    generalize otherError.token? = otherToken at tokens
    cases tokens with
    | some spans => exact .tooFarRight spans tooFar

/-- Evaluations that ended alike are judged and settled alike. -/
theorem settledAt_endsAlike
    {ended otherEnded : Except RuntimeError ControlFlow}
    (results : ResultAlike paired (ControlFlow.Alike paired) ended otherEnded) :
    EndsAlike paired shell.arena (VerdictAlike paired shell.arena)
      (some (shell.settledAt (ended, machine)))
      (some (shell.settledAt (otherEnded, otherMachine))) := by
  cases results with
  | ok flows =>
      cases flows with
      | normal status =>
          exact .answered ⟨rfl, .none⟩ (settle_alike respects machines status)
      | @raise signal other signals =>
          exact reported_endsAlike respects machines (.escaped signal) (.escaped other)
            signals.unmatched
  | @error error other errors =>
      cases fatal : error.isFatal with
      | false =>
          exact reported_endsAlike respects machines (.failed fatal)
            (.failed (errors.isFatal_eq.trans fatal)) errors
      | true =>
          rw [errors.eq_of_fatal fatal]
          unfold settledAt
          dsimp only
          rw [judge_of_fatal fatal]
          exact .fault fatal (.mk shell respects machines)

end Statements

/-- Statements that are alike come to the same, and leave shells behind that are alike. -/
theorem executeStatement_alike
    (fuel : Nat)
    {shell otherShell : Shell}
    {statement other : Command}
    (shells : shell.Alike paired otherShell)
    (statements : statement.Alike paired other) :
    EndsAlike paired shell.arena (VerdictAlike paired shell.arena)
      ((executeStatement fuel statement).run shell)
      ((executeStatement fuel other).run otherShell) := by
  cases shells with
  | mk shell respects machines =>
      rw [executeStatement_eq, executeStatement_eq]
      have evaluated := Evaluator.alike fuel respects (.command statements) machines
      change Option.Rel _
        ((Evaluator.command (evaluator fuel) shell.env statement).run _)
        ((Evaluator.command (evaluator fuel) shell.env other).run _) at evaluated
      dsimp only [withMachine] at evaluated ⊢
      generalize (Evaluator.command (evaluator fuel) shell.env statement).run _ = ended
        at evaluated ⊢
      generalize (Evaluator.command (evaluator fuel) shell.env other).run _ = otherEnded
        at evaluated ⊢
      cases evaluated with
      | none => exact .outOfFuel
      | some both => exact settledAt_endsAlike respects both.2 both.1

/-- A statement that was settled moved no token. -/
theorem samePlaces_executeStatement
    {fuel : Nat}
    {before after : Shell}
    {statement : Command}
    {verdict : Int32 × Option Diagnostic}
    (settled : (executeStatement fuel statement).run before = some (.ok verdict, after)) :
    SamePlaces after.arena before.arena := by
  obtain ⟨ended, machine, -, same, rfl⟩ := executeStatement_eq_some_iff.mp settled
  exact samePlaces_settle verdict.1 (before.withMachine machine)

/-- Programs that are alike add the same to outcomes that are alike, statement by statement. -/
theorem executeFrom_alike
    (fuel : Nat)
    {shell otherShell : Shell}
    {outcome otherOutcome : Outcome}
    {program otherProgram : List Command}
    (shells : shell.Alike paired otherShell)
    (outcomes : outcome.Alike paired shell.arena otherOutcome)
    (programs : List.Forall₂ (Command.Alike paired) program otherProgram) :
    EndsAlike paired shell.arena (Outcome.Alike paired shell.arena)
      ((executeFrom fuel outcome program).run shell)
      ((executeFrom fuel otherOutcome otherProgram).run otherShell) := by
  induction programs generalizing shell otherShell outcome otherOutcome with
  | nil => exact .answered outcomes shells
  | @cons statement other rest otherRest statements _ inductionHypothesis =>
      have first := executeStatement_alike fuel shells statements
      change EndsAlike paired shell.arena _
        (Option.bind ((executeStatement fuel statement).run shell) _)
        (Option.bind ((executeStatement fuel other).run otherShell) _)
      generalize settled : (executeStatement fuel statement).run shell = ended at first ⊢
      generalize (executeStatement fuel other).run otherShell = otherEnded at first ⊢
      cases first with
      | outOfFuel => exact .outOfFuel
      | answered verdicts between =>
          -- the statement cleared the window at most, so tokens are where they were
          have same := samePlaces_executeStatement settled
          have extended := outcomes.extend verdicts
          exact same.endsAlike
            (inductionHypothesis between (same.symm.outcome extended))
      | fault fatal after => exact .fault fatal after
      | tooFarRight spans tooFar => exact .tooFarRight spans tooFar
      | otherTooFarRight spans tooFar => exact .otherTooFarRight spans tooFar

/-- A shell that was just built holds no token, and so is alike itself. -/
theorem new_alike
    {config : Config}
    {shell : Shell}
    (built : new config .inert = .ok shell) :
    shell.env.Respects paired ∧ shell.machine.Alike paired shell.machine := by
  cases built
  have initial (xtrace : Bool) :
      Scope.Alike paired { Scope.initial with xtrace := xtrace }
        { Scope.initial with xtrace := xtrace } :=
    .mk { Scope.initial with xtrace := xtrace } .nil ⟨rfl, .nil⟩
  exact ⟨⟨nofun, nofun⟩, initial config.xtrace, rfl, .inert, initial false, rfl⟩

/-- Feeding a line and adding a token to it change neither environment nor machine. -/
theorem withKeywordInLastColumn_alike
    {shell : Shell}
    (isShell : withKeywordInLastColumn = some shell) :
    shell.Alike paired shell := by
  obtain ⟨first, isBuilt, isFed⟩ := Option.bind_eq_some_iff.mp isShell
  have tokenless :
      first.env.Respects paired ∧ first.machine.Alike paired first.machine :=
    new_alike (Arena.ok_of_toOption isBuilt)
  dsimp only at isFed
  generalize (first.feedLine "x\n").2.arena.addToken _ _ _ _ _ = performed at isFed
  obtain ⟨span, -, rfl⟩ := Option.map_eq_some_iff.mp isFed
  exact .mk { (first.feedLine "x\n").2 with arena := performed.2 } tokenless.1 tokenless.2

/-- A break in the body of a procedure, where the keyword and the definition are one token. -/
def breakInProc
    (token : SpanId) :
    List Command :=
  [.define ⟨"f", [], [.control .breakLoop none token], false, token⟩, .simple [.literal "f"] token]

theorem breakInProc_alike
    {token other : SpanId}
    (tokens : paired token other) :
    List.Forall₂ (Command.Alike paired) (breakInProc token) (breakInProc other) :=
  .cons (.define (.mk (.cons (.control tokens) .nil) tokens))
    (.cons (.simple (.cons (.literal "f") .nil) tokens) .nil)

/-- What a program comes to that a break escapes from, with a token at a location. -/
def breakTold
    (location : String)
    (token : SpanId) :
    Outcome :=
  ⟨1, [⟨"'break' cannot be used outside a loop", some location, some token⟩]⟩

/-- One token is paired with one other, and there are no other pairs. -/
def PairedOnly
    (first second span other : SpanId) :
    Prop :=
  span = first ∧ other = second

/--
Requests for what is alike, made in machines that are alike, are answered alike with any
fuel: the answers are equal but for the tokens of signals and of errors, and those are
paired; the machines that are left have the same variables, traces, files, outputs and
calls. Programs that are alike come to the same statuses and to the same messages, about
paired tokens, and leave shells behind that are alike; but one that has to tell of a
token that stands too far right stops.
-/
theorem execution_is_indifferent_to_tokens
    (fuel : Nat)
    {shell otherShell : Shell}
    {program otherProgram : List Command}
    (shells : shell.Alike paired otherShell)
    (programs : List.Forall₂ (Command.Alike paired) program otherProgram) :
    (∀ {α : Type} (env : Env) (request other : Request α),
      env.Respects paired →
      request.Alike paired other →
      Eval.Alike paired (request.Answered paired) (evaluator fuel α env request)
        (evaluator fuel α env other)) ∧
    EndsAlike paired shell.arena (Outcome.Alike paired shell.arena)
      ((execute fuel program).run shell) ((execute fuel otherProgram).run otherShell) := by
  refine ⟨fun _ _ _ respects requests => Evaluator.alike fuel respects requests, ?_⟩
  exact executeFrom_alike fuel shells ⟨rfl, .nil⟩ programs

theorem breaks_differ_in_location_only :
    ∃ shell after otherAfter,
      withKeywordInLastColumn = some shell ∧
        EndsAlike (PairedOnly ⟨0⟩ ⟨1⟩) shell.arena (Outcome.Alike (PairedOnly ⟨0⟩ ⟨1⟩) shell.arena)
          ((execute 4 (breakInProc ⟨0⟩)).run shell) ((execute 4 (breakInProc ⟨1⟩)).run shell) ∧
        (execute 4 (breakInProc ⟨0⟩)).run shell =
          some (.ok (breakTold "[ transient ]:1:1" ⟨0⟩), after) ∧
        (execute 4 (breakInProc ⟨1⟩)).run shell =
          some (.ok (breakTold "[ transient ]:1:2" ⟨1⟩), otherAfter) := by
  have ran :
      (withKeywordInLastColumn.bind fun shell =>
          ((execute 4 (breakInProc ⟨0⟩)).run shell).bind fun ended =>
            ((execute 4 (breakInProc ⟨1⟩)).run shell).map fun otherEnded =>
              (ended.1.toOption, otherEnded.1.toOption)) =
        some (some (breakTold "[ transient ]:1:1" ⟨0⟩),
          some (breakTold "[ transient ]:1:2" ⟨1⟩)) := by
    decide +kernel
  obtain ⟨shell, isShell, found⟩ := Option.bind_eq_some_iff.mp ran
  obtain ⟨⟨result, after⟩, finished, found⟩ := Option.bind_eq_some_iff.mp found
  obtain ⟨⟨otherResult, otherAfter⟩, otherFinished, shape⟩ := Option.map_eq_some_iff.mp found
  have told := Arena.ok_of_toOption (congrArg Prod.fst shape)
  have otherTold := Arena.ok_of_toOption (congrArg Prod.snd shape)
  dsimp only at told otherTold
  subst told otherTold
  refine ⟨shell, after, otherAfter, isShell, ?_, finished, otherFinished⟩
  exact (execution_is_indifferent_to_tokens 4 (withKeywordInLastColumn_alike isShell)
    (breakInProc_alike ⟨rfl, rfl⟩)).2

/-- Of two breaks that differ in their token only, one is told of and the other one stops. -/
theorem break_in_last_column_ends_otherwise :
    ∃ shell after otherAfter,
      withKeywordInLastColumn = some shell ∧
        shell.Alike (PairedOnly ⟨0⟩ ⟨2⟩) shell ∧
        Command.Alike (PairedOnly ⟨0⟩ ⟨2⟩) (.control .breakLoop none ⟨0⟩)
          (.control .breakLoop none ⟨2⟩) ∧
        RunsTo [.control .breakLoop none ⟨0⟩] shell
          (.ok (breakTold "[ transient ]:1:1" ⟨0⟩)) after ∧
        RunsTo [.control .breakLoop none ⟨2⟩] shell (.error .columnOverflow) otherAfter ∧
        ∀ outcome later, ¬ RunsTo [.control .breakLoop none ⟨2⟩] shell (.ok outcome) later := by
  have ran :
      (withKeywordInLastColumn.bind fun shell =>
          ((execute 2 [.control .breakLoop none ⟨0⟩]).run shell).bind fun ended =>
            ((execute 2 [.control .breakLoop none ⟨2⟩]).run shell).map fun otherEnded =>
              (ended.1.toOption,
                match otherEnded.1 with
                | .error .columnOverflow => true
                | _ => false)) =
        some (some (breakTold "[ transient ]:1:1" ⟨0⟩), true) := by
    decide +kernel
  obtain ⟨shell, isShell, found⟩ := Option.bind_eq_some_iff.mp ran
  obtain ⟨⟨result, after⟩, finished, found⟩ := Option.bind_eq_some_iff.mp found
  obtain ⟨⟨otherResult, otherAfter⟩, otherFinished, shape⟩ := Option.map_eq_some_iff.mp found
  have told := Arena.ok_of_toOption (congrArg Prod.fst shape)
  have stopped := congrArg Prod.snd shape
  dsimp only at told stopped
  subst told
  split at stopped
  next =>
    refine ⟨shell, after, otherAfter, isShell, withKeywordInLastColumn_alike isShell,
      .control ⟨rfl, rfl⟩, ⟨2, finished⟩, ⟨2, otherFinished⟩, fun outcome later runs => ?_⟩
    obtain ⟨same, -⟩ := RunsTo.unique ⟨2, otherFinished⟩ runs
    cases same
  next => cases stopped

end Shell

end ShellCore
