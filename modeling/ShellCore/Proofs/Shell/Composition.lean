import ShellCore.Proofs.Evaluation.Fuel
import ShellCore.Proofs.Shell.Statement
import ShellCore.Proofs.Source.Window

namespace ShellCore

/-!
# Programs run statement by statement

A program in two parts is executed part by part: the second part starts from the
shell that the first one leaves, unless that ends with an error. What a single
statement comes to is read off the end of its evaluation.
-/

/-- The outcome of statements with these outcomes, the first before the later ones. -/
def Outcome.followedBy
    (first later : Outcome) :
    Outcome where
  status := later.status
  diagnostics := first.diagnostics ++ later.diagnostics

namespace Shell

/-- A program, executed by a shell, ends with a result and leaves a shell behind. -/
def RunsTo
    (program : List Command)
    (before : Shell)
    (result : Except ShellError Outcome)
    (after : Shell) :
    Prop :=
  ∃ fuel, (execute fuel program).run before = some (result, after)

/-- What a statement comes to, and the shell that it leaves behind. -/
inductive Settles (before : Shell) (statement : Command) :
    Except ShellError Outcome → Shell → Prop where
  | normal {status : Int32} {machine : Machine} :
      Executes before.env statement before.machine (.ok (.normal status)) machine →
      Settles before statement (.ok ⟨status, []⟩)
        ((before.withMachine machine).settle status)
  /-- A signal that escapes and an error of the program are told of in one diagnostic. -/
  | reported {ended : Except RuntimeError ControlFlow} {machine : Machine}
      {error : RuntimeError} {location : Option String} :
      Executes before.env statement before.machine ended machine →
      Reported ended error →
      LocatedAt before.arena error.token? location →
      Settles before statement (.ok ⟨1, [⟨error.message, location, error.token?⟩]⟩)
        ((before.withMachine machine).settle 1)
  /-- The column of the token cannot be told, and the shell stops. -/
  | tooFarRight {ended : Except RuntimeError ControlFlow} {machine : Machine}
      {error : RuntimeError} {span : SpanId} :
      Executes before.env statement before.machine ended machine →
      Reported ended error →
      error.token? = some span →
      TooFarRight before.arena span →
      Settles before statement (.error .columnOverflow) (before.withMachine machine)
  | fault {machine : Machine} {error : RuntimeError} :
      Executes before.env statement before.machine (.error error) machine →
      error.isFatal = true →
      Settles before statement (.error (.statement error)) (before.withMachine machine)

section Fuel

variable {less more : Nat} {before : Shell}

/-- More fuel keeps every statement that was settled. -/
theorem executeStatement_more
    (atMost : less ≤ more)
    {statement : Command}
    {ended : Except ShellError (Int32 × Option Diagnostic) × Shell}
    (ran : (executeStatement less statement).run before = some ended) :
    (executeStatement more statement).run before = some ended := by
  obtain ⟨evaluated, machine, finished, settled⟩ := executeStatement_eq_some_iff.mp ran
  exact executeStatement_eq_some_iff.mpr
    ⟨evaluated, machine, evaluator_refinedBy atMost _ (.command statement) finished, settled⟩

/-- More fuel keeps every program that was executed to an end. -/
theorem executeFrom_more
    (atMost : less ≤ more)
    {program : List Command}
    {outcome : Outcome}
    {ended : Except ShellError Outcome × Shell}
    (ran : (executeFrom less outcome program).run before = some ended) :
    (executeFrom more outcome program).run before = some ended := by
  induction program generalizing before outcome with
  | nil => exact ran
  | cons statement rest inductionHypothesis =>
      refine Execution.bind_eq_some_iff.mpr ?_
      rcases Execution.bind_eq_some_iff.mp ran with
        ⟨error, failed, same⟩ | ⟨settled, between, started, others⟩
      · exact .inl ⟨error, executeStatement_more atMost failed, same⟩
      · exact .inr
          ⟨settled, between, executeStatement_more atMost started, inductionHypothesis others⟩

end Fuel

section Parts

variable (fuel : Nat)

/-- The statements of two programs run one after the other. -/
theorem executeFrom_append
    (outcome : Outcome)
    (first second : List Command) :
    executeFrom fuel outcome (first ++ second) =
      (do
        let reached ← executeFrom fuel outcome first
        executeFrom fuel reached second) := by
  induction first generalizing outcome with
  | nil => exact (pure_bind outcome (executeFrom fuel · second)).symm
  | cons statement rest inductionHypothesis =>
      simp only [List.cons_append, executeFrom, inductionHypothesis, bind_assoc]

/-- What was reached before has no part in what is executed on top of it. -/
theorem executeFrom_followedBy
    (reached outcome : Outcome)
    (program : List Command)
    (before : Shell) :
    (executeFrom fuel (reached.followedBy outcome) program).run before =
      ((executeFrom fuel outcome program).run before).map fun ended =>
        (ended.1.map reached.followedBy, ended.2) := by
  induction program generalizing outcome before with
  | nil => rfl
  | cons statement rest inductionHypothesis =>
      change Option.bind ((executeStatement fuel statement).run before) _ =
        Option.map _ (Option.bind ((executeStatement fuel statement).run before) _)
      rcases (executeStatement fuel statement).run before with
        _ | ⟨error | ⟨status, diagnostic⟩, between⟩
      · rfl
      · rfl
      · have sameOutcome :
            (reached.followedBy outcome).extend status diagnostic =
              reached.followedBy (outcome.extend status diagnostic) :=
          congrArg (Outcome.mk status)
            (List.append_assoc reached.diagnostics outcome.diagnostics diagnostic.toList)
        change (executeFrom fuel ((reached.followedBy outcome).extend status diagnostic) rest).run
            between =
          Option.map _
            ((executeFrom fuel (outcome.extend status diagnostic) rest).run between)
        rw [sameOutcome]
        exact inductionHypothesis _ _

/-- Of a program with a statement, nothing is left of the status that was reached before. -/
theorem executeFrom_of_execute
    {program : List Command}
    (nonempty : program ≠ [])
    (reached : Outcome)
    (before : Shell) :
    (executeFrom fuel reached program).run before =
      ((execute fuel program).run before).map fun ended =>
        (ended.1.map reached.followedBy, ended.2) := by
  cases program with
  | nil => exact absurd rfl nonempty
  | cons statement rest =>
      have onTop := executeFrom_followedBy fuel reached .initial (statement :: rest) before
      have sameOutcome :
          ∀ status diagnostic,
            (reached.followedBy .initial).extend status diagnostic =
              reached.extend status diagnostic := by
        intro status diagnostic
        exact congrArg (fun earlier => Outcome.mk status (earlier ++ diagnostic.toList))
          (List.append_nil reached.diagnostics)
      rw [execute, ← onTop]
      simp only [executeFrom, sameOutcome]

end Parts

section Composition

variable {before after : Shell} {result : Except ShellError Outcome}

/-- A program in two parts runs to an error of the first part or to the end of the second. -/
theorem runsTo_append_iff
    {first second : List Command}
    (nonempty : second ≠ []) :
    RunsTo (first ++ second) before result after ↔
      (∃ error, RunsTo first before (.error error) after ∧ result = .error error) ∨
        ∃ reached between later,
          RunsTo first before (.ok reached) between ∧
            RunsTo second between later after ∧
              result = later.map reached.followedBy := by
  constructor
  · rintro ⟨fuel, ran⟩
    rw [execute, executeFrom_append] at ran
    rcases Execution.bind_eq_some_iff.mp ran with
      ⟨error, failed, same⟩ | ⟨reached, between, started, others⟩
    · exact .inl ⟨error, ⟨fuel, failed⟩, same⟩
    · rw [executeFrom_of_execute fuel nonempty] at others
      obtain ⟨⟨later, _⟩, ended, same⟩ := Option.map_eq_some_iff.mp others
      cases same
      exact .inr ⟨reached, between, later, ⟨fuel, started⟩, ⟨fuel, ended⟩, rfl⟩
  · rintro (⟨error, ⟨fuel, failed⟩, rfl⟩ |
      ⟨reached, between, later, ⟨fuel, started⟩, ⟨otherFuel, ended⟩, rfl⟩)
    · refine ⟨fuel, ?_⟩
      rw [execute, executeFrom_append]
      exact Execution.bind_eq_some_iff.mpr (.inl ⟨error, failed, rfl⟩)
    · refine ⟨max fuel otherFuel, ?_⟩
      rw [execute, executeFrom_append]
      have startedWithMost := executeFrom_more (Nat.le_max_left fuel otherFuel) started
      have endedWithMost := executeFrom_more (Nat.le_max_right fuel otherFuel) ended
      refine Execution.bind_eq_some_iff.mpr (.inr ⟨reached, between, startedWithMost, ?_⟩)
      rw [executeFrom_of_execute _ nonempty]
      exact Option.map_eq_some_iff.mpr ⟨(later, after), endedWithMost, rfl⟩

/-- A program of one statement is evaluated, judged and settled. -/
theorem runsTo_singleton_iff
    {statement : Command} :
    RunsTo [statement] before result after ↔
      ∃ ended machine,
        Executes before.env statement before.machine ended machine ∧
          result = (judge before.arena ended).map (fun settled =>
            Outcome.initial.extend settled.1 settled.2) ∧
          after = (before.withMachine machine).settledBy (judge before.arena ended) := by
  constructor
  · rintro ⟨fuel, ran⟩
    rcases Execution.bind_eq_some_iff.mp ran with
      ⟨error, failed, rfl⟩ | ⟨settled, between, started, others⟩
    · obtain ⟨ended, machine, finished, verdict, rfl⟩ := executeStatement_eq_some_iff.mp failed
      exact ⟨ended, machine, ⟨fuel, finished⟩, by rw [← verdict]; rfl, by rw [← verdict]⟩
    · obtain ⟨ended, machine, finished, verdict, rfl⟩ := executeStatement_eq_some_iff.mp started
      cases others
      exact ⟨ended, machine, ⟨fuel, finished⟩, by rw [← verdict]; rfl, by rw [← verdict]⟩
  · rintro ⟨ended, machine, ⟨fuel, finished⟩, rfl, rfl⟩
    have settled := executeStatement_eq_some_iff.mpr ⟨ended, machine, finished, rfl, rfl⟩
    refine ⟨fuel, Execution.bind_eq_some_iff.mpr ?_⟩
    cases verdict : judge before.arena ended with
    | error error =>
        rw [verdict] at settled
        exact .inl ⟨error, settled, rfl⟩
    | ok judged =>
        rw [verdict] at settled
        exact .inr ⟨judged, _, settled, rfl⟩

/-- A program of one statement runs to what the statement comes to. -/
theorem runsTo_statement_iff
    {statement : Command} :
    RunsTo [statement] before result after ↔ Settles before statement result after := by
  rw [runsTo_singleton_iff]
  constructor
  · rintro ⟨ended, machine, executed, rfl, rfl⟩
    rcases ended_cases ended with ⟨status, rfl⟩ | ⟨error, reported⟩ | ⟨error, rfl, fatal⟩
    · exact .normal executed
    · rw [judge_of_reported reported]
      rcases located_or_tooFarRight before.arena error.token? with
        ⟨location, located⟩ | ⟨span, hasToken, tooFar⟩
      · rw [diagnose_of_located located]
        exact .reported executed reported located
      · rw [diagnose_of_tooFarRight hasToken tooFar]
        exact .tooFarRight executed reported hasToken tooFar
    · rw [judge_of_fatal fatal]
      exact .fault executed fatal
  · intro settles
    cases settles with
    | normal executed => exact ⟨_, _, executed, rfl, rfl⟩
    | reported executed reported located =>
        refine ⟨_, _, executed, ?_, ?_⟩ <;>
          rw [judge_of_reported reported, diagnose_of_located located] <;> rfl
    | tooFarRight executed reported hasToken tooFar =>
        refine ⟨_, _, executed, ?_, ?_⟩ <;>
          rw [judge_of_reported reported, diagnose_of_tooFarRight hasToken tooFar] <;> rfl
    | fault executed fatal =>
        refine ⟨_, _, executed, ?_, ?_⟩ <;> rw [judge_of_fatal fatal] <;> rfl

/-- A program runs to one end. -/
theorem RunsTo.unique
    {program : List Command}
    {otherResult : Except ShellError Outcome}
    {otherAfter : Shell}
    (runs : RunsTo program before result after)
    (otherRuns : RunsTo program before otherResult otherAfter) :
    otherResult = result ∧ otherAfter = after := by
  obtain ⟨fuel, ran⟩ := runs
  obtain ⟨otherFuel, otherRan⟩ := otherRuns
  have withMost := executeFrom_more (Nat.le_max_left fuel otherFuel) ran
  have otherWithMost := executeFrom_more (Nat.le_max_right fuel otherFuel) otherRan
  rw [withMost] at otherWithMost
  cases otherWithMost
  exact ⟨rfl, rfl⟩

/-- The last status is that of the statement that was settled last. -/
theorem Settles.lastStatus
    {statement : Command}
    {outcome : Outcome}
    (settles : Settles before statement (.ok outcome) after) :
    after.lastStatus = outcome.status := by
  cases settles <;> rfl

end Composition

/--
A program in two parts, the second with a statement, runs to an error of the first
part, or to what the second part runs to from where the first one ended: its error,
or its status behind the diagnostics of both. A program of one statement runs to
what the statement comes to, which is left as the last status. A program whose first
statement comes to an error ends there, and no program has two ends.
-/
theorem execution_composes
    (before : Shell) :
    (∀ first second result after,
      second ≠ [] →
      (RunsTo (first ++ second) before result after ↔
        (∃ error, RunsTo first before (.error error) after ∧ result = .error error) ∨
          ∃ reached between later,
            RunsTo first before (.ok reached) between ∧
              RunsTo second between later after ∧
                result = later.map reached.followedBy)) ∧
    (∀ statement result after,
      RunsTo [statement] before result after ↔ Settles before statement result after) ∧
    (∀ statement outcome after,
      Settles before statement (.ok outcome) after →
      after.lastStatus = outcome.status) ∧
    (∀ statement rest error after,
      Settles before statement (.error error) after →
      RunsTo (statement :: rest) before (.error error) after) ∧
    ∀ program result otherResult after otherAfter,
      RunsTo program before result after →
      RunsTo program before otherResult otherAfter →
      otherResult = result ∧ otherAfter = after := by
  refine ⟨fun _ _ _ _ => runsTo_append_iff, fun _ _ _ => runsTo_statement_iff,
    fun _ _ _ => Settles.lastStatus, ?_, fun _ _ _ _ _ => RunsTo.unique⟩
  intro statement rest error after settles
  have alone : RunsTo [statement] before (.error error) after :=
    runsTo_statement_iff.mpr settles
  cases rest with
  | nil => exact alone
  | cons next rest =>
      have nonempty : next :: rest ≠ [] := List.cons_ne_nil next rest
      have parts : RunsTo ([statement] ++ next :: rest) before (.error error) after :=
        (runsTo_append_iff nonempty).mpr (.inl ⟨error, alone, rfl⟩)
      exact parts

/-- A break that escapes, in a program whose other statement succeeds. -/
theorem escaped_break_composes :
    ∃ shell reached between later after,
      Shell.new .transient .inert = .ok shell ∧
        RunsTo [.control .breakLoop none ⟨0⟩] shell (.ok reached) between ∧
        RunsTo [.subshell (.simple [.literal "true"] ⟨1⟩)] between (.ok later) after ∧
        RunsTo
          [.control .breakLoop none ⟨0⟩, .subshell (.simple [.literal "true"] ⟨1⟩)] shell
          (.ok (reached.followedBy later)) after ∧
        (reached.followedBy later).status = 0 ∧
        (reached.followedBy later).diagnostics =
          [⟨"'break' cannot be used outside a loop", none, some ⟨0⟩⟩] := by
  have ran :
      ((Shell.new .transient .inert).toOption.bind fun shell =>
          (execute 4
            [.control .breakLoop none ⟨0⟩, .subshell (.simple [.literal "true"] ⟨1⟩)]).run
              shell).map (fun ended => ended.1.toOption) =
        some (some ⟨0, [⟨"'break' cannot be used outside a loop", none, some ⟨0⟩⟩]⟩) := by
    decide +kernel
  obtain ⟨⟨result, after⟩, found, shape⟩ := Option.map_eq_some_iff.mp ran
  obtain ⟨shell, isBuilt, finished⟩ := Option.bind_eq_some_iff.mp found
  have ended := Arena.ok_of_toOption shape
  dsimp only at ended
  subst ended
  rcases ((execution_composes shell).1 [.control .breakLoop none ⟨0⟩]
      [.subshell (.simple [.literal "true"] ⟨1⟩)] _ after (List.cons_ne_nil _ _)).mp
      ⟨4, finished⟩ with
    ⟨_, _, same⟩ | ⟨reached, between, later, first, second, same⟩
  · cases same
  cases later with
  | error error => cases same
  | ok later =>
      have sameOutcome := Except.ok.inj same
      refine ⟨shell, reached, between, later, after, Arena.ok_of_toOption isBuilt, first,
        second, ?_⟩
      rw [← sameOutcome]
      exact ⟨⟨4, finished⟩, rfl, rfl⟩

/-- A shell that was fed a line, with a keyword at the last column of that line. -/
def withKeywordInLastColumn : Option Shell :=
  (Shell.new .transient .inert).toOption.bind fun shell =>
    let fed := (shell.feedLine "x\n").2
    let (added, arena) := fed.arena.addToken (.control .breakLoop) 4294967295 0 ⟨0⟩ ""
    added.toOption.map fun _ => { fed with arena := arena }

/-- A break that escapes there is not told of: the shell stops, and has no outcome. -/
theorem break_in_last_column_has_no_outcome :
    ∃ shell after,
      withKeywordInLastColumn = some shell ∧
        RunsTo [.control .breakLoop none ⟨2⟩] shell (.error .columnOverflow) after ∧
        ∀ outcome later, ¬ RunsTo [.control .breakLoop none ⟨2⟩] shell (.ok outcome) later := by
  have stops :
      (withKeywordInLastColumn.bind fun shell =>
          (execute 2 [.control .breakLoop none ⟨2⟩]).run shell).map (fun ended =>
            match ended.1 with
            | .error .columnOverflow => true
            | _ => false) =
        some true := by
    decide +kernel
  obtain ⟨⟨result, after⟩, found, shape⟩ := Option.map_eq_some_iff.mp stops
  obtain ⟨shell, isShell, finished⟩ := Option.bind_eq_some_iff.mp found
  dsimp only at shape
  split at shape
  next =>
    refine ⟨shell, after, isShell, ⟨2, finished⟩, fun outcome later runs => ?_⟩
    obtain ⟨same, -⟩ := RunsTo.unique ⟨2, finished⟩ runs
    cases same
  next => cases shape

end Shell

end ShellCore
