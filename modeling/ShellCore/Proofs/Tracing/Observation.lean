import ShellCore.Proofs.Tracing.Evaluation
import ShellCore.Proofs.Tracing.Silence
import ShellCore.Proofs.Wiring.Assembly
import ShellCore.Shell.Basic

namespace ShellCore

/-!
# Tracing only observes

Shells that differ in tracing alone execute a program alike: what they answer is
the same, and what they leave behind differs in tracing alone.
-/

/-- The configuration without tracing, and without a prompt for traced lines. -/
def Config.untraced
    (config : Config) :
    Config :=
  { config with
    xtrace := false
    ps4 := "" }

namespace Shell

/-- The shell without tracing: without the option, the prompt and the lines traced so far. -/
def untraced
    (shell : Shell) :
    Shell :=
  { shell with
    config := shell.config.untraced
    env := shell.env.untraced
    machine := shell.machine.untraced }

/-- What an execution answers and leaves behind, but for tracing. -/
def observed
    (ended : α × Shell) :
    α × Shell :=
  (ended.1, ended.2.untraced)

/-- The environment stayed as it was, and nothing was traced where tracing is off. -/
structure Quiet
    (before after : Shell) :
    Prop where
  env : after.env = before.env
  machine : before.machine.Silent after.machine

namespace Quiet

theorem refl
    (shell : Shell) :
    Quiet shell shell :=
  ⟨rfl, Machine.Silent.composable.refl _⟩

theorem trans
    {left middle right : Shell}
    (earlier : Quiet left middle)
    (later : Quiet middle right) :
    Quiet left right :=
  ⟨later.env.trans earlier.env, Machine.Silent.composable.trans earlier.machine later.machine⟩

end Quiet

end Shell

namespace Execution

/--
Tracing has no part in the execution: it turns no tracing on or off, traces
nothing where tracing is off, and does the same from a shell without tracing.
-/
structure Unobserved
    (execution : Execution α) :
    Prop where
  quiet : ∀ ⦃before after : Shell⦄ ⦃result : Except ShellError α⦄,
    execution.run before = some (result, after) → before.Quiet after
  erases : ∀ ⦃shell : Shell⦄,
    shell.env.Wired →
    execution.run shell.untraced = (execution.run shell).map Shell.observed

namespace Unobserved

open Shell

theorem pure
    (answer : α) :
    Unobserved (pure answer : Execution α) where
  quiet before after result ran := by
    cases ran
    exact .refl _
  erases _ _ := rfl

theorem throw
    (error : ShellError) :
    Unobserved (throw error : Execution α) where
  quiet before after result ran := by
    cases ran
    exact .refl _
  erases _ _ := rfl

theorem bind
    {first : Execution α}
    {next : α → Execution β}
    (firstUnobserved : first.Unobserved)
    (nextUnobserved : ∀ answer, (next answer).Unobserved) :
    Unobserved (first >>= next) where
  quiet before after result ran := by
    obtain ⟨⟨reached, between⟩, started, rest⟩ := Option.bind_eq_some_iff.mp ran
    have earlier := firstUnobserved.quiet started
    cases reached with
    | ok answer => exact earlier.trans ((nextUnobserved answer).quiet rest)
    | error error =>
        cases rest
        exact earlier
  erases shell wired := by
    change (first.run shell.untraced).bind _ = Option.map _ ((first.run shell).bind _)
    rw [firstUnobserved.erases wired]
    rcases started : first.run shell with _ | ⟨reached, between⟩
    · rfl
    · have stillWired : between.env.Wired := (firstUnobserved.quiet started).env ▸ wired
      cases reached with
      | ok answer => exact (nextUnobserved answer).erases stillWired
      | error error => rfl

/-- The shell may be looked at where tracing makes no difference. -/
theorem withShell
    {next : Shell → Execution α}
    (same : ∀ shell, next shell.untraced = next shell)
    (nextUnobserved : ∀ shell, (next shell).Unobserved) :
    Unobserved (get >>= next) where
  quiet before _ _ ran := (nextUnobserved before).quiet ran
  erases shell wired := by
    change (next shell.untraced).run shell.untraced = ((next shell).run shell).map observed
    rw [same]
    exact (nextUnobserved shell).erases wired

theorem modify
    {change : Shell → Shell}
    (quiet : ∀ shell, Quiet shell (change shell))
    (same : ∀ shell, change shell.untraced = (change shell).untraced) :
    Unobserved (modify change : Execution Unit) where
  quiet before after result ran := by
    cases ran
    exact quiet before
  erases shell _ := congrArg (fun changed => some (Except.ok (), changed)) (same shell)

/-- What a shell evaluates is unobserved if the evaluation is silent and erases. -/
theorem evaluate
    {evaluation : Env → Eval α}
    (silent : ∀ env, Eval.Keeps Machine.Silent (evaluation env))
    (erases : ∀ env : Env, env.Wired → (evaluation env).ErasesTo (evaluation env.untraced)) :
    Unobserved (Shell.evaluate evaluation) where
  quiet before after result ran := by
    obtain ⟨⟨ended, machine⟩, evaluated, left⟩ := Option.bind_eq_some_iff.mp ran
    cases left
    exact ⟨rfl, silent before.env evaluated⟩
  erases shell wired := by
    change Option.bind ((evaluation shell.env.untraced).run shell.machine.untraced) _ =
      Option.map _ (Option.bind ((evaluation shell.env).run shell.machine) _)
    have erased :
        (evaluation shell.env.untraced).run shell.machine.untraced =
          ((evaluation shell.env).run shell.machine).map fun ended =>
            (ended.1, ended.2.untraced) :=
      erases shell.env wired shell.machine
    rw [erased]
    cases (evaluation shell.env).run shell.machine <;> rfl

theorem executeStatement
    (fuel : Nat)
    (statement : Command) :
    Unobserved (Shell.executeStatement fuel statement) := by
  refine bind (evaluate (fun env => ?_) fun env wired => ?_) fun result => ?_
  · exact Machine.Silent.discipline.evaluator fuel env (.command statement)
  · exact Erasure.evaluator fuel wired (.command statement)
  refine withShell (fun _ => rfl) fun shell => ?_
  cases judge shell.arena result with
  | error error => exact throw error
  | ok judged =>
      refine bind (modify (fun shell => ?_) fun _ => rfl) fun _ => pure _
      exact ⟨rfl, Machine.Silent.of_scope rfl⟩

theorem executeFrom
    (fuel : Nat)
    (outcome : Outcome)
    (program : List Command) :
    Unobserved (Shell.executeFrom fuel outcome program) := by
  induction program generalizing outcome with
  | nil => exact pure outcome
  | cons statement rest inductionHypothesis =>
      exact bind (executeStatement fuel statement) fun judged =>
        inductionHypothesis (outcome.extend judged.1 judged.2)

end Unobserved

end Execution

namespace Shell

/-- A host is never asked for another set than the shell's own. -/
theorem connectedEnv_wired
    {setup : Setup}
    {made : List Connection}
    (all : ∀ connection, connection ∈ made)
    (host : Host) :
    (connectedEnv setup made host).Wired := by
  refine ⟨all, fun peer isPeer => ?_⟩
  unfold connectedEnv Callback.ofHost at isPeer
  dsimp only at isPeer
  split at isPeer
  · cases isPeer
  · split at isPeer <;> cases isPeer

/-- Every connection of a shell that was built has been made. -/
theorem new_wired
    {config : Config}
    {host : Host}
    {shell : Shell}
    (built : Shell.new config host = .ok shell) :
    shell.env.Wired := by
  unfold Shell.new at built
  split at built
  · cases built
  next made wiredHost connected =>
    cases built
    exact connectedEnv_wired (Assembly.connect_makes_all connected) _

/-- Shells built from configurations that differ in tracing differ in tracing alone. -/
theorem new_untraced
    {left right : Config}
    (alike : left.untraced = right.untraced)
    (host : Host) :
    (Shell.new left host).map untraced = (Shell.new right host).map untraced := by
  rcases left with ⟨name, provenance, discard, limit, leftXtrace, leftPs4⟩
  rcases right with ⟨name, provenance, discard, limit, rightXtrace, rightPs4⟩
  cases alike
  unfold Shell.new
  split
  · rfl
  · rfl

/--
Of two shells that differ in tracing alone, both execute a program to the same
answer, or both run out of fuel; they leave shells behind that differ in tracing
alone; neither turns tracing on or off; and nothing is traced where tracing is
off.
-/
theorem tracing_only_observes
    {left right : Shell}
    (wired : left.env.Wired)
    (alike : left.untraced = right.untraced)
    (fuel : Nat)
    (program : List Command) :
    ((execute fuel program).run left).map observed =
        ((execute fuel program).run right).map observed ∧
      (∀ result after,
        (execute fuel program).run left = some (result, after) →
          left.machine.session.Silent after.machine.session) ∧
      ∀ result after,
        (execute fuel program).run right = some (result, after) →
          right.machine.session.Silent after.machine.session := by
  have unobserved : Execution.Unobserved (execute fuel program) :=
    .executeFrom fuel .initial program
  have sameEnv : left.env.untraced = right.env.untraced := congrArg Shell.env alike
  have rightWired : right.env.Wired := .of_untraced (sameEnv ▸ wired.untraced)
  refine ⟨?_, fun _ _ ran => (unobserved.quiet ran).machine.own,
    fun _ _ ran => (unobserved.quiet ran).machine.own⟩
  calc
    ((execute fuel program).run left).map observed
        = (execute fuel program).run left.untraced := (unobserved.erases wired).symm
    _ = (execute fuel program).run right.untraced := by rw [alike]
    _ = ((execute fuel program).run right).map observed := unobserved.erases rightWired

/-- A program that sets a variable, prints it, and divides by zero. -/
def failingProgram : List Command :=
  [.assign "x" (.literal "it's") false,
    .simple [.literal "echo", .var "x"] ⟨1⟩,
    .simple [.literal "echo", .arith (.binary .div (.number 1) (.number 0))] ⟨2⟩]

/-- A configuration that traces with a variable in the prompt. -/
def tracingConfig : Config :=
  { Config.transient with
    xtrace := true
    ps4 := "$x? " }

theorem failingProgram_is_only_observed :
    ∃ plain traced result after,
      Shell.new .transient (.memory .initial) = .ok plain ∧
        Shell.new tracingConfig (.memory .initial) = .ok traced ∧
        (execute 4 failingProgram).run traced = some (result, after) ∧
        after.machine.trace = ["it's? echo 'it'\\''s'"] ∧
        after.machine.session.scope.lastStatus = 1 ∧
        ((execute 4 failingProgram).run plain).map observed = some (result, after.untraced) := by
  have ran :
      ((Shell.new tracingConfig (.memory .initial)).toOption.bind
          (execute 4 failingProgram).run).map (fun ended =>
            (ended.2.machine.trace, ended.2.machine.session.scope.lastStatus)) =
        some (["it's? echo 'it'\\''s'"], 1) := by
    decide +kernel
  obtain ⟨⟨result, after⟩, found, shape⟩ := Option.map_eq_some_iff.mp ran
  obtain ⟨traced, isBuilt, finished⟩ := Option.bind_eq_some_iff.mp found
  have tracedBuilt : Shell.new tracingConfig (.memory .initial) = .ok traced := by
    rcases built : Shell.new tracingConfig (.memory .initial) with error | shell
    · rw [built] at isBuilt
      cases isBuilt
    · rw [built] at isBuilt
      cases isBuilt
      rfl
  have alike :=
    new_untraced (show Config.transient.untraced = tracingConfig.untraced from rfl)
      (.memory .initial)
  rw [tracedBuilt] at alike
  rcases built : Shell.new .transient (.memory .initial) with error | plain
  · rw [built] at alike
    cases alike
  · rw [built] at alike
    obtain ⟨observedAlike, -⟩ :=
      tracing_only_observes (new_wired built) (Except.ok.inj alike) 4 failingProgram
    rw [finished] at observedAlike
    exact ⟨plain, traced, result, after, rfl, tracedBuilt, finished, congrArg (·.1) shape,
      congrArg (·.2) shape, observedAlike⟩

end Shell

end ShellCore
