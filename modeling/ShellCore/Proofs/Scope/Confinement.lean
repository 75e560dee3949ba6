import ShellCore.Proofs.Evaluation.Execution
import ShellCore.Proofs.Scope.Values

namespace ShellCore

/-!
# Effects on the scope are confined

A host runs the commands that are substituted in a word isolated, so a word that
calls nothing leaves the scope as it was, whatever its substitutions do. Commands
that are made of such words change nothing but the statuses they leave.
-/

open Machine

/-- What calls nothing is evaluated without an effect on the scope. -/
theorem callFree_values_keep_scope
    (fuel : Nat) :
    ValuesKeep SameScope False (evaluator fuel) := by
  induction fuel with
  | zero =>
      intro α env request isValue free before after result finished
      cases finished
  | succ fuel inductionHypothesis =>
      exact inductionHypothesis.succ (Confined.isolated fuel) SameScope.composable
        (fun same => same) nofun

/-- Call-free requests leave the scope as it was, however much fuel there is. -/
theorem callFreeKeepsScope
    (fuel : Nat)
    (env : Env)
    (request : Request α)
    (callFree : request.isCallFree = true) :
    Eval.Keeps SameScope (evaluator fuel α env request) :=
  callFree_values_keep_scope fuel env request
    (Request.isForValue_of_isCallFree callFree) (.inl callFree)

/-- The machine from which the words of a command are evaluated: with a frame for their own. -/
def Machine.opened
    (machine : Machine) :
    Machine :=
  { machine with host := (machine.host.act () fun host => ((), host.pushProcessSub)).2 }

/-- The first of the words of a command, if it has a value, names no function. -/
def Machine.NamesNoFunction
    (machine : Machine)
    (env : Env)
    (words : List Word) :
    Prop :=
  ∀ first name after,
    words.head? = some first →
    Answers env (.word first) machine.opened (.ok name) after →
    machine.scope.function? name = none

namespace Commands

open SameScope

variable {fuel : Nat} {env : Env} {before after : Machine}

/-- What a command does changes the scope; the last status may change on top of that. -/
theorem execution_scope
    {command : Command}
    {result : Except RuntimeError ControlFlow}
    (executed : Executes env command before result after) :
    ∃ fuel ended between status,
      (run (evaluator fuel) env command).run before = some (ended, between) ∧
        after.scope = { between.scope with lastStatus := status } := by
  obtain ⟨_ | fuel, finished⟩ := executed
  · cases finished
  rcases Eval.bind_eq_some_iff.mp finished with
    ⟨error, failed, -⟩ | ⟨flow, between, ran, kept⟩
  · exact ⟨fuel, .error error, after, after.scope.lastStatus, failed, rfl⟩
  · cases flow with
    | normal status =>
        cases kept
        exact ⟨fuel, _, between, status, ran, rfl⟩
    | raise signal =>
        cases kept
        exact ⟨fuel, _, after, after.scope.lastStatus, ran, rfl⟩

/-- A command that leaves the scope as it was changes nothing but the last status. -/
theorem execution_keeps_scope
    {command : Command}
    {result : Except RuntimeError ControlFlow}
    (keeps : ∀ fuel, Eval.Keeps SameScope (run (evaluator fuel) env command))
    (executed : Executes env command before result after) :
    ∃ status, after.scope = { before.scope with lastStatus := status } := by
  obtain ⟨fuel, ended, between, status, ran, scope⟩ := execution_scope executed
  exact ⟨status, by rw [scope, keeps fuel ran]⟩

/-- The name of a command is the value of its first word. -/
theorem name_of_words
    {words : List Word}
    {name : String}
    {args : List String}
    (evaluated :
      (Eval.each (Evaluator.word (evaluator fuel) env) words).run before =
        some (.ok (name :: args), after)) :
    ∃ first between,
      words.head? = some first ∧
        Answers env (.word first) before (.ok name) between := by
  cases words with
  | nil => cases evaluated
  | cons first rest =>
      obtain ⟨value, between, answered, others⟩ := Eval.bind_answers_iff.mp evaluated
      obtain ⟨values, _, _, made⟩ := Eval.bind_answers_iff.mp others
      cases made
      exact ⟨first, between, rfl, fuel, answered⟩

/-- A command whose name is that of no function is the host's. -/
theorem runNamed_scope
    {below : Evaluator}
    {name : String}
    {argv : List String}
    {result : Except RuntimeError Int32}
    (unnamed : before.scope.function? name = none)
    (finished : (runNamed below env name argv).run before = some (result, after)) :
    before.SameScope after := by
  unfold runNamed at finished
  split at finished
  · split at finished
    · exact composable.pure _ finished
    · exact hostFree.runBuiltin _ _ finished
  · rw [Eval.run_scope_bind, unnamed] at finished
    exact hostFree.onHost _ _ finished

/-- A simple command of call-free words changes nothing if it names no function. -/
theorem runSimple_scope
    {words : List Word}
    {result : Except RuntimeError ControlFlow}
    (callFree : Word.allCallFree words = true)
    (unnamed :
      ∀ first name between,
        words.head? = some first →
        Answers env (.word first) before (.ok name) between →
        before.scope.function? name = none)
    (finished : (runSimple (evaluator fuel) env words).run before = some (result, after)) :
    before.SameScope after := by
  have wordsKeep :
      Eval.Keeps SameScope (Eval.each (Evaluator.word (evaluator fuel) env) words) :=
    ValuesKeep.words (callFree_values_keep_scope fuel) composable env (.inl callFree)
  refine composable.bindFrom (composable.require env _)
    (fun _ required allowed evaluating => ?_) finished
  obtain rfl := Composable.unchanged.require env _ allowed
  refine composable.bindFrom wordsKeep
    (fun argv named evaluated running => ?_) evaluating
  have sameWhenNamed : required.SameScope named := wordsKeep evaluated
  cases argv with
  | nil =>
      cases running
      rfl
  | cons name args =>
      obtain ⟨first, between, isFirst, answered⟩ := name_of_words evaluated
      refine composable.bindFrom (composable.require env _)
        (fun _ wired allowed tracing => ?_) running
      obtain rfl := Composable.unchanged.require env _ allowed
      refine composable.bindFrom (keeps_emitIfOn env _)
        (fun _ traced emitted calling => ?_) tracing
      have sameWhenTraced : wired.SameScope traced := keeps_emitIfOn env _ emitted
      have noFunction : traced.scope.function? name = none := by
        rw [sameWhenTraced, sameWhenNamed]
        exact unnamed first name between isFirst answered
      rcases Eval.bind_eq_some_iff.mp calling with
        ⟨error, failed, -⟩ | ⟨status, _, ran, returned⟩
      · exact runNamed_scope noFunction failed
      · cases returned
        exact runNamed_scope noFunction ran

/-- Inside a frame for process substitutions, only their statuses change. -/
theorem withProcessSubs_scope
    {evaluation : Eval ControlFlow}
    {result : Except RuntimeError ControlFlow}
    (inside : ∀ between,
      evaluation.run before.opened = some (result, between) →
      before.opened.SameScope between)
    (finished : (withProcessSubs env evaluation).run before = some (result, after)) :
    ∃ statuses, after.scope = { before.scope with processSubStatus := statuses } := by
  rcases withProcessSubs_cases finished with
    rfl | ⟨_, between, statuses, closed, pushed, ran, popped, rfl⟩
  · exact ⟨after.scope.processSubStatus, rfl⟩
  · cases pushed
    have same : closed.scope = before.scope :=
      (hostFree.onHost _ _ popped : between.SameScope closed).trans (inside between ran)
    exact ⟨statuses, by rw [← same]; rfl⟩

theorem subshell_keeps_scope
    {below : Evaluator}
    (isolates : below.Isolates)
    (body : Command) :
    Eval.Keeps SameScope (run below env (.subshell body)) := by
  have ran : Eval.Keeps SameScope (Host.runSubshell below env body) := by
    unfold Host.runSubshell
    rw [← bind_pure (Host.callBack env _)]
    exact (isolates body).recorded env .subshell _ fun _ => composable.pure _
  exact composable.bind (composable.require env _) fun _ =>
    composable.bind ran fun _ => composable.pure _

theorem background_keeps_scope
    {below : Evaluator}
    (isolates : below.Isolates)
    (body : Command) :
    Eval.Keeps SameScope (run below env (.background body)) := by
  have ran : Eval.Keeps SameScope (Host.runBackground below env body) :=
    (isolates body).recorded env (.background _) _ fun _ => composable.pure _
  exact composable.bind (composable.require env _) fun _ =>
    composable.bind ran fun _ => composable.pure _

theorem hostPipeline_scope
    {below : Evaluator}
    (isolates : below.Isolates)
    (stages : List Command)
    (negated : Bool) :
    Eval.Keeps SameScope (Host.runPipeline below env stages negated) :=
  (Confined.each isolates stages).recorded env (.pipeline _) _ fun _ =>
    composable.pure _

/-- A pipeline changes nothing but the statuses of its stages. -/
theorem runPipeline_scope
    {stages : List Command}
    {negated : Bool}
    {result : Except RuntimeError ControlFlow}
    (finished :
      (runPipeline (evaluator fuel) env stages negated).run before = some (result, after)) :
    ∃ codes, after.scope = { before.scope with pipeStatus := codes } := by
  rcases Eval.bind_eq_some_iff.mp finished with
    ⟨error, refused, -⟩ | ⟨_, _, allowed, running⟩
  · obtain rfl := Composable.unchanged.require env _ refused
    exact ⟨after.scope.pipeStatus, rfl⟩
  obtain rfl := Composable.unchanged.require env _ allowed
  rcases Eval.bind_eq_some_iff.mp running with
    ⟨error, failed, -⟩ | ⟨statuses, between, ran, kept⟩
  · have same := hostPipeline_scope (Confined.isolated fuel) stages negated failed
    exact ⟨after.scope.pipeStatus, by rw [same]⟩
  · have same := hostPipeline_scope (Confined.isolated fuel) stages negated ran
    cases kept
    exact ⟨statuses.stages, by rw [← same]; rfl⟩

end Commands

/--
From any machine, a call-free request leaves the scope as it was, however it ends.
A simple command of call-free words that names no function changes only the last
status and those of its process substitutions, a command that runs isolated only
the last status, and a pipeline only the last status and those of its stages.
-/
theorem scope_effects_are_confined
    (env : Env)
    (before after : Machine) :
    (∀ (α : Type) (request : Request α) result,
      request.isCallFree = true →
      Answers env request before result after →
      after.scope = before.scope) ∧
    (∀ words span result,
      Word.allCallFree words = true →
      before.NamesNoFunction env words →
      Executes env (.simple words span) before result after →
      ∃ status statuses,
        after.scope =
          { before.scope with
            lastStatus := status
            processSubStatus := statuses }) ∧
    (∀ body result,
      Executes env (.subshell body) before result after ∨
        Executes env (.background body) before result after →
      ∃ status, after.scope = { before.scope with lastStatus := status }) ∧
    (∀ stages negated result,
      Executes env (.pipeline stages negated) before result after →
      ∃ status codes,
        after.scope =
          { before.scope with
            lastStatus := status
            pipeStatus := codes }) := by
  refine ⟨?_, ?_, ?_, ?_⟩
  · rintro α request result callFree ⟨fuel, finished⟩
    exact callFreeKeepsScope fuel env request callFree finished
  · intro words span result callFree unnamed executed
    obtain ⟨fuel, ended, between, status, ran, scope⟩ := Commands.execution_scope executed
    obtain ⟨statuses, inside⟩ :=
      Commands.withProcessSubs_scope (fun _ => Commands.runSimple_scope callFree unnamed) ran
    exact ⟨status, statuses, by rw [scope, inside]⟩
  · rintro body result (executed | executed)
    · refine Commands.execution_keeps_scope (fun fuel => ?_) executed
      exact Commands.subshell_keeps_scope (Confined.isolated fuel) body
    · refine Commands.execution_keeps_scope (fun fuel => ?_) executed
      exact Commands.background_keeps_scope (Confined.isolated fuel) body
  · intro stages negated result executed
    obtain ⟨fuel, ended, between, status, ran, scope⟩ := Commands.execution_scope executed
    obtain ⟨codes, stagesKept⟩ := Commands.runPipeline_scope ran
    exact ⟨status, codes, by rw [scope, stagesKept]⟩

/-- A substitution that sets a variable, defines a function, calls it and returns. -/
def busySubstitution : Word :=
  .commandSub <| .sequence
    [.assign "x" (.literal "a") false,
      .define ⟨"f", [], [.assign "y" (.var "x") false], false, ⟨1⟩⟩,
      .simple [.literal "f"] ⟨2⟩,
      .control .returnCall (some (.status (.literal "3"))) ⟨4⟩]

theorem busySubstitution_is_confined :
    (∃ text after,
      Answers .connected (.word busySubstitution) .fresh (.ok text) after ∧
        after.scope = .initial) ∧
    ∃ flow after status statuses,
      Executes .connected (.simple [.literal "echo", busySubstitution] ⟨5⟩) .fresh
          (.ok flow) after ∧
        after.scope =
          { Scope.initial with
            lastStatus := status
            processSubStatus := statuses } := by
  have answered :
      ∃ text after,
        Answers .connected (.word busySubstitution) .fresh (.ok text) after :=
    ⟨_, _, 8, rfl⟩
  have executed :
      ∃ flow after,
        Executes .connected (.simple [.literal "echo", busySubstitution] ⟨5⟩) .fresh
          (.ok flow) after :=
    ⟨_, _, 8, rfl⟩
  obtain ⟨text, after, answers⟩ := answered
  obtain ⟨flow, later, executes⟩ := executed
  have confined :=
    (scope_effects_are_confined .connected .fresh after).1 String
      (.word busySubstitution) (.ok text) rfl answers
  obtain ⟨status, statuses, onlyStatuses⟩ :=
    (scope_effects_are_confined .connected .fresh later).2.1
      [.literal "echo", busySubstitution] ⟨5⟩ (.ok flow) rfl (fun _ _ _ _ _ => rfl) executes
  exact ⟨⟨text, after, answers, confined⟩,
    flow, later, status, statuses, executes, onlyStatuses⟩

end ShellCore
