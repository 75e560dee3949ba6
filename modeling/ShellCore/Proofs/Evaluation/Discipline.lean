import ShellCore.Proofs.Evaluation.Congruence
import ShellCore.Proofs.Evaluation.Keeping

namespace ShellCore

/-!
# Disciplines of evaluation

A discipline is a relation between machines that every primitive step of an
evaluation keeps, and every bracket around an evaluation that keeps it. To keep a
discipline is a congruence, so whatever is evaluated, with whatever fuel, keeps it.
A local discipline says nothing of commands that run in the peer; it is kept where
the host does not call back another set than the one that runs.
-/

theorem Composable.expandPrompt
    {relation : Machine → Machine → Prop}
    (composable : Composable relation)
    (env : Env)
    (template : String) :
    Eval.Keeps relation (Prompt.expand env template) := by
  refine composable.bind ?_ fun _ => composable.pure _
  refine composable.each fun piece _ => ?_
  cases piece with
  | text text => exact composable.pure _
  | var name =>
      exact composable.bind (composable.require env _) fun _ =>
        composable.bind composable.scope fun _ => composable.pure _

/-- The relation that is kept where nothing changes. -/
theorem Composable.unchanged :
    Composable fun before after => after = before where
  refl _ := rfl
  trans earlier later := later.trans earlier

/-- Tracing adds a line, unless it meets an error before that; nothing else changes. -/
theorem Trace.emit_cases
    {env : Env}
    {text : String}
    {before after : Machine}
    {result : Except RuntimeError Unit}
    (finished : (Trace.emit env text).run before = some (result, after)) :
    after = before ∨
      ∃ line, after = { before with trace := before.trace ++ [line] } := by
  unfold Trace.emit at finished
  rcases Eval.bind_eq_some_iff.mp finished with
    ⟨_, refused, _⟩ | ⟨_, _, tracer, fromWord⟩
  · exact .inl (Composable.unchanged.require env _ refused)
  obtain rfl := Composable.unchanged.require env _ tracer
  rcases Eval.bind_eq_some_iff.mp fromWord with
    ⟨_, refused, _⟩ | ⟨_, _, prompts, fromPrompt⟩
  · exact .inl (Composable.unchanged.require env _ refused)
  obtain rfl := Composable.unchanged.require env _ prompts
  rcases Eval.bind_eq_some_iff.mp fromPrompt with
    ⟨_, refused, _⟩ | ⟨lead, _, expanded, added⟩
  · exact .inl (Composable.unchanged.expandPrompt env _ refused)
  obtain rfl := Composable.unchanged.expandPrompt env _ expanded
  cases added
  exact .inr ⟨lead ++ text, rfl⟩

/-- The machine inside a new process substitution frame. -/
def Machine.pushFrame
    (machine : Machine) :
    Machine :=
  { machine with host := (machine.host.act () fun host => ((), host.pushProcessSub)).2 }

/-- The machine after the innermost process substitution frame, with its statuses kept. -/
def Machine.popFrame
    (machine : Machine) :
    Machine :=
  let (statuses, host) := machine.host.act .empty fun host => host.popProcessSub
  { machine with host := host }.mapScope fun scope => { scope with processSubStatus := statuses }

/-- Inside a process substitution frame an evaluation runs as it does by itself. -/
theorem Commands.run_withProcessSubs
    {env : Env}
    (connected : .commandToHost ∈ env.setup.connections)
    (evaluation : Eval ControlFlow)
    (before : Machine) :
    (withProcessSubs env evaluation).run before =
      (evaluation.run before.pushFrame).map fun ended => (ended.1, ended.2.popFrame) := by
  have guarded :
      Guard.withProcessSubs evaluation.run before =
        (evaluation.run before.pushFrame).bind fun ended =>
          let (statuses, host) := ended.2.host.act .empty fun host => host.popProcessSub
          some ((statuses, ended.1), { ended.2 with host := host }) :=
    rfl
  unfold withProcessSubs Eval.require
  rw [if_pos connected, pure_bind]
  change (Guard.withProcessSubs evaluation.run before).bind _ = _
  rw [guarded]
  cases evaluation.run before.pushFrame with
  | none => rfl
  | some ended => rfl

/-- Unless the host is not connected, a frame is opened and closed and its statuses are kept. -/
theorem Commands.withProcessSubs_cases
    {env : Env}
    {evaluation : Eval ControlFlow}
    {before after : Machine}
    {result : Except RuntimeError ControlFlow}
    (finished :
      (Commands.withProcessSubs env evaluation).run before = some (result, after)) :
    after = before ∨
      ∃ opened between statuses closed,
        Guard.pushProcessSub before = some ((), opened) ∧
          evaluation.run opened = some (result, between) ∧
            Guard.popProcessSub between = some (statuses, closed) ∧
              after = closed.mapScope fun scope =>
                { scope with processSubStatus := statuses } := by
  unfold Commands.withProcessSubs at finished
  rw [ExceptT.run_bind] at finished
  obtain ⟨_, _, required, guarded⟩ := Run.bind_eq_some_iff.mp finished
  unfold Eval.require at required
  split at required
  · cases required
    obtain ⟨_, closed, ran, ended⟩ := Run.bind_eq_some_iff.mp guarded
    obtain ⟨_, _, kept, returned⟩ := Run.bind_eq_some_iff.mp ended
    obtain ⟨_, opened, pushed, started⟩ := Run.bind_eq_some_iff.mp ran
    obtain ⟨_, between, evaluated, popping⟩ := Run.bind_eq_some_iff.mp started
    obtain ⟨statuses, _, popped, collected⟩ := Run.bind_eq_some_iff.mp popping
    cases collected
    cases kept
    cases returned
    exact .inr ⟨opened, between, statuses, closed, pushed, evaluated, popped, rfl⟩
  · cases required
    cases guarded
    exact .inl rfl

/-- A function's body runs in a frame of its own, which is left at its end. -/
theorem Function.run_runFrame
    (below : Evaluator)
    (env : Env)
    (function : Function)
    (args : List Value)
    (before : Machine) :
    (runFrame below env function args).run before =
      ((CommandList.execute below env function.body).run
          (before.mapScope fun scope => scope.enterCall function args)).map
        fun ended =>
          (ended.1, ended.2.mapScope fun scope => scope.leaveCall before.scope) := by
  change ((CommandList.execute below env function.body).run _).bind _ = _
  cases (CommandList.execute below env function.body).run
      (before.mapScope fun scope => scope.enterCall function args) with
  | none => rfl
  | some ended => rfl

theorem Function.runFrame_cases
    {below : Evaluator}
    {env : Env}
    {function : Function}
    {args : List Value}
    {before after : Machine}
    {result : Except RuntimeError ControlFlow}
    (finished :
      (Function.runFrame below env function args).run before = some (result, after)) :
    ∃ ended,
      (CommandList.execute below env function.body).run
          (before.mapScope fun scope => scope.enterCall function args) =
        some (result, ended) ∧
      after = ended.mapScope fun scope => scope.leaveCall before.scope := by
  rw [run_runFrame] at finished
  obtain ⟨⟨_, ended⟩, ran, left⟩ := Option.map_eq_some_iff.mp finished
  cases left
  exact ⟨ended, ran, rfl⟩

/-- An isolated evaluation runs as by itself, but for its scope at the end. -/
theorem Isolation.run_keepingScope
    (evaluation : Eval α)
    (before : Machine) :
    (keepingScope evaluation).run before =
      (evaluation.run before).map fun ended =>
        (ended.1, ended.2.mapScope fun _ => before.scope) := by
  change (evaluation.run before).bind _ = _
  cases evaluation.run before with
  | none => rfl
  | some ended => rfl

/-- An evaluation in the peer runs from the sets exchanged. -/
theorem Host.run_inPeer
    (evaluation : Eval α)
    (before : Machine) :
    (inPeer evaluation).run before =
      (evaluation.run before.swap).map fun ended => (ended.1, ended.2.swap) := by
  change (evaluation.run before.swap).bind _ = _
  cases evaluation.run before.swap with
  | none => rfl
  | some ended => rfl

section Brackets

variable {relation : Machine → Machine → Prop}

/-- What redirecting and restoring keep is kept by whatever runs in between, if that keeps it. -/
theorem Composable.withRedirects
    (composable : Composable relation)
    {computation : Run α}
    {redirections : List Redirection}
    (pushes : Run.Keeps relation (Guard.pushRedirects redirections))
    (pops : Run.Keeps relation (Guard.popRedirects redirections.length))
    (keeps : Run.Keeps relation computation) :
    Run.Keeps relation (Guard.withRedirects redirections computation) := by
  refine composable.runBind pushes fun holds => ?_
  cases holds with
  | true =>
      exact composable.runBind keeps fun _ =>
        composable.runBind pops fun _ => composable.runPure _
  | false => exact composable.runPure _

/-- A command whose redirections are refused has not run, and keeps the relation anyway. -/
theorem Composable.underRedirects
    {redirections : List Redirection}
    {evaluation : Eval ControlFlow}
    (keeps : Run.Keeps relation (Guard.withRedirects redirections evaluation.run)) :
    Eval.Keeps relation (Commands.underRedirects redirections evaluation) := by
  intro before after result finished
  obtain ⟨ended, between, ran, returned⟩ := Run.bind_eq_some_iff.mp finished
  have kept := keeps ran
  cases ended <;> cases returned <;> exact kept

theorem Composable.withCapture
    (composable : Composable relation)
    {evaluation : Eval α}
    (opens : Run.Keeps relation (Run.onHost none fun host => host.beginCapture))
    (closes : ∀ bound, Run.Keeps relation (Run.onHost "" fun host => host.endCapture bound))
    (keeps : Eval.Keeps relation evaluation) :
    Eval.Keeps relation (Host.withCapture evaluation) :=
  composable.runBind opens fun bound =>
    composable.runBind keeps fun _ =>
      composable.runBind (closes bound) fun _ => composable.runPure _

theorem Composable.withFlush
    (composable : Composable relation)
    {computation : Run α}
    (flushes : Run.Keeps relation Guard.flush)
    (keeps : Run.Keeps relation computation) :
    Run.Keeps relation (Guard.withFlush computation) :=
  composable.runBind keeps fun _ =>
    composable.runBind flushes fun _ => composable.runPure _

/-- A call of the host is recorded before what the host runs for it. -/
theorem Composable.recorded
    (composable : Composable relation)
    {call : HostCall}
    (records :
      Eval.Keeps relation (Eval.onHost () fun host => (.ok (), host.record call)))
    (inertAnswer : α)
    {evaluation : Eval α}
    (keeps : Eval.Keeps relation evaluation) :
    Eval.Keeps relation (Host.recorded call inertAnswer evaluation) := by
  intro before after result finished
  unfold Host.recorded at finished
  rw [ExceptT.run_bind] at finished
  obtain ⟨reached, between, started, ended⟩ :=
    Run.bind_eq_some_iff.mp finished
  cases started
  cases kind : before.host with
  | inert =>
      simp only [kind] at ended
      exact composable.pure inertAnswer ended
  | memory host =>
      simp only [kind] at ended
      exact composable.bind records (fun _ => keeps) ended

/-- What runs in the peer keeps a relation that holds with the sets exchanged as well. -/
theorem Composable.inPeer
    (exchanged : ∀ {machine after : Machine},
      relation machine.swap after →
      relation machine after.swap)
    {evaluation : Eval α}
    (keeps : Eval.Keeps relation evaluation) :
    Eval.Keeps relation (Host.inPeer evaluation) := by
  intro before after result finished
  rw [Host.run_inPeer] at finished
  obtain ⟨⟨_, between⟩, ran, left⟩ := Option.map_eq_some_iff.mp finished
  cases left
  exact exchanged (keeps ran)

theorem Composable.callBack
    (composable : Composable relation)
    (exchanged : ∀ {machine after : Machine},
      relation machine.swap after →
      relation machine after.swap)
    (env : Env)
    {evaluation : Env → Eval α}
    (keeps : ∀ env, Eval.Keeps relation (evaluation env)) :
    Eval.Keeps relation (Host.callBack env evaluation) := by
  unfold Host.callBack
  cases env.callback with
  | missing => exact composable.throw _
  | dropped => exact composable.throw _
  | own => exact keeps env
  | peer setup => exact inPeer exchanged (keeps _)

end Brackets

/-- A relation that the steps and the brackets of an evaluation in one set keep. -/
structure LocalDiscipline
    (relation : Machine → Machine → Prop) : Prop
    extends Composable relation where
  update : ∀ {machine : Machine} {change : Scope → Scope},
    Scope.Change change →
    relation machine (machine.mapScope change)
  /-- Lines are traced only while tracing is on. -/
  trace : ∀ {machine : Machine} (line : String),
    machine.scope.xtrace = true →
    relation machine { machine with trace := machine.trace ++ [line] }
  /-- A function's body runs in a frame of its own. -/
  frame : ∀ {machine after : Machine} (function : Function) (args : List Value),
    relation (machine.mapScope fun scope => scope.enterCall function args) after →
    relation machine (after.mapScope fun scope => scope.leaveCall machine.scope)
  /-- An isolated command leaves the scope as it was. -/
  isolation : ∀ {machine after : Machine},
    relation machine after →
    relation machine (after.mapScope fun _ => machine.scope)
  reentry : ∀ {call : HostCall},
    call.Reentrant →
    Eval.Keeps relation (Eval.onHost () fun host => (.ok (), host.record call))
  runSimple : ∀ argv, Eval.Keeps relation (Host.runSimple argv)
  runBuiltin : ∀ name argv,
    Run.Keeps relation (Guard.withFlush (Host.runBuiltin name argv).run)
  finishProcessSub : ∀ status output span,
    Eval.Keeps relation
      (Eval.onHost "" fun host => host.finishProcessSub status output span)
  /-- A command keeps the statuses of the frame that it runs in. -/
  processSubs : ∀ (env : Env) {evaluation : Eval ControlFlow},
    Eval.Keeps relation evaluation →
    Eval.Keeps relation (Commands.withProcessSubs env evaluation)
  redirects : ∀ {α : Type} {computation : Run α} (redirections : List Redirection),
    Run.Keeps relation computation →
    Run.Keeps relation (Guard.withRedirects redirections computation)
  capture : ∀ {α : Type} {evaluation : Eval α},
    Eval.Keeps relation evaluation →
    Eval.Keeps relation (Host.withCapture evaluation)

/-- A relation that is kept by what runs in the peer as well. -/
structure Discipline
    (relation : Machine → Machine → Prop) : Prop
    extends LocalDiscipline relation where
  peer : ∀ {machine after : Machine},
    relation machine.swap after →
    relation machine after.swap

/-- The host does not call back another set than the one that runs. -/
def Env.IsLocal
    (env : Env) :
    Prop :=
  ∀ setup, env.callback ≠ .peer setup

/-- An evaluator whose answers all keep a relation. -/
def Evaluator.Keeps
    (relation : Machine → Machine → Prop)
    (below : Evaluator) :
    Prop :=
  ∀ {α : Type} (env : Env) (request : Request α),
    Eval.Keeps relation (below α env request)

namespace LocalDiscipline

variable {relation : Machine → Machine → Prop}
variable (discipline : LocalDiscipline relation)

include discipline

theorem mapScope
    {change : Scope → Scope}
    (isChange : Scope.Change change) :
    Eval.Keeps relation (Eval.mapScope change) := by
  intro before after result finished
  cases finished
  exact discipline.update isChange

/-- A function's body keeps a discipline inside its frame. -/
theorem runFrame
    {below : Evaluator}
    {env : Env}
    {function : Function}
    (args : List Value)
    (bodyKeeps :
      Eval.Keeps relation (CommandList.execute below env function.body)) :
    Eval.Keeps relation (Function.runFrame below env function args) := by
  intro before after result finished
  obtain ⟨ended, ran, rfl⟩ := Function.runFrame_cases finished
  exact discipline.frame function args (bodyKeeps ran)

theorem keepingScope
    {evaluation : Eval α}
    (keeps : Eval.Keeps relation evaluation) :
    Eval.Keeps relation (Isolation.keepingScope evaluation) := by
  intro before after result finished
  rw [Isolation.run_keepingScope] at finished
  obtain ⟨⟨_, between⟩, ran, left⟩ := Option.map_eq_some_iff.mp finished
  cases left
  exact discipline.isolation (keeps ran)

theorem emitIfOn
    (env : Env)
    (text : String) :
    Eval.Keeps relation (Trace.emitIfOn env text) := by
  intro before after result finished
  unfold Trace.emitIfOn at finished
  rw [ExceptT.run_bind] at finished
  obtain ⟨_, _, read, ended⟩ := Run.bind_eq_some_iff.mp finished
  cases read
  dsimp only at ended
  split at ended
  next isOn =>
    rcases Trace.emit_cases ended with rfl | ⟨line, rfl⟩
    · exact discipline.refl _
    · exact discipline.trace line isOn
  · cases ended
    exact discipline.refl before

theorem underRedirects
    (redirections : List Redirection)
    {evaluation : Eval ControlFlow}
    (keeps : Eval.Keeps relation evaluation) :
    Eval.Keeps relation (Commands.underRedirects redirections evaluation) :=
  Composable.underRedirects (discipline.redirects redirections keeps)

/-- To keep a discipline is a congruence where it is kept by what the host calls back. -/
theorem congruence
    {admits : Env → Prop}
    (callBack : ∀ {α : Type} {env : Env} {evaluation : Env → Eval α},
      admits env →
      (∀ env, admits env → Eval.Keeps relation (evaluation env)) →
      Eval.Keeps relation (Host.callBack env evaluation)) :
    Congruence (fun evaluation _ => Eval.Keeps relation evaluation)
      fun env other => env = other ∧ admits env where
  pure := discipline.pure
  throw _ := discipline.throw _
  bind := discipline.bind
  withScope nextKeeps :=
    discipline.bind discipline.scope fun scope => nextKeeps scope scope.xtrace
  update := discipline.mapScope
  require connection _ := discipline.require _ connection
  trace text _ := discipline.emitIfOn _ text
  callables same := same.1 ▸ rfl
  callable _ _ _ := discipline.ofExcept id _
  frame _ args bodyKeeps := discipline.runFrame args bodyKeeps
  reentry inertAnswer same reentrant keeps nextKeeps := by
    refine discipline.recorded (discipline.reentry reentrant) inertAnswer
      (discipline.bind ?_ nextKeeps)
    exact callBack same.2 fun env admitted => keeps ⟨rfl, admitted⟩
  runSimple := discipline.runSimple
  runBuiltin := discipline.runBuiltin
  finishProcessSub := discipline.finishProcessSub
  isolation := discipline.keepingScope
  capture := discipline.capture
  processSubs _ keeps := discipline.processSubs _ keeps
  redirects redirections keeps := discipline.underRedirects redirections keeps

/-- Every evaluation in one set keeps a local discipline. -/
theorem evaluator
    (fuel : Nat)
    {env : Env}
    (isLocal : env.IsLocal)
    (request : Request α) :
    Eval.Keeps relation (ShellCore.evaluator fuel α env request) := by
  have callBack :
      ∀ {α : Type} {env : Env} {evaluation : Env → Eval α},
        env.IsLocal →
        (∀ env : Env, env.IsLocal → Eval.Keeps relation (evaluation env)) →
        Eval.Keeps relation (Host.callBack env evaluation) := by
    intro α env evaluation isLocal keeps
    unfold Host.callBack
    cases called : env.callback with
    | missing => exact discipline.throw _
    | dropped => exact discipline.throw _
    | own => exact keeps env isLocal
    | peer setup => exact absurd called (isLocal setup)
  refine (discipline.congruence callBack).evaluator ?_ fuel ⟨rfl, isLocal⟩ request
  intro α before after result finished
  cases finished

end LocalDiscipline

namespace Discipline

variable {relation : Machine → Machine → Prop}
variable (discipline : Discipline relation)

include discipline

/-- To keep a discipline is a congruence, whatever the host calls back. -/
theorem everywhere :
    Congruence (fun evaluation _ => Eval.Keeps relation evaluation)
      fun env other => env = other ∧ True :=
  discipline.congruence fun _ keeps =>
    discipline.callBack discipline.peer _ fun env => keeps env trivial

theorem related
    (fuel : Nat) :
    Evaluator.Related (fun evaluation _ => Eval.Keeps relation evaluation)
      (fun env other => env = other ∧ True)
      (ShellCore.evaluator fuel) (ShellCore.evaluator fuel) := by
  refine discipline.everywhere.evaluator ?_ fuel
  intro α before after result finished
  cases finished

/-- Every evaluation keeps a discipline. -/
theorem evaluator
    (fuel : Nat) :
    Evaluator.Keeps relation (ShellCore.evaluator fuel) :=
  fun _ request => discipline.related fuel ⟨rfl, trivial⟩ request

section Openings

variable (fuel : Nat)
variable (env : Env)

/-- What a simple command does inside its frame keeps a discipline. -/
theorem simple
    (words : List Word) :
    Eval.Keeps relation (Commands.runSimple (ShellCore.evaluator fuel) env words) :=
  @Congruence.simple _ _ discipline.everywhere (ShellCore.evaluator fuel)
    (ShellCore.evaluator fuel) (discipline.related fuel) env env ⟨rfl, trivial⟩ words

theorem forEach
    (name : String)
    (items : List Word)
    (body : List Command) :
    Eval.Keeps relation
      (Commands.runForEach (ShellCore.evaluator fuel) env name items body) := by
  refine discipline.bind (discipline.require env _) fun _ => discipline.bind ?_ ?_
  · exact discipline.each fun word _ => discipline.evaluator fuel env (.word word)
  · exact @Congruence.items _ _ discipline.everywhere (ShellCore.evaluator fuel)
      (ShellCore.evaluator fuel) (discipline.related fuel) env env ⟨rfl, trivial⟩ name body 0

theorem redirected
    (body : Command)
    (redirects : List Redirect) :
    Eval.Keeps relation
      (Commands.runRedirected (ShellCore.evaluator fuel) env body redirects) :=
  @Congruence.redirected _ _ discipline.everywhere (ShellCore.evaluator fuel)
    (ShellCore.evaluator fuel) (discipline.related fuel) env env ⟨rfl, trivial⟩ body redirects

end Openings

/-- A command that runs isolated keeps a discipline. -/
theorem isolated
    (fuel : Nat)
    (env : Env)
    (body : Command) :
    Eval.Keeps relation (Isolation.execute (ShellCore.evaluator fuel) env body) :=
  discipline.bind
    (discipline.keepingScope (discipline.evaluator fuel env (.command body))) fun _ =>
      discipline.pure _

/-- A command that runs for a substitution keeps a discipline. -/
theorem captured
    (fuel : Nat)
    (env : Env)
    (body : Command) :
    Eval.Keeps relation (Host.capture (ShellCore.evaluator fuel) env body) :=
  discipline.callBack discipline.peer env fun env =>
    discipline.capture (discipline.isolated fuel env body)

end Discipline

end ShellCore
