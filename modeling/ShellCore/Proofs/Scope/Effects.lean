import ShellCore.Proofs.Scope.Bindings
import ShellCore.Proofs.Scope.Confinement

namespace ShellCore

/-!
# What commands do to the scope

The effect of an execution on the scope is made of few kinds of steps: assignments
and rounds of loops, definitions, statuses, and calls, whose bodies have effects of
their own inside a frame. The steps of a command come from the parts that it runs
by itself, those of a call from the body of a function that the scope holds.
-/

/-- The commands that stand in a command without a frame or an isolation around them. -/
inductive Command.Part : Command → Command → Prop where
  | sequence {commands command} :
      command ∈ commands → Part (.sequence commands) command
  | andLeft {left right} :
      Part (.andThen left right) left
  | andRight {left right} :
      Part (.andThen left right) right
  | orLeft {left right} :
      Part (.orElse left right) left
  | orRight {left right} :
      Part (.orElse left right) right
  | armCondition {arms otherwise arm command} :
      arm ∈ arms → arm.condition = .run command → Part (.branch arms otherwise) command
  | armBody {arms otherwise arm command} :
      arm ∈ arms → command ∈ arm.body → Part (.branch arms otherwise) command
  | otherwise {arms body command} :
      command ∈ body → Part (.branch arms (some body)) command
  | itemBody {name items body command} :
      command ∈ body → Part (.forEach name items body) command
  | loopCondition {statement command} :
      statement.condition = .run command → Part (.loop statement) command
  | loopBody {statement command} :
      command ∈ statement.body → Part (.loop statement) command
  | redirected {body redirects} :
      Part (.redirected body redirects) body

/-- The commands that a command runs by itself; it is one of them. -/
inductive Command.Runs : Command → Command → Prop where
  | self {command} :
      Runs command command
  | part {whole part inner} :
      Part whole part → Runs part inner → Runs whole inner

/-- The commands that a list of commands runs by itself. -/
def CommandList.Runs
    (commands : List Command)
    (part : Command) :
    Prop :=
  ∃ command ∈ commands, command.Runs part

theorem CommandList.runs_singleton
    {command part : Command} :
    Runs [command] part ↔ command.Runs part := by
  simp [Runs]

/--
The name that a command assigns in whichever frame binds it, or else in the root
frame. Each round of a loop assigns the variable of the loop.
-/
def Command.assigned? :
    Command →
    Option String
  | .assign name _ false => some name
  | .forEach name _ _ => some name
  | _ => none

/-- Whether a command only has the host run something isolated. -/
def Command.runsIsolated :
    Command →
    Bool
  | .pipeline _ _ => true
  | .subshell _ => true
  | .background _ => true
  | _ => false

/-- What commands do to a scope, step by step, with assignments where they are allowed. -/
inductive Scope.Effect (allowed : String → Scope → Prop) :
    List Command → Scope → Scope → Prop where
  | none {commands scope} :
      Effect allowed commands scope scope
  | next {commands before between after} :
      Effect allowed commands before between → Effect allowed commands between after →
      Effect allowed commands before after
  | statuses {commands scope} (status codes collected) :
      Effect allowed commands scope
        { scope with
          lastStatus := status
          pipeStatus := codes
          processSubStatus := collected }
  | assign {commands scope name part} (value) :
      CommandList.Runs commands part → part.assigned? = some name → allowed name scope →
      Effect allowed commands scope (scope.setGlobal name value)
  | assignLocal {commands scope name word} (value) :
      CommandList.Runs commands (.assign name word true) →
      Effect allowed commands scope (scope.set name value)
  | define {commands scope function} :
      CommandList.Runs commands (.define function) →
      Effect allowed commands scope (scope.define function)
  /-- A function that the scope holds is called, and its body has effects of its own. -/
  | call {commands before ended name function} (args) :
      before.function? name = some function →
      Effect allowed function.body (before.enterCall function args) ended →
      Effect allowed commands before (ended.leaveCall before)

/-- What a call of a function does to the scope of its caller. -/
inductive Scope.Called
    (allowed : String → Scope → Prop)
    (function : Function)
    (args : List Value)
    (before : Scope) :
    Scope → Prop where
  | left {ended : Scope} :
      Effect allowed function.body (before.enterCall function args) ended →
      Called allowed function args before (ended.leaveCall before)

namespace Scope.Effect

variable {allowed : String → Scope → Prop}

/-- More commands have all the effects that fewer have. -/
theorem mono
    {fewer more : List Command}
    {before after : Scope}
    (runs : ∀ part, CommandList.Runs fewer part → CommandList.Runs more part)
    (effect : Effect allowed fewer before after) :
    Effect allowed more before after := by
  induction effect with
  | none => exact .none
  | next _ _ first second => exact .next (first runs) (second runs)
  | statuses status codes collected => exact .statuses status codes collected
  | assign value isPart assigns isAllowed =>
      exact .assign value (runs _ isPart) assigns isAllowed
  | assignLocal value isPart => exact .assignLocal value (runs _ isPart)
  | define isPart => exact .define (runs _ isPart)
  | call args isHeld body => exact .call args isHeld body

section Bindings

variable {commands : List Command}
variable {before after : Scope}

/-- The parameters of the caller are back after every call. -/
theorem parameters
    (effect : Effect allowed commands before after) :
    after.scriptName = before.scriptName ∧ after.positional = before.positional := by
  induction effect with
  | none => exact ⟨rfl, rfl⟩
  | next _ _ first second => exact ⟨second.1.trans first.1, second.2.trans first.2⟩
  | statuses => exact ⟨rfl, rfl⟩
  | @assign _ scope name _ value =>
      obtain ⟨_, _, shape⟩ := scope.setGlobal_frame name value
      simp only [shape, and_self]
  | @assignLocal _ scope name _ value _ =>
      obtain ⟨_, _, shape⟩ := scope.set_frame name value
      simp only [shape, and_self]
  | define => exact ⟨rfl, rfl⟩
  | call => exact ⟨rfl, rfl⟩

/-- Names are local to the innermost frame only by assignments that the commands run. -/
theorem rebound
    (effect : Effect allowed commands before after)
    (name : String) :
    Rebound (∃ value, CommandList.Runs commands (.assign name value true))
      (before.bindings name) (after.bindings name) := by
  induction effect with
  | none => exact .refl (bindings_ne_nil _ name)
  | next _ _ first second => exact first.trans second
  | statuses => exact .refl (bindings_ne_nil _ name)
  | @assign _ scope other _ value =>
      by_cases same : name = other
      · subst same
        exact (Rebound.of_setGlobal scope name value).weaken
      · rw [scope.bindings_setGlobal_of_ne value same]
        exact .refl (scope.bindings_ne_nil name)
  | @assignLocal _ scope other word value isPart =>
      by_cases same : name = other
      · subst same
        exact .of_set scope value ⟨word, isPart⟩
      · rw [scope.bindings_set_of_ne value same]
        exact .refl (scope.bindings_ne_nil name)
  | define => exact .refl (bindings_ne_nil _ name)
  | call args _ _ inductionHypothesis => exact (Rebound.of_call inductionHypothesis).1.weaken

end Bindings

end Scope.Effect

/-- What is allowed once stays allowed, whatever commands do. -/
def Scope.Stable
    (allowed : String → Scope → Prop) :
    Prop :=
  ∀ {commands : List Command} {before after : Scope} {name : String},
    Effect allowed commands before after → allowed name before → allowed name after

/-- What a command assigns by itself is allowed. -/
def Command.Admitted
    (allowed : String → Scope → Prop)
    (command : Command)
    (scope : Scope) :
    Prop :=
  ∀ name, command.assigned? = some name → allowed name scope

/-- The effect of commands leads from one scope to the other. -/
def Machine.Affected
    (allowed : String → Scope → Prop)
    (commands : List Command)
    (before after : Machine) :
    Prop :=
  Scope.Effect allowed commands before.scope after.scope

/-- A command has its effect from where its own assignments are allowed. -/
def Machine.AffectedIfAdmitted
    (allowed : String → Scope → Prop)
    (command : Command)
    (before after : Machine) :
    Prop :=
  command.Admitted allowed before.scope → before.Affected allowed [command] after

namespace Machine.Affected

variable {allowed : String → Scope → Prop}
variable {commands : List Command}

theorem hostFree
    (allowed : String → Scope → Prop)
    (commands : List Command) :
    HostFree (Affected allowed commands) where
  refl _ := .none
  trans := .next
  host _ _ := .none

theorem composable
    (allowed : String → Scope → Prop)
    (commands : List Command) :
    Composable (Affected allowed commands) :=
  (hostFree allowed commands).toComposable

theorem of_sameScope
    {before after : Machine}
    (same : before.SameScope after) :
    before.Affected allowed commands after := by
  unfold Affected
  rw [same]
  exact .none

theorem of_keepsScope
    {evaluation : Eval α}
    (keeps : Eval.Keeps SameScope evaluation) :
    Eval.Keeps (Affected allowed commands) evaluation :=
  fun _ _ _ finished => of_sameScope (keeps finished)

theorem mono
    {fewer more : List Command}
    (runs : ∀ part, CommandList.Runs fewer part → CommandList.Runs more part)
    {evaluation : Eval α}
    (keeps : Eval.Keeps (Affected allowed fewer) evaluation) :
    Eval.Keeps (Affected allowed more) evaluation :=
  fun _ _ _ finished => Scope.Effect.mono runs (keeps finished)

theorem mapScope
    {change : Scope → Scope}
    (effect : ∀ scope, Scope.Effect allowed commands scope (change scope)) :
    Eval.Keeps (Affected allowed commands) (Eval.mapScope change) := by
  intro before after result finished
  cases finished
  exact effect before.scope

/-- What is called by its name is a function that the scope holds. -/
theorem of_called
    {name : String}
    {function : Function}
    {args : List Value}
    {before after : Machine}
    (isHeld : before.scope.function? name = some function)
    (ended :
      before.SameScope after ∨ Scope.Called allowed function args before.scope after.scope) :
    before.Affected allowed commands after := by
  rcases ended with same | called
  · exact of_sameScope same
  · unfold Affected
    generalize after.scope = later at called
    cases called with
    | left body => exact .call args isHeld body

theorem withProcessSubs
    (env : Env)
    {evaluation : Eval ControlFlow}
    (keeps : Eval.Keeps (Affected allowed commands) evaluation) :
    Eval.Keeps (Affected allowed commands) (Commands.withProcessSubs env evaluation) := by
  refine (hostFree allowed commands).withProcessSubs (fun machine statuses => ?_) env keeps
  exact .statuses machine.scope.lastStatus machine.scope.pipeStatus statuses

theorem underRedirects
    (redirections : List Redirection)
    {evaluation : Eval ControlFlow}
    (keeps : Eval.Keeps (Affected allowed commands) evaluation) :
    Eval.Keeps (Affected allowed commands) (Commands.underRedirects redirections evaluation) :=
  Composable.underRedirects ((hostFree allowed commands).withRedirects redirections keeps)

theorem runPipeline
    {below : Evaluator}
    (isolates : below.Isolates)
    (env : Env)
    (stages : List Command)
    (negated : Bool) :
    Eval.Keeps (Affected allowed commands)
      (Commands.runPipeline below env stages negated) := by
  have keeps := composable allowed commands
  refine keeps.bind (keeps.require env _) fun _ => ?_
  refine keeps.bind
    (of_keepsScope (Commands.hostPipeline_scope isolates stages negated)) fun statuses => ?_
  refine keeps.bind (mapScope fun scope => ?_) fun _ => keeps.pure _
  exact .statuses scope.lastStatus statuses.stages scope.processSubStatus

/-- A command that the host runs isolated leaves nothing but statuses. -/
theorem of_runsIsolated
    {below : Evaluator}
    (isolates : below.Isolates)
    (env : Env)
    {command : Command}
    (isIsolated : command.runsIsolated = true) :
    Eval.Keeps (Affected allowed commands) (Commands.run below env command) := by
  cases command with
  | pipeline stages negated => exact runPipeline isolates env stages negated
  | subshell body => exact of_keepsScope (Commands.subshell_keeps_scope isolates body)
  | background body => exact of_keepsScope (Commands.background_keeps_scope isolates body)
  | _ => cases isIsolated

theorem keepStatus
    (flow : ControlFlow) :
    Eval.Keeps (Affected allowed commands) (Commands.keepStatus flow) := by
  cases flow with
  | normal status =>
      refine mapScope fun scope => ?_
      exact .statuses status scope.pipeStatus scope.processSubStatus
  | raise signal => exact (composable allowed commands).pure ()

end Machine.Affected

namespace Machine.AffectedIfAdmitted

variable {allowed : String → Scope → Prop}
variable (stable : Scope.Stable allowed)

include stable

theorem hostFree
    (command : Command) :
    HostFree (AffectedIfAdmitted allowed command) where
  refl _ _ := .none
  trans earlier later admitted :=
    .next (earlier admitted) (later fun name isAssigned =>
      stable (earlier admitted) (admitted name isAssigned))
  host _ _ _ := .none

theorem composable
    (command : Command) :
    Composable (AffectedIfAdmitted allowed command) :=
  (hostFree stable command).toComposable

theorem withProcessSubs
    {command : Command}
    (env : Env)
    {evaluation : Eval ControlFlow}
    (keeps : Eval.Keeps (AffectedIfAdmitted allowed command) evaluation) :
    Eval.Keeps (AffectedIfAdmitted allowed command)
      (Commands.withProcessSubs env evaluation) := by
  refine (hostFree stable command).withProcessSubs (fun machine statuses _ => ?_) env keeps
  exact .statuses machine.scope.lastStatus machine.scope.pipeStatus statuses

omit stable

theorem of_affected
    {command : Command}
    {evaluation : Eval α}
    (keeps : Eval.Keeps (Affected allowed [command]) evaluation) :
    Eval.Keeps (AffectedIfAdmitted allowed command) evaluation :=
  fun _ _ _ finished _ => keeps finished

end Machine.AffectedIfAdmitted

open Machine (Affected AffectedIfAdmitted SameScope)

/-- For this evaluator, commands have their effects on the scope, and values those of calls. -/
structure HasEffects
    (allowed : String → Scope → Prop)
    (below : Evaluator) :
    Prop where
  isolates : below.Isolates
  values : ValuesKeep (Affected allowed []) True below
  command : ∀ env command,
    Eval.Keeps (Affected allowed [command]) (below.command env command)
  loop : ∀ env statement status,
    Eval.Keeps (Affected allowed [.loop statement]) (below.loop env statement status)

namespace HasEffects

variable {allowed : String → Scope → Prop}
variable {below : Evaluator}
variable (effects : HasEffects allowed below)
variable {commands : List Command}
variable (env : Env)

include effects

section Calls

/-- A value is evaluated without a part of any command. -/
theorem value
    (request : Request α)
    (isValue : request.isForValue = true) :
    Eval.Keeps (Affected allowed commands) (below α env request) :=
  Affected.mono (fun _ runs => by simp [CommandList.Runs] at runs)
    (effects.values env request isValue (.inr trivial))

theorem words
    (words : List Word) :
    Eval.Keeps (Affected allowed commands)
      (Eval.each (below.word env) words) :=
  (Affected.composable allowed commands).each fun word _ => effects.value env (.word word) rfl

/-- A command has the effects of any commands that run what it runs. -/
theorem commandWithin
    {command : Command}
    (within : ∀ part, command.Runs part → CommandList.Runs commands part) :
    Eval.Keeps (Affected allowed commands) (below.command env command) :=
  Affected.mono (fun part runs => within part (CommandList.runs_singleton.mp runs))
    (effects.command env command)

theorem commandList
    {body : List Command}
    (within : ∀ part, CommandList.Runs body part → CommandList.Runs commands part) :
    Eval.Keeps (Affected allowed commands) (CommandList.execute below env body) := by
  have composable := Affected.composable allowed commands
  unfold CommandList.execute
  generalize ControlFlow.ok = flow
  induction body generalizing flow with
  | nil => exact composable.pure flow
  | cons command rest inductionHypothesis =>
      have first : ∀ part, command.Runs part → CommandList.Runs commands part :=
        fun part runs => within part ⟨command, .head rest, runs⟩
      have others : ∀ part, CommandList.Runs rest part → CommandList.Runs commands part :=
        fun part ⟨other, isLater, runs⟩ => within part ⟨other, .tail command isLater, runs⟩
      refine composable.bind (effects.commandWithin env first) fun ended => ?_
      cases ended with
      | normal status => exact inductionHypothesis others (.normal status)
      | raise signal => exact composable.pure _

/-- A function's body has its effects inside a frame. -/
theorem runFrame
    {function : Function}
    {args : List Value}
    {before after : Machine}
    {result : Except RuntimeError ControlFlow}
    (finished :
      (Function.runFrame below env function args).run before =
        some (result, after)) :
    Scope.Called allowed function args before.scope after.scope := by
  obtain ⟨ended, ran, rfl⟩ := Function.runFrame_cases finished
  exact .left (effects.commandList env (fun _ runs => runs) ran)

/-- A procedure is called, unless the function is a typed one. -/
theorem callProc
    {function : Function}
    {argv : List String}
    {before after : Machine}
    {result : Except RuntimeError Int32}
    (finished :
      (function.callProc below env argv).run before = some (result, after)) :
    before.SameScope after ∨
      Scope.Called allowed function ((argv.drop 1).map .str) before.scope after.scope := by
  unfold Function.callProc at finished
  split at finished
  · cases finished
    exact .inl rfl
  · rcases Eval.bind_eq_some_iff.mp finished with
      ⟨_, failed, _⟩ | ⟨flow, between, ran, ended⟩
    · exact .inr (effects.runFrame env failed)
    · obtain rfl := Composable.unchanged.ofExcept id _ ended
      exact .inr (effects.runFrame env ran)

/-- A typed function is called, if expressions are connected to commands. -/
theorem callTyped
    {function : Function}
    {args : List Value}
    {before after : Machine}
    {result : Except RuntimeError Value}
    (finished :
      (function.callTyped below env args).run before = some (result, after)) :
    before.SameScope after ∨
      Scope.Called allowed function args before.scope after.scope := by
  rcases Eval.bind_eq_some_iff.mp finished with
    ⟨_, refused, _⟩ | ⟨_, _, allowed, calling⟩
  · obtain rfl := Composable.unchanged.require env _ refused
    exact .inl rfl
  obtain rfl := Composable.unchanged.require env _ allowed
  rcases Eval.bind_eq_some_iff.mp calling with
    ⟨_, failed, _⟩ | ⟨flow, between, ran, ended⟩
  · exact .inr (effects.runFrame env failed)
  · obtain rfl := Composable.unchanged.ofExcept id _ ended
    exact .inr (effects.runFrame env ran)

theorem callNamed
    (name : String)
    (args : List Value)
    (span : SpanId) :
    Eval.Keeps (Affected allowed commands)
      (Expression.callNamed below env name args span) := by
  have composable := Affected.composable allowed commands
  unfold Expression.callNamed
  split
  · exact composable.ofExcept id _
  · intro before after result finished
    rw [Eval.run_scope_bind] at finished
    split at finished
    next function isHeld =>
      split at finished
      · exact Affected.of_called isHeld (effects.callTyped env finished)
      · exact composable.throw _ finished
    next => exact composable.throw _ finished

theorem runNamed
    (name : String)
    (argv : List String) :
    Eval.Keeps (Affected allowed commands)
      (Commands.runNamed below env name argv) := by
  have composable := Affected.composable allowed commands
  unfold Commands.runNamed
  split
  · split
    · exact composable.pure _
    · exact (Affected.hostFree allowed commands).runBuiltin _ _
  · intro before after result finished
    rw [Eval.run_scope_bind] at finished
    split at finished
    next function isHeld => exact Affected.of_called isHeld (effects.callProc env finished)
    next => exact (Affected.hostFree allowed commands).onHost _ _ finished

end Calls

section Commands

theorem simple
    (words : List Word) :
    Eval.Keeps (Affected allowed commands) (Commands.runSimple below env words) := by
  have composable := Affected.composable allowed commands
  refine composable.bind (composable.require env _) fun _ => ?_
  refine composable.bind (effects.words env words) fun argv => ?_
  cases argv with
  | nil => exact composable.pure _
  | cons name args =>
      refine composable.bind (composable.require env _) fun _ => ?_
      refine composable.bind (Affected.of_keepsScope (SameScope.keeps_emitIfOn env _)) fun _ => ?_
      exact composable.bind (effects.runNamed env name (name :: args)) fun _ =>
        composable.pure _

theorem assign
    (stable : Scope.Stable allowed)
    (name : String)
    (value : Word)
    (isLocal : Bool) :
    Eval.Keeps (AffectedIfAdmitted allowed (.assign name value isLocal))
      (Commands.assign below env name value isLocal) := by
  have composable :=
    AffectedIfAdmitted.composable stable (.assign name value isLocal)
  refine composable.bind (composable.require env _) fun _ => ?_
  refine composable.bind (.of_affected (effects.value env (.word value) rfl)) fun text => ?_
  refine composable.bind ?_ fun _ => composable.pure _
  intro before after result finished admitted
  cases finished
  cases isLocal with
  | true => exact .assignLocal (.str text) (CommandList.runs_singleton.mpr .self)
  | false =>
      exact .assign (.str text) (CommandList.runs_singleton.mpr .self) rfl (admitted name rfl)

theorem control
    (keyword : ControlKeyword)
    (argument : Option ControlArgument)
    (token : SpanId) :
    Eval.Keeps (Affected allowed commands)
      (Control.execute below env keyword argument token) := by
  have composable := Affected.composable allowed commands
  have checked :
      ∀ level, Eval.Keeps (Affected allowed commands)
        (Eval.ofExcept id (Control.loopSignal keyword level token)) :=
    fun _ => composable.ofExcept id _
  have number :
      ∀ keyword word, Eval.Keeps (Affected allowed commands)
        (Control.numericArgument below env keyword word token) := by
    intro keyword word
    refine composable.bind (composable.require env _) fun _ => ?_
    refine composable.bind (effects.value env (.word word) rfl) fun text => ?_
    split
    · exact composable.pure _
    · exact composable.throw _
  have signal :
      Eval.Keeps (Affected allowed commands)
        (Control.signal below env keyword argument token) := by
    unfold Control.signal
    split
    next expr =>
      refine composable.bind (composable.require env _) fun _ => ?_
      exact composable.bind (effects.value env (.expr expr) rfl) fun _ => composable.pure _
    next => exact composable.throw _
    next word => exact composable.bind (number _ word) fun _ => composable.pure _
    next => exact composable.bind composable.scope fun _ => composable.pure _
    next _ word _ => exact composable.bind (number _ word) checked
    next => exact checked 1
  refine composable.bind signal fun raised => ?_
  refine composable.bind (composable.require env _) fun _ => ?_
  refine composable.bind (Affected.of_keepsScope (SameScope.keeps_emitIfOn env _)) fun _ => ?_
  exact composable.pure _

/-- The parts of a command have their effects as its own. -/
theorem part
    {whole part : Command}
    (isPart : whole.Part part) :
    Eval.Keeps (Affected allowed [whole]) (below.command env part) :=
  effects.commandWithin env fun _ runs => CommandList.runs_singleton.mpr (.part isPart runs)

theorem parts
    {whole : Command}
    {body : List Command}
    (areParts : ∀ command ∈ body, whole.Part command) :
    Eval.Keeps (Affected allowed [whole]) (CommandList.execute below env body) :=
  effects.commandList env fun _ ⟨command, isMember, runs⟩ =>
    CommandList.runs_singleton.mpr (.part (areParts command isMember) runs)

theorem condition
    {whole : Command}
    (condition : Condition)
    (isPart : ∀ command, condition = .run command → whole.Part command) :
    Eval.Keeps (Affected allowed [whole]) (Commands.condition below env condition) := by
  have composable := Affected.composable allowed [whole]
  cases condition with
  | test test =>
      refine composable.bind (composable.require env _) fun _ => ?_
      exact composable.bind (effects.value env (.test test) rfl) fun _ => composable.pure _
  | run command => exact effects.part env (isPart command rfl)

theorem arms
    {whole : Command}
    {otherwise : Option (List Command)}
    {arms : List BranchArm}
    (conditions : ∀ arm ∈ arms, ∀ command,
      arm.condition = .run command → whole.Part command)
    (bodies : ∀ arm ∈ arms, ∀ command ∈ arm.body, whole.Part command)
    (last : ∀ body, otherwise = some body → ∀ command ∈ body, whole.Part command) :
    Eval.Keeps (Affected allowed [whole])
      (Commands.runArms below env otherwise arms) := by
  have composable := Affected.composable allowed [whole]
  induction arms with
  | nil =>
      cases otherwise with
      | some body => exact effects.parts env (last body rfl)
      | none => exact composable.pure _
  | cons arm rest inductionHypothesis =>
      refine composable.bind
        (effects.condition env arm.condition (conditions arm (.head rest))) fun ended => ?_
      cases ended with
      | normal status =>
          refine .ite (effects.parts env (bodies arm (.head rest))) (inductionHypothesis ?_ ?_)
          · exact fun other isLater => conditions other (.tail arm isLater)
          · exact fun other isLater => bodies other (.tail arm isLater)
      | raise signal => exact composable.pure _

theorem items
    (stable : Scope.Stable allowed)
    (name : String)
    (words : List Word)
    (body : List Command)
    (status : Int32)
    (items : List String) :
    Eval.Keeps (AffectedIfAdmitted allowed (.forEach name words body))
      (Commands.runItems below env name body status items) := by
  have composable := AffectedIfAdmitted.composable stable (.forEach name words body)
  induction items generalizing status with
  | nil => exact composable.pure _
  | cons item rest inductionHypothesis =>
      refine composable.bind ?_ fun _ => ?_
      · intro before after result finished admitted
        cases finished
        exact .assign (.str item) (CommandList.runs_singleton.mpr .self) rfl
          (admitted name rfl)
      refine composable.bind (.of_affected (effects.parts env fun _ => .itemBody)) fun ended => ?_
      split
      · exact inductionHypothesis _
      · exact composable.pure _
      · exact composable.pure _

/-- The rounds of a loop have the effects of the loop. -/
theorem rounds
    (statement : LoopStatement)
    (status : Int32) :
    Eval.Keeps (Affected allowed [.loop statement])
      (Commands.runLoop below env statement status) := by
  have composable := Affected.composable allowed [.loop statement]
  refine composable.bind
    (effects.condition env statement.condition fun _ => .loopCondition) fun ended => ?_
  cases ended with
  | normal code =>
      refine .ite (composable.pure _) ?_
      refine composable.bind (effects.parts env fun _ => .loopBody) fun ended => ?_
      split
      · exact effects.loop env statement _
      · exact composable.pure _
      · exact composable.pure _
  | raise signal =>
      dsimp only
      split
      · exact effects.loop env statement status
      · exact composable.pure _
      · exact composable.pure _

theorem redirected
    (body : Command)
    (redirects : List Redirect) :
    Eval.Keeps (Affected allowed [.redirected body redirects])
      (Commands.runRedirected below env body redirects) := by
  have composable := Affected.composable allowed [.redirected body redirects]
  refine composable.bind (composable.require env _) fun _ => ?_
  refine composable.bind (composable.each fun redirect _ => ?_) fun redirections => ?_
  · exact composable.bind (effects.value env (.word redirect.target) rfl) fun _ =>
      composable.pure _
  · exact Affected.underRedirects redirections (effects.part env .redirected)

/-- What runs for a command, without the status that it leaves, has the command's effects. -/
theorem run
    (stable : Scope.Stable allowed)
    (command : Command) :
    Eval.Keeps (AffectedIfAdmitted allowed command) (Commands.run below env command) := by
  have composable := Affected.composable allowed [command]
  cases command with
  | assign name value isLocal => exact effects.assign env stable name value isLocal
  | forEach name items body =>
      have composable := AffectedIfAdmitted.composable stable (.forEach name items body)
      refine AffectedIfAdmitted.withProcessSubs stable env ?_
      refine composable.bind (composable.require env _) fun _ => ?_
      exact composable.bind (.of_affected (effects.words env items))
        (effects.items env stable name items body 0)
  | simple words span =>
      exact .of_affected (Affected.withProcessSubs env (effects.simple env words))
  | sequence commands => exact .of_affected (effects.parts env fun _ => .sequence)
  | andThen left right =>
      apply AffectedIfAdmitted.of_affected
      refine composable.bind (effects.part env .andLeft) fun ended => ?_
      cases ended with
      | normal status => exact .ite (effects.part env .andRight) (composable.pure _)
      | raise signal => exact composable.pure _
  | orElse left right =>
      apply AffectedIfAdmitted.of_affected
      refine composable.bind (effects.part env .orLeft) fun ended => ?_
      cases ended with
      | normal status => exact .ite (composable.pure _) (effects.part env .orRight)
      | raise signal => exact composable.pure _
  | pipeline stages negated =>
      exact .of_affected (Affected.of_runsIsolated effects.isolates env rfl)
  | subshell body =>
      exact .of_affected (Affected.of_runsIsolated effects.isolates env rfl)
  | background body =>
      exact .of_affected (Affected.of_runsIsolated effects.isolates env rfl)
  | branch arms otherwise =>
      apply AffectedIfAdmitted.of_affected
      refine effects.arms env (fun _ isArm _ => .armCondition isArm)
        (fun _ isArm _ => .armBody isArm) ?_
      rintro body rfl command isMember
      exact .otherwise isMember
  | loop statement => exact .of_affected (effects.loop env statement 0)
  | define function =>
      apply AffectedIfAdmitted.of_affected
      refine composable.bind (Affected.mapScope fun scope => ?_) fun _ => composable.pure _
      exact .define (CommandList.runs_singleton.mpr .self)
  | control keyword argument token =>
      exact .of_affected (effects.control env keyword argument token)
  | redirected body redirects =>
      exact .of_affected (Affected.withProcessSubs env (effects.redirected env body redirects))

end Commands

section Answers

/-- A command that is answered has its effects, if what it assigns by itself is allowed. -/
theorem answerCommand
    (stable : Scope.Stable allowed)
    (command : Command) :
    Eval.Keeps (AffectedIfAdmitted allowed command)
      (answer below ControlFlow env (.command command)) := by
  have composable := AffectedIfAdmitted.composable stable command
  refine composable.bind (effects.run env stable command) fun flow => ?_
  exact composable.bind (.of_affected (Affected.keepStatus flow)) fun _ => composable.pure flow

theorem answerValue :
    ValuesKeep (Affected allowed []) True (answer below) :=
  ValuesKeep.succ effects.values effects.isolates (Affected.composable allowed [])
    Affected.of_sameScope fun _ => effects.callNamed

end Answers

end HasEffects

/-- Commands have their effects, however much fuel there is. -/
theorem hasEffects
    (fuel : Nat) :
    HasEffects (fun _ _ => True) (evaluator fuel) := by
  induction fuel with
  | zero =>
      refine ⟨Confined.isolated 0, ?_, ?_, ?_⟩
      · intro α env request isValue free before after result finished
        cases finished
      · intro env command before after result finished
        cases finished
      · intro env statement status before after result finished
        cases finished
  | succ fuel inductionHypothesis =>
      refine ⟨Confined.isolated (fuel + 1), inductionHypothesis.answerValue, ?_, ?_⟩
      · intro env command before after result finished
        exact inductionHypothesis.answerCommand env (fun _ _ => trivial) command finished
          fun _ _ => trivial
      · exact inductionHypothesis.rounds

end ShellCore
