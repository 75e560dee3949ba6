import ShellCore.Evaluation.Answer

namespace ShellCore

/-!
# Congruences of evaluation

A request can be evaluated in two environments, and by two evaluators that have
different fuel. A congruence is a relation between two such evaluations which
every step has with itself and which everything that is put together from steps
inherits from its parts. The induction over words, expressions, commands and the
commands that a host runs is made once, here, for every congruence.
-/

/-- The changes that a single step of a command makes to the scope. -/
inductive Scope.Change : (Scope → Scope) → Prop where
  | lastStatus (status : Int32) :
      Change fun scope => { scope with lastStatus := status }
  | pipeStatus (codes : List Int32) :
      Change fun scope => { scope with pipeStatus := codes }
  | set (name : String) (value : Value) :
      Change fun scope => scope.set name value
  | setGlobal (name : String) (value : Value) :
      Change fun scope => scope.setGlobal name value
  | define (function : Function) :
      Change fun scope => scope.define function

/-- The calls that a host answers by calling back a command evaluator. -/
inductive HostCall.Reentrant : HostCall → Prop where
  | background (kindName : String) : Reentrant (.background kindName)
  | pipeline (stages : Nat) : Reentrant (.pipeline stages)
  | subshell : Reentrant .subshell
  | commandSub : Reentrant .commandSub
  | processSub : Reentrant .processSub

/-- Run a command under redirections; if they do not hold, that is its status. -/
def Commands.underRedirects
    (redirections : List Redirection)
    (body : Eval ControlFlow) :
    Eval ControlFlow :=
  Eval.ofRun do
    match ← Guard.withRedirects redirections body.run with
    | some result => return result
    | none => return .ok (.normal redirectFailed)

/-- A relation between evaluations that the steps and the brackets of an evaluation respect. -/
structure Congruence
    (related : ∀ {α : Type}, Eval α → Eval α → Prop)
    (paired : Env → Env → Prop) :
    Prop where
  pure : ∀ {α : Type} (answer : α),
    related (pure answer) (pure answer)
  /-- Faults are not thrown by what evaluates, only by what is missing or dropped. -/
  throw : ∀ {α : Type} {error : RuntimeError},
    error.isFatal = false →
    related (throw error : Eval α) (throw error)
  bind : ∀ {α β : Type} {first otherFirst : Eval α} {next otherNext : α → Eval β},
    related first otherFirst →
    (∀ answer, related (next answer) (otherNext answer)) →
    related (first >>= next) (otherFirst >>= otherNext)
  /-- The scope may be looked at, as far as it does not tell whether commands are traced. -/
  withScope : ∀ {α : Type} {next otherNext : Scope → Eval α},
    (∀ scope traced, related (next scope) (otherNext { scope with xtrace := traced })) →
    related (Eval.scope >>= next) (Eval.scope >>= otherNext)
  update : ∀ {change : Scope → Scope},
    Scope.Change change →
    related (Eval.mapScope change) (Eval.mapScope change)
  require : ∀ {env otherEnv : Env} (connection : Connection),
    paired env otherEnv →
    related (Eval.require env connection) (Eval.require otherEnv connection)
  trace : ∀ {env otherEnv : Env} (text : String),
    paired env otherEnv →
    related (Trace.emitIfOn env text) (Trace.emitIfOn otherEnv text)
  callables : ∀ {env otherEnv : Env},
    paired env otherEnv →
    otherEnv.setup.callables = env.setup.callables
  callable : ∀ {env otherEnv : Env} {name : String} {callable : Callable} (args : List Value),
    paired env otherEnv →
    env.setup.callables.get? name = some callable →
    related (Eval.ofExcept id (callable args)) (Eval.ofExcept id (callable args))
  /-- A function's body runs in a frame of its own. -/
  frame : ∀ {below otherBelow : Evaluator} {env otherEnv : Env}
      (function : Function) (args : List Value),
    related (CommandList.execute below env function.body)
      (CommandList.execute otherBelow otherEnv function.body) →
    related (Function.runFrame below env function args)
      (Function.runFrame otherBelow otherEnv function args)
  /-- A call of the host is recorded, and what it runs is run in the set that it calls back. -/
  reentry : ∀ {α β : Type} {env otherEnv : Env} {call : HostCall}
      {evaluation otherEvaluation : Env → Eval α} {next otherNext : α → Eval β}
      (inertAnswer : β),
    paired env otherEnv →
    call.Reentrant →
    (∀ {env otherEnv : Env},
      paired env otherEnv →
      related (evaluation env) (otherEvaluation otherEnv)) →
    (∀ answer, related (next answer) (otherNext answer)) →
    related (Host.recorded call inertAnswer (Host.callBack env evaluation >>= next))
      (Host.recorded call inertAnswer (Host.callBack otherEnv otherEvaluation >>= otherNext))
  runSimple : ∀ argv,
    related (Host.runSimple argv) (Host.runSimple argv)
  runBuiltin : ∀ name argv,
    related (Eval.ofRun (Guard.withFlush (Host.runBuiltin name argv).run))
      (Eval.ofRun (Guard.withFlush (Host.runBuiltin name argv).run))
  finishProcessSub : ∀ status output span,
    related (Eval.onHost "" fun host => host.finishProcessSub status output span)
      (Eval.onHost "" fun host => host.finishProcessSub status output span)
  isolation : ∀ {α : Type} {evaluation otherEvaluation : Eval α},
    related evaluation otherEvaluation →
    related (Isolation.keepingScope evaluation) (Isolation.keepingScope otherEvaluation)
  capture : ∀ {α : Type} {evaluation otherEvaluation : Eval α},
    related evaluation otherEvaluation →
    related (Host.withCapture evaluation) (Host.withCapture otherEvaluation)
  processSubs : ∀ {env otherEnv : Env} {evaluation otherEvaluation : Eval ControlFlow},
    paired env otherEnv →
    related evaluation otherEvaluation →
    related (Commands.withProcessSubs env evaluation)
      (Commands.withProcessSubs otherEnv otherEvaluation)
  redirects : ∀ {evaluation otherEvaluation : Eval ControlFlow} (redirections : List Redirection),
    related evaluation otherEvaluation →
    related (Commands.underRedirects redirections evaluation)
      (Commands.underRedirects redirections otherEvaluation)

/-- The answers of two evaluators to the same request are related. -/
def Evaluator.Related
    (related : ∀ {α : Type}, Eval α → Eval α → Prop)
    (paired : Env → Env → Prop)
    (below otherBelow : Evaluator) :
    Prop :=
  ∀ {α : Type} {env otherEnv : Env},
    paired env otherEnv →
    ∀ request : Request α,
      related (below α env request) (otherBelow α otherEnv request)

/-- An operand is read from a scope without a look at tracing. -/
theorem Arithmetic.operand_traced
    (scope : Scope)
    (traced : Bool)
    (text : String) :
    operand { scope with xtrace := traced } text = operand scope text :=
  rfl

/-- What a function's frame answers to a procedure call is never a fault. -/
theorem Function.procStatus_not_fatal
    {function : Function}
    {flow : ControlFlow}
    {error : RuntimeError}
    (failed : procStatus function flow = .error error) :
    error.isFatal = false := by
  unfold procStatus at failed
  split at failed <;> cases failed <;> rfl

theorem Function.typedValue_not_fatal
    {flow : ControlFlow}
    {error : RuntimeError}
    (failed : typedValue flow = .error error) :
    error.isFatal = false := by
  unfold typedValue at failed
  split at failed
  · cases failed
  · cases failed
  · cases failed
  · cases failed
    rfl

theorem Control.loopSignal_not_fatal
    {keyword : ControlKeyword}
    {level : Int64}
    {token : SpanId}
    {error : RuntimeError}
    (failed : loopSignal keyword level token = .error error) :
    error.isFatal = false := by
  unfold loopSignal at failed
  split at failed
  · cases keyword <;> cases failed
  · cases failed
    rfl

namespace Congruence

variable {related : ∀ {α : Type}, Eval α → Eval α → Prop}
variable {paired : Env → Env → Prop}
variable (congruence : Congruence related paired)

include congruence

section Steps

variable {env otherEnv : Env}

theorem ofExcept
    {wrap : ε → RuntimeError}
    {outcome : Except ε α}
    (harmless : ∀ error, outcome = .error error → (wrap error).isFatal = false) :
    related (Eval.ofExcept wrap outcome) (Eval.ofExcept wrap outcome) := by
  cases outcome with
  | ok answer => exact congruence.pure answer
  | error error => exact congruence.throw (harmless error rfl)

theorem each
    {evaluate otherEvaluate : α → Eval β}
    (itemRelated : ∀ item, related (evaluate item) (otherEvaluate item)) :
    ∀ items, related (Eval.each evaluate items) (Eval.each otherEvaluate items)
  | [] => congruence.pure []
  | item :: rest =>
      congruence.bind (itemRelated item) fun answer =>
        congruence.bind (each itemRelated rest) fun answers =>
          congruence.pure (answer :: answers)

theorem expandPrompt
    (pair : paired env otherEnv)
    (template : String) :
    related (Prompt.expand env template) (Prompt.expand otherEnv template) := by
  refine congruence.bind (congruence.each (fun piece => ?_) _) fun _ => congruence.pure _
  cases piece with
  | text text => exact congruence.pure _
  | var name =>
      exact congruence.bind (congruence.require _ pair) fun _ =>
        congruence.withScope fun _ _ => congruence.pure _

end Steps

section Requests

variable {below otherBelow : Evaluator}
variable (belowRelated : Evaluator.Related related paired below otherBelow)
variable {env otherEnv : Env}
variable (pair : paired env otherEnv)

include belowRelated pair

theorem isolated
    (command : Command) :
    related (Isolation.execute below env command) (Isolation.execute otherBelow otherEnv command) :=
  congruence.bind (congruence.isolation (belowRelated pair (.command command))) fun _ =>
    congruence.pure _

theorem runBackground
    (body : Command) :
    related (Host.runBackground below env body) (Host.runBackground otherBelow otherEnv body) :=
  congruence.reentry _ pair (.background _)
    (fun pair => congruence.isolated belowRelated pair body) fun _ => congruence.pure _

theorem hostPipeline
    (stages : List Command)
    (negated : Bool) :
    related (Host.runPipeline below env stages negated)
      (Host.runPipeline otherBelow otherEnv stages negated) :=
  congruence.reentry _ pair (.pipeline _)
    (fun pair => congruence.each (congruence.isolated belowRelated pair) stages)
    fun _ => congruence.pure _

theorem runSubshell
    (body : Command) :
    related (Host.runSubshell below env body) (Host.runSubshell otherBelow otherEnv body) := by
  unfold Host.runSubshell
  rw [← bind_pure (Host.callBack env _), ← bind_pure (Host.callBack otherEnv _)]
  exact congruence.reentry _ pair .subshell
    (fun pair => congruence.isolated belowRelated pair body) fun _ => congruence.pure _

theorem captured
    (body : Command) :
    related (Host.withCapture (Isolation.execute below env body))
      (Host.withCapture (Isolation.execute otherBelow otherEnv body)) :=
  congruence.capture (congruence.isolated belowRelated pair body)

theorem runCommandSub
    (body : Command) :
    related (Host.runCommandSub below env body) (Host.runCommandSub otherBelow otherEnv body) :=
  congruence.reentry _ pair .commandSub
    (fun pair => congruence.captured belowRelated pair body) fun _ => congruence.pure _

theorem runProcessSub
    (body : Command)
    (span : SpanId) :
    related (Host.runProcessSub below env body span)
      (Host.runProcessSub otherBelow otherEnv body span) :=
  congruence.reentry _ pair .processSub
    (fun pair => congruence.captured belowRelated pair body)
    fun _ => congruence.finishProcessSub _ _ span

theorem word
    (word : Word) :
    related (Words.evaluate below env word) (Words.evaluate otherBelow otherEnv word) := by
  cases word with
  | literal text => exact congruence.pure text
  | var name => exact congruence.withScope fun _ _ => congruence.pure _
  | arith expr =>
      exact congruence.bind (congruence.require _ pair) fun _ =>
        congruence.bind (belowRelated pair (.arith expr)) fun _ => congruence.pure _
  | commandSub body =>
      exact congruence.bind (congruence.require _ pair) fun _ =>
        congruence.bind (congruence.runCommandSub belowRelated pair body) fun _ =>
          congruence.pure _
  | processSub body span =>
      exact congruence.bind (congruence.require _ pair) fun _ =>
        congruence.runProcessSub belowRelated pair body span
  | prompt template =>
      exact congruence.bind (congruence.require _ pair) fun _ =>
        congruence.expandPrompt pair template
  | expr expr =>
      exact congruence.bind (congruence.require _ pair) fun _ =>
        congruence.bind (belowRelated pair (.expr expr)) fun _ => congruence.pure _
  | concat parts =>
      exact congruence.bind
        (congruence.each (fun part => belowRelated pair (.word part)) parts) fun _ =>
          congruence.pure _

theorem arithmetic :
    ∀ expr : ArithExpr,
      related (Arithmetic.evaluate below env expr) (Arithmetic.evaluate otherBelow otherEnv expr)
  | .number value => congruence.pure value
  | .word word => by
      refine congruence.bind (congruence.require _ pair) fun _ => ?_
      refine congruence.bind (belowRelated pair (.word word)) fun text => ?_
      refine congruence.withScope fun scope traced => ?_
      rw [Arithmetic.operand_traced]
      exact congruence.ofExcept fun _ _ => rfl
  | .negate inner => congruence.bind (arithmetic inner) fun _ => congruence.pure _
  | .binary _ left right => by
      refine congruence.bind (arithmetic left) fun first => ?_
      exact congruence.bind (arithmetic right) fun _ => congruence.ofExcept fun _ _ => rfl

theorem test :
    ∀ test : BoolExpr,
      related (Test.evaluate below env test) (Test.evaluate otherBelow otherEnv test)
  | .compare _ left right => by
      refine congruence.bind (congruence.require _ pair) fun _ => ?_
      refine congruence.bind (belowRelated pair (.word left)) fun first => ?_
      exact congruence.bind (belowRelated pair (.word right)) fun _ =>
        congruence.ofExcept fun _ _ => rfl
  | .isEmpty word =>
      congruence.bind (congruence.require _ pair) fun _ =>
        congruence.bind (belowRelated pair (.word word)) fun _ => congruence.pure _
  | .isNonempty word =>
      congruence.bind (congruence.require _ pair) fun _ =>
        congruence.bind (belowRelated pair (.word word)) fun _ => congruence.pure _
  | .not inner => congruence.bind (test inner) fun _ => congruence.pure _
  | .and left right => by
      refine congruence.bind (test left) fun holds => ?_
      cases holds with
      | true => exact test right
      | false => exact congruence.pure false
  | .or left right => by
      refine congruence.bind (test left) fun holds => ?_
      cases holds with
      | true => exact congruence.pure true
      | false => exact test right

theorem executeFrom
    (flow : ControlFlow)
    (commands : List Command) :
    related (CommandList.executeFrom below env flow commands)
      (CommandList.executeFrom otherBelow otherEnv flow commands) := by
  induction commands generalizing flow with
  | nil => exact congruence.pure flow
  | cons command rest inductionHypothesis =>
      refine congruence.bind (belowRelated pair (.command command)) fun ended => ?_
      cases ended with
      | normal status => exact inductionHypothesis (.normal status)
      | raise signal => exact congruence.pure _

theorem commandList
    (commands : List Command) :
    related (CommandList.execute below env commands)
      (CommandList.execute otherBelow otherEnv commands) :=
  congruence.executeFrom belowRelated pair .ok commands

theorem callProc
    (function : Function)
    (argv : List String) :
    related (Function.callProc below env function argv)
      (Function.callProc otherBelow otherEnv function argv) := by
  unfold Function.callProc
  split
  · exact congruence.throw rfl
  · exact congruence.bind
      (congruence.frame function _ (congruence.commandList belowRelated pair function.body))
      fun _ => congruence.ofExcept fun _ => Function.procStatus_not_fatal

theorem callTyped
    (function : Function)
    (args : List Value) :
    related (Function.callTyped below env function args)
      (Function.callTyped otherBelow otherEnv function args) :=
  congruence.bind (congruence.require _ pair) fun _ =>
    congruence.bind
      (congruence.frame function args (congruence.commandList belowRelated pair function.body))
      fun _ => congruence.ofExcept fun _ => Function.typedValue_not_fatal

theorem callNamed
    (name : String)
    (args : List Value)
    (span : SpanId) :
    related (Expression.callNamed below env name args span)
      (Expression.callNamed otherBelow otherEnv name args span) := by
  unfold Expression.callNamed
  rw [congruence.callables pair]
  cases found : env.setup.callables.get? name with
  | some callable => exact congruence.callable args pair found
  | none =>
      refine congruence.withScope fun scope traced => ?_
      have sameFunctions :
          Scope.function? { scope with xtrace := traced } name = scope.function? name :=
        rfl
      rw [sameFunctions]
      cases scope.function? name with
      | none => exact congruence.throw rfl
      | some function =>
          dsimp only
          split
          · exact congruence.callTyped belowRelated pair function args
          · exact congruence.throw rfl

theorem expression
    (expr : Expr) :
    related (Expression.evaluate below env expr)
      (Expression.evaluate otherBelow otherEnv expr) := by
  cases expr with
  | literal value => exact congruence.pure value
  | word word =>
      exact congruence.bind (congruence.require _ pair) fun _ =>
        congruence.bind (belowRelated pair (.word word)) fun _ => congruence.pure _
  | arith expr =>
      exact congruence.bind (congruence.require _ pair) fun _ =>
        congruence.bind (belowRelated pair (.arith expr)) fun _ => congruence.pure _
  | list items =>
      exact congruence.bind
        (congruence.each (fun item => belowRelated pair (.expr item)) items) fun _ =>
          congruence.pure _
  | commandSub body =>
      exact congruence.bind (congruence.require _ pair) fun _ =>
        congruence.bind (congruence.runCommandSub belowRelated pair body) fun _ =>
          congruence.pure _
  | call name args span =>
      exact congruence.bind
        (congruence.each (fun arg => belowRelated pair (.expr arg)) args) fun values =>
          congruence.callNamed belowRelated pair name values span

theorem numericArgument
    (keyword : ControlKeyword)
    (word : Word)
    (token : SpanId) :
    related (Control.numericArgument below env keyword word token)
      (Control.numericArgument otherBelow otherEnv keyword word token) := by
  refine congruence.bind (congruence.require _ pair) fun _ => ?_
  refine congruence.bind (belowRelated pair (.word word)) fun text => ?_
  split
  · exact congruence.pure _
  · exact congruence.throw rfl

theorem signal
    (keyword : ControlKeyword)
    (argument : Option ControlArgument)
    (token : SpanId) :
    related (Control.signal below env keyword argument token)
      (Control.signal otherBelow otherEnv keyword argument token) := by
  have checked :
      ∀ level, related (Eval.ofExcept id (Control.loopSignal keyword level token))
        (Eval.ofExcept id (Control.loopSignal keyword level token)) :=
    fun _ => congruence.ofExcept fun _ => Control.loopSignal_not_fatal
  unfold Control.signal
  cases argument with
  | none =>
      cases keyword with
      | breakLoop => exact checked 1
      | continueLoop => exact checked 1
      | returnCall => exact congruence.withScope fun _ _ => congruence.pure _
  | some argument =>
      cases argument with
      | value expr =>
          cases keyword with
          | breakLoop => exact congruence.throw rfl
          | continueLoop => exact congruence.throw rfl
          | returnCall =>
              exact congruence.bind (congruence.require _ pair) fun _ =>
                congruence.bind (belowRelated pair (.expr expr)) fun _ => congruence.pure _
      | status word =>
          have number := congruence.numericArgument belowRelated pair keyword word token
          cases keyword with
          | breakLoop => exact congruence.bind number checked
          | continueLoop => exact congruence.bind number checked
          | returnCall => exact congruence.bind number fun _ => congruence.pure _

theorem control
    (keyword : ControlKeyword)
    (argument : Option ControlArgument)
    (token : SpanId) :
    related (Control.execute below env keyword argument token)
      (Control.execute otherBelow otherEnv keyword argument token) := by
  refine congruence.bind
    (congruence.signal belowRelated pair keyword argument token) fun raised => ?_
  refine congruence.bind (congruence.require _ pair) fun _ => ?_
  exact congruence.bind (congruence.trace raised.display pair) fun _ => congruence.pure _

theorem runNamed
    (name : String)
    (argv : List String) :
    related (Commands.runNamed below env name argv)
      (Commands.runNamed otherBelow otherEnv name argv) := by
  unfold Commands.runNamed
  split
  · split
    · exact congruence.pure _
    · exact congruence.runBuiltin _ _
  · refine congruence.withScope fun scope traced => ?_
    have sameFunctions :
        Scope.function? { scope with xtrace := traced } name = scope.function? name :=
      rfl
    rw [sameFunctions]
    cases scope.function? name with
    | none => exact congruence.runSimple argv
    | some function => exact congruence.callProc belowRelated pair function argv

theorem simple
    (words : List Word) :
    related (Commands.runSimple below env words)
      (Commands.runSimple otherBelow otherEnv words) := by
  refine congruence.bind (congruence.require _ pair) fun _ => ?_
  refine congruence.bind
    (congruence.each (fun word => belowRelated pair (.word word)) words) fun argv => ?_
  cases argv with
  | nil => exact congruence.pure _
  | cons name args =>
      exact congruence.bind (congruence.require _ pair) fun _ =>
        congruence.bind (congruence.trace _ pair) fun _ =>
          congruence.bind (congruence.runNamed belowRelated pair name (name :: args))
            fun _ => congruence.pure _

theorem assign
    (name : String)
    (value : Word)
    (isLocal : Bool) :
    related (Commands.assign below env name value isLocal)
      (Commands.assign otherBelow otherEnv name value isLocal) := by
  refine congruence.bind (congruence.require _ pair) fun _ => ?_
  refine congruence.bind (belowRelated pair (.word value)) fun text => ?_
  refine congruence.bind (congruence.update ?_) fun _ => congruence.pure _
  cases isLocal with
  | true => exact .set name (.str text)
  | false => exact .setGlobal name (.str text)

theorem pipeline
    (stages : List Command)
    (negated : Bool) :
    related (Commands.runPipeline below env stages negated)
      (Commands.runPipeline otherBelow otherEnv stages negated) :=
  congruence.bind (congruence.require _ pair) fun _ =>
    congruence.bind (congruence.hostPipeline belowRelated pair stages negated) fun statuses =>
      congruence.bind (congruence.update (.pipeStatus statuses.stages)) fun _ =>
        congruence.pure _

theorem redirected
    (body : Command)
    (redirects : List Redirect) :
    related (Commands.runRedirected below env body redirects)
      (Commands.runRedirected otherBelow otherEnv body redirects) := by
  refine congruence.bind (congruence.require _ pair) fun _ => ?_
  refine congruence.bind
    (congruence.each (fun redirect => ?_) redirects) fun redirections => ?_
  · exact congruence.bind (belowRelated pair (.word redirect.target)) fun _ =>
      congruence.pure _
  · exact congruence.redirects redirections (belowRelated pair (.command body))

theorem condition
    (condition : Condition) :
    related (Commands.condition below env condition)
      (Commands.condition otherBelow otherEnv condition) := by
  cases condition with
  | test test =>
      exact congruence.bind (congruence.require _ pair) fun _ =>
        congruence.bind (belowRelated pair (.test test)) fun _ => congruence.pure _
  | run command => exact belowRelated pair (.command command)

theorem branch
    (otherwise : Option (List Command))
    (arms : List BranchArm) :
    related (Commands.runArms below env otherwise arms)
      (Commands.runArms otherBelow otherEnv otherwise arms) := by
  induction arms with
  | nil =>
      cases otherwise with
      | some body => exact congruence.commandList belowRelated pair body
      | none => exact congruence.pure _
  | cons arm rest inductionHypothesis =>
      refine congruence.bind
        (congruence.condition belowRelated pair arm.condition) fun ended => ?_
      cases ended with
      | normal status =>
          dsimp only
          split
          · exact congruence.commandList belowRelated pair arm.body
          · exact inductionHypothesis
      | raise signal => exact congruence.pure _

theorem items
    (name : String)
    (body : List Command)
    (status : Int32)
    (items : List String) :
    related (Commands.runItems below env name body status items)
      (Commands.runItems otherBelow otherEnv name body status items) := by
  induction items generalizing status with
  | nil => exact congruence.pure _
  | cons item rest inductionHypothesis =>
      refine congruence.bind (congruence.update (.setGlobal name (.str item))) fun _ => ?_
      refine congruence.bind (congruence.commandList belowRelated pair body) fun ended => ?_
      split
      · exact inductionHypothesis _
      · exact congruence.pure _
      · exact congruence.pure _

/-- A round of a loop and the rounds behind it are related. -/
theorem loop
    (statement : LoopStatement)
    (status : Int32) :
    related (Commands.runLoop below env statement status)
      (Commands.runLoop otherBelow otherEnv statement status) := by
  refine congruence.bind
    (congruence.condition belowRelated pair statement.condition) fun ended => ?_
  cases ended with
  | normal code =>
      dsimp only
      split
      · exact congruence.pure _
      · refine congruence.bind
          (congruence.commandList belowRelated pair statement.body) fun ended => ?_
        split
        · exact belowRelated pair (.loop statement _)
        · exact congruence.pure _
        · exact congruence.pure _
  | raise signal =>
      dsimp only
      split
      · exact belowRelated pair (.loop statement _)
      · exact congruence.pure _
      · exact congruence.pure _

theorem run
    (command : Command) :
    related (Commands.run below env command) (Commands.run otherBelow otherEnv command) := by
  cases command with
  | simple words span =>
      exact congruence.processSubs pair (congruence.simple belowRelated pair words)
  | assign name value isLocal => exact congruence.assign belowRelated pair name value isLocal
  | sequence commands => exact congruence.commandList belowRelated pair commands
  | andThen left right =>
      refine congruence.bind (belowRelated pair (.command left)) fun ended => ?_
      cases ended with
      | normal status =>
          dsimp only
          split
          · exact belowRelated pair (.command right)
          · exact congruence.pure _
      | raise signal => exact congruence.pure _
  | orElse left right =>
      refine congruence.bind (belowRelated pair (.command left)) fun ended => ?_
      cases ended with
      | normal status =>
          dsimp only
          split
          · exact congruence.pure _
          · exact belowRelated pair (.command right)
      | raise signal => exact congruence.pure _
  | pipeline stages negated => exact congruence.pipeline belowRelated pair stages negated
  | subshell body =>
      exact congruence.bind (congruence.require _ pair) fun _ =>
        congruence.bind (congruence.runSubshell belowRelated pair body) fun _ =>
          congruence.pure _
  | background body =>
      exact congruence.bind (congruence.require _ pair) fun _ =>
        congruence.bind (congruence.runBackground belowRelated pair body) fun _ =>
          congruence.pure _
  | branch arms otherwise => exact congruence.branch belowRelated pair otherwise arms
  | forEach name words body =>
      refine congruence.processSubs pair ?_
      refine congruence.bind (congruence.require _ pair) fun _ => ?_
      refine congruence.bind
        (congruence.each (fun word => belowRelated pair (.word word)) words) fun values => ?_
      exact congruence.items belowRelated pair name body 0 values
  | loop statement => exact belowRelated pair (.loop statement 0)
  | define function =>
      exact congruence.bind (congruence.update (.define function)) fun _ => congruence.pure _
  | control keyword argument token =>
      exact congruence.control belowRelated pair keyword argument token
  | redirected body redirects =>
      exact congruence.processSubs pair
        (congruence.redirected belowRelated pair body redirects)

/-- Executions of a command that leave its status behind are related. -/
theorem command
    (command : Command) :
    related (Commands.execute below env command)
      (Commands.execute otherBelow otherEnv command) := by
  refine congruence.bind (congruence.run belowRelated pair command) fun flow => ?_
  refine congruence.bind ?_ fun _ => congruence.pure _
  cases flow with
  | normal status => exact congruence.update (.lastStatus status)
  | raise signal => exact congruence.pure ()

end Requests

/-- Answers to one request are related if the answers below are. -/
theorem answer
    {below otherBelow : Evaluator}
    (belowRelated : Evaluator.Related related paired below otherBelow) :
    Evaluator.Related related paired (ShellCore.answer below) (ShellCore.answer otherBelow) := by
  intro α env otherEnv pair request
  cases request with
  | word word => exact congruence.word belowRelated pair word
  | arith expr => exact congruence.arithmetic belowRelated pair expr
  | test test => exact congruence.test belowRelated pair test
  | expr expr => exact congruence.expression belowRelated pair expr
  | command command => exact congruence.command belowRelated pair command
  | loop statement status => exact congruence.loop belowRelated pair statement status

/-- Evaluations with the same fuel are related if running out of fuel is. -/
theorem evaluator
    (outOfFuel : ∀ {α : Type}, related (Eval.outOfFuel : Eval α) Eval.outOfFuel)
    (fuel : Nat) :
    Evaluator.Related related paired (ShellCore.evaluator fuel) (ShellCore.evaluator fuel) := by
  induction fuel with
  | zero => exact fun _ _ => outOfFuel
  | succ fuel inductionHypothesis => exact congruence.answer inductionHypothesis

end Congruence

end ShellCore
