import ShellCore.Evaluation.Control
import ShellCore.Evaluation.Function
import ShellCore.Evaluation.Guard
import ShellCore.Evaluation.Substitution

namespace ShellCore.Commands

/-!
# Commands

What a command holds of the host is held by guards: the process substitutions of
its words are waited for, its redirections undone and its output flushed
however it ends. A command that ends with a status leaves it as the last status.
-/

/-- The status of a command whose redirections do not hold. -/
def redirectFailed : Int32 :=
  1

/-- Execute inside a process substitution frame, and keep the statuses of the frame. -/
def withProcessSubs
    (env : Env)
    (evaluation : Eval ControlFlow) :
    Eval ControlFlow := do
  Eval.require env .commandToHost
  Eval.ofRun do
    let (statuses, result) ← Guard.withProcessSubs evaluation.run
    modify fun machine => machine.mapScope fun scope =>
      { scope with processSubStatus := statuses }
    return result

/-- Execute a command that has a name. -/
def runNamed
    (below : Evaluator)
    (env : Env)
    (name : String)
    (argv : List String) :
    Eval Int32 := do
  if name = "builtin" then
    match argv.drop 1 with
    | [] => return 0
    | builtin :: args =>
        Eval.ofRun (Guard.withFlush (Host.runBuiltin builtin (builtin :: args)).run)
  else
    match (← Eval.scope).function? name with
    | some function => function.callProc below env argv
    | none => Host.runSimple argv

/-- Execute a simple command; one without words does nothing. -/
def runSimple
    (below : Evaluator)
    (env : Env)
    (words : List Word) :
    Eval ControlFlow := do
  Eval.require env .commandToWord
  let argv ← Eval.each (below.word env) words
  match argv with
  | [] => return .ok
  | name :: _ =>
      Eval.require env .commandToTracer
      Trace.onCommand env argv
      return .normal (← runNamed below env name argv)

/-- Execute an assignment. -/
def assign
    (below : Evaluator)
    (env : Env)
    (name : String)
    (value : Word)
    (isLocal : Bool) :
    Eval ControlFlow := do
  Eval.require env .commandToWord
  let text ← below.word env value
  Eval.mapScope fun scope =>
    if isLocal then scope.set name (.str text) else scope.setGlobal name (.str text)
  return .ok

/-- Execute a pipeline, and keep the statuses of its stages. -/
def runPipeline
    (below : Evaluator)
    (env : Env)
    (stages : List Command)
    (negated : Bool) :
    Eval ControlFlow := do
  Eval.require env .commandToHost
  let statuses ← Host.runPipeline below env stages negated
  Eval.mapScope fun scope => { scope with pipeStatus := statuses.stages }
  return .normal statuses.status

/-- Evaluate the target of a redirection. -/
def evaluateRedirect
    (below : Evaluator)
    (env : Env)
    (redirect : Redirect) :
    Eval Redirection := do
  let target ← below.word env redirect.target
  return ⟨redirect.fd, redirect.op, target, redirect.span⟩

/-- Execute a command under redirections. -/
def runRedirected
    (below : Evaluator)
    (env : Env)
    (body : Command)
    (redirects : List Redirect) :
    Eval ControlFlow := do
  Eval.require env .commandToWord
  let redirections ← Eval.each (evaluateRedirect below env) redirects
  Eval.ofRun do
    match ← Guard.withRedirects redirections (below.command env body).run with
    | some result => return result
    | none => return .ok (.normal redirectFailed)

/-- Evaluate a condition: zero if it holds, or the flow of its command. -/
def condition
    (below : Evaluator)
    (env : Env) :
    Condition →
    Eval ControlFlow
  | .test test => do
      Eval.require env .commandToTest
      let holds ← below.test env test
      return .normal (if holds then 0 else 1)
  | .run command => below.command env command

/-- Execute the body of the first arm whose condition holds. -/
def runArms
    (below : Evaluator)
    (env : Env)
    (otherwise : Option (List Command)) :
    List BranchArm →
    Eval ControlFlow
  | [] =>
      match otherwise with
      | some body => CommandList.execute below env body
      | none => pure .ok
  | arm :: rest => do
      match ← condition below env arm.condition with
      | .normal status =>
          if status = 0 then
            CommandList.execute below env arm.body
          else
            runArms below env otherwise rest
      | .raise signal => return .raise signal

/-- Execute a body once for each item, after a round with the given status. -/
def runItems
    (below : Evaluator)
    (env : Env)
    (name : String)
    (body : List Command)
    (status : Int32) :
    List String →
    Eval ControlFlow
  | [] => pure (.normal status)
  | item :: rest => do
      Eval.mapScope fun scope => scope.setGlobal name (.str item)
      match LoopStep.ofFlow (← CommandList.execute below env body) with
      | .next status => runItems below env name body status rest
      | .exit status => return .normal status
      | .raise signal => return .raise signal

/-- Execute a loop over items. -/
def runForEach
    (below : Evaluator)
    (env : Env)
    (name : String)
    (items : List Word)
    (body : List Command) :
    Eval ControlFlow := do
  Eval.require env .commandToWord
  let items ← Eval.each (below.word env) items
  runItems below env name body 0 items

/-- Execute a round of a loop, after a round with the given status, and the rounds behind it. -/
def runLoop
    (below : Evaluator)
    (env : Env)
    (statement : LoopStatement)
    (status : Int32) :
    Eval ControlFlow := do
  match ← condition below env statement.condition with
  | .normal code =>
      if decide (code = 0) = statement.untilHolds then
        return .normal status
      else
        match LoopStep.ofFlow (← CommandList.execute below env statement.body) with
        | .next status => below.loop env statement status
        | .exit status => return .normal status
        | .raise signal => return .raise signal
  | .raise signal =>
      match LoopStep.ofFlow (.raise signal) with
      | .next _ => below.loop env statement status
      | .exit status => return .normal status
      | .raise signal => return .raise signal

/-- Execute a command, without leaving its status behind. -/
def run
    (below : Evaluator)
    (env : Env) :
    Command →
    Eval ControlFlow
  | .simple words _ => withProcessSubs env (runSimple below env words)
  | .assign name value isLocal => assign below env name value isLocal
  | .sequence commands => CommandList.execute below env commands
  | .andThen left right => do
      match ← below.command env left with
      | .normal status =>
          if status = 0 then below.command env right else return .normal status
      | .raise signal => return .raise signal
  | .orElse left right => do
      match ← below.command env left with
      | .normal status =>
          if status = 0 then return .normal status else below.command env right
      | .raise signal => return .raise signal
  | .pipeline stages negated => runPipeline below env stages negated
  | .subshell body => do
      Eval.require env .commandToHost
      return .normal (← Host.runSubshell below env body)
  | .background body => do
      Eval.require env .commandToHost
      return .normal (← Host.runBackground below env body)
  | .branch arms otherwise => runArms below env otherwise arms
  | .forEach name items body => withProcessSubs env (runForEach below env name items body)
  | .loop statement => below.loop env statement 0
  | .define function => do
      Eval.mapScope fun scope => scope.define function
      return .ok
  | .control keyword argument token => Control.execute below env keyword argument token
  | .redirected body redirects =>
      withProcessSubs env (runRedirected below env body redirects)

/-- Leave the status of a command behind, unless it raised a signal. -/
def keepStatus
    (flow : ControlFlow) :
    Eval Unit :=
  match flow with
  | .normal status => Eval.mapScope fun scope => { scope with lastStatus := status }
  | .raise _ => pure ()

/-- Execute a command. -/
def execute
    (below : Evaluator)
    (env : Env)
    (command : Command) :
    Eval ControlFlow := do
  let flow ← run below env command
  keepStatus flow
  return flow

end ShellCore.Commands
