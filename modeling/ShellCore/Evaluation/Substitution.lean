import ShellCore.Evaluation.Request

namespace ShellCore

/-!
# Commands run by the host

A host runs some commands by calling back the command evaluator of the set that
it was wired to. Such a command runs isolated: the scope is what it was before
as soon as the command ends, and a signal ends the command only.
-/

namespace Isolation

/-- Run an evaluation and put the scope back, however it ended. -/
def keepingScope
    (evaluation : Eval α) :
    Eval α :=
  Eval.ofRun do
    let machine ← get
    let result ← evaluation.run
    modify fun after => after.mapScope fun _ => machine.scope
    return result

/-- The status of an isolated command: that of a return with a status, else zero for a signal. -/
def statusOfFlow :
    ControlFlow →
    Int32
  | .normal status => status
  | .raise signal =>
      match signal.statusCode? with
      | some code => Int32.ofNat code.toNat
      | none => 0

/-- Execute a command as in a subshell. -/
def execute
    (below : Evaluator)
    (env : Env)
    (command : Command) :
    Eval Int32 := do
  let flow ← keepingScope (below.command env command)
  return statusOfFlow flow

end Isolation

namespace Host

/-- Run an evaluation in the peer, and come back however it ended. -/
def inPeer
    (evaluation : Eval α) :
    Eval α :=
  Eval.ofRun do
    modify Machine.swap
    let result ← evaluation.run
    modify Machine.swap
    return result

/-- Evaluate something in the set that the host calls back. -/
def callBack
    (env : Env)
    (evaluation : Env → Eval α) :
    Eval α :=
  match env.callback with
  | .missing => throw (.wiring (.missing MemoryHost.callbackName))
  | .dropped => throw (.wiring (.dangling MemoryHost.callbackName))
  | .own => evaluation env
  | .peer setup => inPeer (evaluation ⟨setup, .own⟩)

/-- Check that the host finds the set that it calls back, at any point of a computation. -/
def checkCallback
    (env : Env) :
    Run (Except WiringError Unit) := do
  return (← get).host.check fun set => if env.callback.isAlive then some set else none

/-- Record a call and go on, unless the host is inert. -/
def recorded
    (call : HostCall)
    (inertAnswer : α)
    (evaluation : Eval α) :
    Eval α := do
  match (← get).host with
  | .inert => return inertAnswer
  | .memory _ =>
      Eval.onHost () fun host => (.ok (), host.record call)
      evaluation

/-- Run a command by its name and arguments. -/
def runSimple
    (argv : List String) :
    Eval Int32 :=
  Eval.onHost 0 fun host => host.runSimple argv

/-- Run a command that must be a builtin. -/
def runBuiltin
    (name : String)
    (argv : List String) :
    Eval Int32 :=
  Eval.onHost 0 fun host => host.runBuiltin name argv

/-- Run a job, which ends before its launch returns. -/
def runBackground
    (below : Evaluator)
    (env : Env)
    (body : Command) :
    Eval Int32 :=
  recorded (.background body.kindName) 0 do
    let _ ← callBack env fun env => Isolation.execute below env body
    return 0

/-- Run the stages of a pipeline one after the other. -/
def runPipeline
    (below : Evaluator)
    (env : Env)
    (stages : List Command)
    (negated : Bool) :
    Eval CommandStatus :=
  recorded (.pipeline stages.length) ⟨stages.map fun _ => 0, negated⟩ do
    let codes ← callBack env fun env => Eval.each (Isolation.execute below env) stages
    return ⟨codes, negated⟩

/-- Run a subshell. -/
def runSubshell
    (below : Evaluator)
    (env : Env)
    (body : Command) :
    Eval Int32 :=
  recorded .subshell 0 (callBack env fun env => Isolation.execute below env body)

/-- Run an evaluation inside a capture, and yield what it wrote. -/
def withCapture
    (evaluation : Eval α) :
    Eval (α × String) :=
  Eval.ofRun do
    let bound ← Run.onHost none fun host => host.beginCapture
    let result ← evaluation.run
    let output ← Run.onHost "" fun host => host.endCapture bound
    return result.map fun answer => (answer, output)

/-- Run a command isolated inside a capture. -/
def capture
    (below : Evaluator)
    (env : Env)
    (body : Command) :
    Eval (Int32 × String) :=
  callBack env fun env => withCapture (Isolation.execute below env body)

/-- Run a command and yield what it wrote. -/
def runCommandSub
    (below : Evaluator)
    (env : Env)
    (body : Command) :
    Eval String :=
  recorded .commandSub "" do
    let (_, output) ← capture below env body
    return output

/-- Run a command and yield the path of a file that holds what it wrote. -/
def runProcessSub
    (below : Evaluator)
    (env : Env)
    (body : Command)
    (span : SpanId) :
    Eval String :=
  recorded .processSub "/dev/null" do
    let (status, output) ← capture below env body
    Eval.onHost "" fun host => host.finishProcessSub status output span

end Host

/-- The output of a substituted command, without the newlines at its end. -/
def stripNewlines
    (text : String) :
    String :=
  String.ofList (text.toList.reverse.dropWhile (· = '\n')).reverse

end ShellCore
