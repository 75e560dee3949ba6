import ShellCore.Evaluation.Request

namespace ShellCore

/-!
# Lists of commands and function calls

A list runs up to the first signal. A function body is a list in a frame of its
own; the frame is left and the caller's parameters are back however it ends.
-/

namespace CommandList

/-- Execute commands in order after a flow, up to the first signal. -/
def executeFrom
    (below : Evaluator)
    (env : Env)
    (flow : ControlFlow) :
    List Command →
    Eval ControlFlow
  | [] => pure flow
  | command :: rest => do
      match ← below.command env command with
      | .normal status => executeFrom below env (.normal status) rest
      | .raise signal => return .raise signal

/-- Execute commands in order, up to the first signal. -/
def execute
    (below : Evaluator)
    (env : Env)
    (commands : List Command) :
    Eval ControlFlow :=
  executeFrom below env .ok commands

end CommandList

namespace Function

/-- Run a function's body in a frame of its own. -/
def runFrame
    (below : Evaluator)
    (env : Env)
    (function : Function)
    (args : List Value) :
    Eval ControlFlow :=
  Eval.ofRun do
    let machine ← get
    modify fun machine => machine.mapScope fun scope => scope.enterCall function args
    let result ← (CommandList.execute below env function.body).run
    modify fun after => after.mapScope fun scope => scope.leaveCall machine.scope
    return result

/-- The status of a procedure whose body ended so. -/
def procStatus
    (function : Function) :
    ControlFlow →
    Except RuntimeError Int32
  | .normal status => .ok status
  | .raise ⟨.returnCall (.status code), _⟩ => .ok (Int32.ofNat code.toNat)
  | .raise ⟨.returnCall (.value _), token⟩ => .error (.typedReturnInProc function.name token)
  | .raise signal => .error (.unmatchedControl signal.keyword signal.token)

/-- The value of a typed function whose body ended so. -/
def typedValue :
    ControlFlow →
    Except RuntimeError Value
  | .normal _ => .ok .null
  | .raise ⟨.returnCall (.value value), _⟩ => .ok value
  | .raise ⟨.returnCall (.status code), _⟩ => .ok (.int (Int64.ofNat code.toNat))
  | .raise signal => .error (.unmatchedControl signal.keyword signal.token)

/-- Call a procedure with its name and arguments. -/
def callProc
    (below : Evaluator)
    (env : Env)
    (function : Function)
    (argv : List String) :
    Eval Int32 := do
  if function.typed then
    throw (.type (.typedFunctionAsProc function.name))
  else
    let flow ← runFrame below env function ((argv.drop 1).map .str)
    Eval.ofExcept id (procStatus function flow)

/-- Call a typed function. -/
def callTyped
    (below : Evaluator)
    (env : Env)
    (function : Function)
    (args : List Value) :
    Eval Value := do
  Eval.require env .exprToCommand
  let flow ← runFrame below env function args
  Eval.ofExcept id (typedValue flow)

end Function

end ShellCore
