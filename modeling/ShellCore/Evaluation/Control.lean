import ShellCore.Evaluation.Trace
import ShellCore.Evaluation.Request
import ShellCore.Text.Blank

namespace ShellCore.Control

/-!
# Control statements

A control keyword turns its argument into a signal, which is traced and raised.
-/

/-- The integer that an argument word writes between blanks. -/
def numericArgument
    (below : Evaluator)
    (env : Env)
    (keyword : ControlKeyword)
    (word : Word)
    (token : SpanId) :
    Eval Int64 := do
  Eval.require env .commandToWord
  let text ← below.word env word
  match Text.readInt64? (Text.trim text) with
  | some value => return value
  | none => throw (.numericArgRequired keyword text token)

/-- The signal of a loop keyword; its level must be a positive word of 32 bits. -/
def loopSignal
    (keyword : ControlKeyword)
    (level : Int64)
    (token : SpanId) :
    Except RuntimeError ControlSignal :=
  if 1 ≤ level.toInt ∧ level.toInt < UInt32.size then
    let levels := UInt32.ofNat level.toInt.toNat
    match keyword with
    | .breakLoop => .ok (.breakLoops levels token)
    | _ => .ok (.continueLoops levels token)
  else
    .error (.badLoopLevel keyword level token)

/-- The signal of a control statement. -/
def signal
    (below : Evaluator)
    (env : Env)
    (keyword : ControlKeyword)
    (argument : Option ControlArgument)
    (token : SpanId) :
    Eval ControlSignal := do
  match keyword, argument with
  | .returnCall, some (.value expr) =>
      Eval.require env .commandToExpr
      let value ← below.expr env expr
      return .returnValue value token
  | keyword, some (.value _) => throw (.type (.typedLoopCount keyword))
  | .returnCall, some (.status word) =>
      let status ← numericArgument below env .returnCall word token
      return .returnStatus status token
  | .returnCall, none =>
      return .returnStatus (← Eval.scope).lastStatus.toInt64 token
  | keyword, some (.status word) =>
      let level ← numericArgument below env keyword word token
      Eval.ofExcept id (loopSignal keyword level token)
  | keyword, none => Eval.ofExcept id (loopSignal keyword 1 token)

/-- Raise the signal of a control statement. -/
def execute
    (below : Evaluator)
    (env : Env)
    (keyword : ControlKeyword)
    (argument : Option ControlArgument)
    (token : SpanId) :
    Eval ControlFlow := do
  let raised ← signal below env keyword argument token
  Eval.require env .commandToTracer
  Trace.onSignal env raised
  return .raise raised

end ShellCore.Control
