import ShellCore.Evaluation.Function
import ShellCore.Evaluation.Prompt
import ShellCore.Evaluation.Substitution

namespace ShellCore.Expression

/-!
# Typed expressions

A call finds a callable of its name first, then a typed function.
-/

/-- Whether an expression can call a name. -/
def hasFunction
    (env : Env)
    (scope : Scope)
    (name : String) :
    Bool :=
  env.setup.callables.contains name ||
    match scope.function? name with
    | some function => function.typed
    | none => false

/-- Call what a name stands for. -/
def callNamed
    (below : Evaluator)
    (env : Env)
    (name : String)
    (args : List Value)
    (span : SpanId) :
    Eval Value := do
  match env.setup.callables.get? name with
  | some callable => Eval.ofExcept id (callable args)
  | none =>
      match (← Eval.scope).function? name with
      | some function =>
          if function.typed then
            Function.callTyped below env function args
          else
            throw (.type (.procAsTypedFunction name))
      | none => throw (.undefinedFunction name span)

/-- The value of an expression. -/
def evaluate
    (below : Evaluator)
    (env : Env) :
    Expr →
    Eval Value
  | .literal value => pure value
  | .word word => do
      Eval.require env .exprToWord
      let text ← below.word env word
      return .str text
  | .arith expr => do
      Eval.require env .exprToArith
      let value ← below.arith env expr
      return .int value
  | .list items => do
      let values ← Eval.each (below.expr env) items
      return .list values
  | .commandSub body => do
      Eval.require env .exprToHost
      let output ← Host.runCommandSub below env body
      return .str (stripNewlines output)
  | .call name args span => do
      let args ← Eval.each (below.expr env) args
      callNamed below env name args span

/-- The primary prompt: what the hook makes, if there is one, else the expanded template. -/
def renderPrompt
    (below : Evaluator)
    (env : Env) :
    Eval String := do
  Eval.require env .promptToExpr
  let scope ← Eval.scope
  if hasFunction env scope Prompt.renderHook then
    match ← callNamed below env Prompt.renderHook [] .none with
    | .str text => return text
    | other => throw (.type (.promptNotText other.typeName))
  else
    Prompt.expand env (((scope.get? "PS1").map Value.display).getD Prompt.defaultTemplate)

end ShellCore.Expression
