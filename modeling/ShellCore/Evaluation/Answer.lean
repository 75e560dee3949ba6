import ShellCore.Evaluation.Arithmetic
import ShellCore.Evaluation.Command
import ShellCore.Evaluation.Expression
import ShellCore.Evaluation.Test
import ShellCore.Evaluation.Word

namespace ShellCore

/-!
# Answering requests

One step answers a request by the evaluator of its kind, over what answers the
requests that this one makes. As many steps may stand on each other as there is
fuel; a request that needs more has no answer.
-/

/-- Answer a request, over an evaluator that answers what it asks for. -/
def answer
    (below : Evaluator) :
    Evaluator :=
  fun _ env request =>
    match request with
    | .word word => Words.evaluate below env word
    | .arith expr => Arithmetic.evaluate below env expr
    | .test test => Test.evaluate below env test
    | .expr expr => Expression.evaluate below env expr
    | .command command => Commands.execute below env command
    | .loop statement status => Commands.runLoop below env statement status

/-- The evaluator that stacks at most as many steps as there is fuel. -/
def evaluator
    (fuel : Nat)
    (α : Type)
    (env : Env)
    (request : Request α) :
    Eval α :=
  match fuel with
  | 0 => Eval.outOfFuel
  | fuel + 1 => answer (evaluator fuel) α env request

@[simp] theorem evaluator_zero
    (env : Env)
    (request : Request α) :
    evaluator 0 α env request = Eval.outOfFuel :=
  rfl

@[simp] theorem evaluator_succ
    (fuel : Nat) :
    evaluator (fuel + 1) = answer (evaluator fuel) :=
  rfl

end ShellCore
