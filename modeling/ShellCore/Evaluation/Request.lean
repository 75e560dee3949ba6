import ShellCore.Evaluation.Machine

namespace ShellCore

/-!
# Requests

The evaluators call each other by requests: what is to be evaluated, with the
type of its answer. Each evaluator is defined over an evaluator below it that
answers its requests, so none of them recurs; the knot is tied by fuel.
-/

/-- Something to evaluate, by the type of its answer. -/
inductive Request : Type → Type where
  | word (word : Word) : Request String
  | arith (expr : ArithExpr) : Request Int64
  | test (test : BoolExpr) : Request Bool
  | expr (expr : Expr) : Request Value
  | command (command : Command) : Request ControlFlow
  /-- The rounds of a loop that are left, after a round with the given status. -/
  | loop (statement : LoopStatement) (status : Int32) : Request ControlFlow

/-- What answers requests. -/
def Evaluator :=
  (α : Type) → Env → Request α → Eval α

namespace Evaluator

/-- The text of a word. -/
def word
    (below : Evaluator)
    (env : Env)
    (word : Word) :
    Eval String :=
  below String env (.word word)

/-- The value of an arithmetic expression. -/
def arith
    (below : Evaluator)
    (env : Env)
    (expr : ArithExpr) :
    Eval Int64 :=
  below Int64 env (.arith expr)

/-- Whether a test holds. -/
def test
    (below : Evaluator)
    (env : Env)
    (test : BoolExpr) :
    Eval Bool :=
  below Bool env (.test test)

/-- The value of an expression. -/
def expr
    (below : Evaluator)
    (env : Env)
    (expr : Expr) :
    Eval Value :=
  below Value env (.expr expr)

/-- Execute a command. -/
def command
    (below : Evaluator)
    (env : Env)
    (command : Command) :
    Eval ControlFlow :=
  below ControlFlow env (.command command)

/-- Go on with a loop. -/
def loop
    (below : Evaluator)
    (env : Env)
    (statement : LoopStatement)
    (status : Int32) :
    Eval ControlFlow :=
  below ControlFlow env (.loop statement status)

end Evaluator

end ShellCore
