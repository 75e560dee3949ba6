import ShellCore.Evaluation.Answer

namespace ShellCore

/-!
# Executions

A request is answered by a run of the evaluator that does not run out of fuel. How
much fuel it takes is of no concern. An execution is the answer to a command.
-/

/-- A request, evaluated from a machine, ends with a result and leaves a machine behind. -/
def Answers
    (env : Env)
    (request : Request α)
    (before : Machine)
    (result : Except RuntimeError α)
    (after : Machine) :
    Prop :=
  ∃ fuel, (evaluator fuel α env request).run before = some (result, after)

/-- A command, executed from a machine, ends with a result and leaves a machine behind. -/
def Executes
    (env : Env)
    (command : Command)
    (before : Machine)
    (result : Except RuntimeError ControlFlow)
    (after : Machine) :
    Prop :=
  ∃ fuel,
    (Evaluator.command (evaluator fuel) env command).run before = some (result, after)

/-- The environment of a connected set without callables, which its host calls back. -/
def Env.connected : Env where
  setup :=
    { connections := Connection.all
      ps4 := "+ "
      callables := .empty }
  callback := .own

/-- A machine over a new host, on which nothing has run. -/
def Machine.fresh : Machine :=
  .ofSession .initial (.memory .initial) .initial

end ShellCore
