import ShellCore.Proofs.Evaluation.Discipline
import ShellCore.Proofs.Evaluation.Fuel

namespace ShellCore

/-!
# Evaluations whatever the fuel

A task is an evaluation over an evaluator that is still to be chosen. What it ends
with is what it ends with once there is enough fuel. The end of a task is told by
the ends of its parts, each of which may take fuel of its own.
-/

/-- An evaluation over an evaluator that answers its requests. -/
abbrev Task (α : Type) := Evaluator → Eval α

namespace Task

/-- With enough fuel the task ends with a result and leaves a machine behind. -/
def Ends
    (task : Task α)
    (before : Machine)
    (result : Except RuntimeError α)
    (after : Machine) :
    Prop :=
  ∃ fuel, (task (evaluator fuel)).run before = some (result, after)

/-- Where the task ends with some fuel, it ends alike with more. -/
def Stable
    (task : Task α) :
    Prop :=
  ∀ less more : Nat, less ≤ more → (task (evaluator less)).RefinedBy (task (evaluator more))

/-- Go on from a result: from an answer with another task, from an error not at all. -/
def resume
    (next : α → Task β) :
    Except RuntimeError α →
    Task β
  | .ok answer => next answer
  | .error error => fun _ => throw error

namespace Stable

/-- The evaluators with less and more fuel agree on what both can answer. -/
theorem evaluators
    {less more : Nat}
    (atMost : less ≤ more) :
    Evaluator.Related Eval.RefinedBy Eq (evaluator less) (evaluator more) := by
  intro α env other same request
  subst same
  exact evaluator_refinedBy atMost env request

theorem request
    (env : Env)
    (request : Request α) :
    Stable fun below => below α env request :=
  fun _ _ atMost => evaluator_refinedBy atMost env request

theorem const
    (evaluation : Eval α) :
    Stable fun _ => evaluation :=
  fun _ _ _ => .refl evaluation

theorem each
    {evaluate : α → Task β}
    (stable : ∀ item, Stable (evaluate item))
    (items : List α) :
    Stable fun below => Eval.each (fun item => evaluate item below) items :=
  fun less more atMost =>
    Eval.RefinedBy.congruence.each (fun item => stable item less more atMost) items

theorem condition
    (env : Env)
    (condition : Condition) :
    Stable fun below => Commands.condition below env condition :=
  fun _ _ atMost => Eval.RefinedBy.congruence.condition (evaluators atMost) rfl condition

theorem executeFrom
    (env : Env)
    (flow : ControlFlow)
    (commands : List Command) :
    Stable fun below => CommandList.executeFrom below env flow commands :=
  fun _ _ atMost => Eval.RefinedBy.congruence.executeFrom (evaluators atMost) rfl flow commands

theorem runItems
    (env : Env)
    (name : String)
    (body : List Command)
    (status : Int32)
    (items : List String) :
    Stable fun below => Commands.runItems below env name body status items :=
  fun _ _ atMost => Eval.RefinedBy.congruence.items (evaluators atMost) rfl name body status items

theorem bind
    {first : Task α}
    {next : α → Task β}
    (firstStable : first.Stable)
    (nextStable : ∀ answer, (next answer).Stable) :
    Stable fun below => first below >>= fun answer => next answer below :=
  fun less more atMost =>
    (firstStable less more atMost).bind fun answer => nextStable answer less more atMost

theorem resume
    {next : α → Task β}
    (stable : ∀ answer, Stable (next answer))
    (result : Except RuntimeError α) :
    Stable (Task.resume next result) := by
  cases result with
  | ok answer => exact stable answer
  | error error => exact const (throw error)

end Stable

variable {before between after : Machine}

/-- A task has one end. -/
theorem Ends.unique
    {task : Task α}
    {result other : Except RuntimeError α}
    (stable : task.Stable)
    (ends : task.Ends before result between)
    (alsoEnds : task.Ends before other after) :
    other = result ∧ after = between := by
  obtain ⟨fuel, finished⟩ := ends
  obtain ⟨otherFuel, otherFinished⟩ := alsoEnds
  have withMost := stable _ _ (Nat.le_max_left fuel otherFuel) finished
  have otherWithMost := stable _ _ (Nat.le_max_right fuel otherFuel) otherFinished
  rw [withMost] at otherWithMost
  cases otherWithMost
  exact ⟨rfl, rfl⟩

/-- A task that only answers leaves the machine as it was. -/
theorem ends_pure_iff
    {answer : α}
    {result : Except RuntimeError α} :
    Ends (fun _ => pure answer) before result after ↔ result = .ok answer ∧ after = before := by
  constructor
  · rintro ⟨_, finished⟩
    cases finished
    exact ⟨rfl, rfl⟩
  · rintro ⟨rfl, rfl⟩
    exact ⟨0, rfl⟩

/-- One task after the other ends as the first does and what goes on from there. -/
theorem ends_bind_iff
    {first : Task α}
    {next : α → Task β}
    {result : Except RuntimeError β}
    (firstStable : first.Stable)
    (nextStable : ∀ answer, (next answer).Stable) :
    Ends (fun below => first below >>= fun answer => next answer below) before result after ↔
      ∃ reached between,
        first.Ends before reached between ∧ (resume next reached).Ends between result after := by
  constructor
  · rintro ⟨fuel, finished⟩
    rcases Eval.bind_eq_some_iff.mp finished with
      ⟨error, failed, rfl⟩ | ⟨answer, between, started, ended⟩
    · exact ⟨.error error, after, ⟨fuel, failed⟩, ⟨fuel, rfl⟩⟩
    · exact ⟨.ok answer, between, ⟨fuel, started⟩, ⟨fuel, ended⟩⟩
  · rintro ⟨reached, between, ⟨fuel, started⟩, ⟨otherFuel, ended⟩⟩
    have first := firstStable _ _ (Nat.le_max_left fuel otherFuel) started
    have second := Stable.resume nextStable reached _ _ (Nat.le_max_right fuel otherFuel) ended
    refine ⟨max fuel otherFuel, Eval.bind_eq_some_iff.mpr ?_⟩
    cases reached with
    | ok answer => exact .inr ⟨answer, between, first, second⟩
    | error error =>
        cases second
        exact .inl ⟨error, first, rfl⟩

/-- Once it is known how the first task ends, the rest is what goes on from there. -/
theorem ends_bind_of_ends
    {first : Task α}
    {next : α → Task β}
    {reached : Except RuntimeError α}
    {result : Except RuntimeError β}
    (firstStable : first.Stable)
    (nextStable : ∀ answer, (next answer).Stable)
    (ends : first.Ends before reached between) :
    Ends (fun below => first below >>= fun answer => next answer below) before result after ↔
      (resume next reached).Ends between result after := by
  rw [ends_bind_iff firstStable nextStable]
  constructor
  · rintro ⟨other, otherBetween, otherEnds, resumed⟩
    obtain ⟨rfl, rfl⟩ := ends.unique firstStable otherEnds
    exact resumed
  · exact fun resumed => ⟨reached, between, ends, resumed⟩

/-- The rounds of a loop that are left are run with less fuel. -/
theorem ends_loop_iff
    {env : Env}
    {statement : LoopStatement}
    {status : Int32}
    {result : Except RuntimeError ControlFlow} :
    Ends (fun below => below.loop env statement status) before result after ↔
      Ends (fun below => Commands.runLoop below env statement status) before result after := by
  constructor
  · rintro ⟨_ | fuel, finished⟩
    · cases finished
    · exact ⟨fuel, finished⟩
  · rintro ⟨fuel, finished⟩
    exact ⟨fuel + 1, finished⟩

end Task

/-- After a command ended the machine keeps its status, if it has one. -/
def Machine.keepStatus
    (machine : Machine) :
    Except RuntimeError ControlFlow →
    Machine
  | .ok (.normal status) => machine.mapScope fun scope => { scope with lastStatus := status }
  | .ok (.raise _) => machine
  | .error _ => machine

variable {env : Env} {before between after : Machine}
variable {result : Except RuntimeError ControlFlow}

/-- To execute a command is to run it and to keep its status. -/
theorem executes_iff
    {command : Command} :
    Executes env command before result after ↔
      ∃ between,
        Task.Ends (fun below => Commands.run below env command) before result between ∧
          after = between.keepStatus result := by
  constructor
  · rintro ⟨_ | fuel, finished⟩
    · cases finished
    change (Commands.execute (evaluator fuel) env command).run before = _ at finished
    rcases Eval.bind_eq_some_iff.mp finished with
      ⟨error, failed, rfl⟩ | ⟨flow, between, ran, kept⟩
    · exact ⟨after, ⟨fuel, failed⟩, rfl⟩
    · cases flow with
      | normal status =>
          cases kept
          exact ⟨between, ⟨fuel, ran⟩, rfl⟩
      | raise signal =>
          cases kept
          exact ⟨after, ⟨fuel, ran⟩, rfl⟩
  · rintro ⟨between, ⟨fuel, ran⟩, rfl⟩
    refine ⟨fuel + 1, ?_⟩
    change (Commands.execute (evaluator fuel) env command).run before = _
    refine Eval.bind_eq_some_iff.mpr ?_
    cases result with
    | error error => exact .inl ⟨error, ran, rfl⟩
    | ok flow =>
        refine .inr ⟨flow, between, ran, ?_⟩
        cases flow with
        | normal status => rfl
        | raise signal => rfl

/-- Commands, executed in order after a flow, end with a result and leave a machine behind. -/
def ExecutesFrom
    (env : Env)
    (flow : ControlFlow)
    (commands : List Command)
    (before : Machine)
    (result : Except RuntimeError ControlFlow)
    (after : Machine) :
    Prop :=
  Task.Ends (fun below => CommandList.executeFrom below env flow commands) before result after

theorem ExecutesFrom.unique
    {flow : ControlFlow}
    {commands : List Command}
    {other : Except RuntimeError ControlFlow}
    (ends : ExecutesFrom env flow commands before result between)
    (alsoEnds : ExecutesFrom env flow commands before other after) :
    other = result ∧ after = between :=
  Task.Ends.unique (.executeFrom env flow commands) ends alsoEnds

namespace CommandList

/-- What is left of a list after its first command: the rest, unless a signal was raised. -/
def goOn
    (env : Env)
    (rest : List Command) :
    ControlFlow →
    Task ControlFlow
  | .normal status => fun below => executeFrom below env (.normal status) rest
  | .raise signal => fun _ => pure (.raise signal)

theorem goOn_stable
    (env : Env)
    (rest : List Command)
    (flow : ControlFlow) :
    (goOn env rest flow).Stable := by
  cases flow with
  | normal status => exact .executeFrom env (.normal status) rest
  | raise signal => exact .const _

end CommandList

/-- A list ends as its first command does and what is left of it. -/
theorem executesFrom_cons_iff
    {flow : ControlFlow}
    {first : Command}
    {rest : List Command} :
    ExecutesFrom env flow (first :: rest) before result after ↔
      ∃ reached between,
        Executes env first before reached between ∧
          (Task.resume (CommandList.goOn env rest) reached).Ends between result after := by
  have isBind :
      (fun below => CommandList.executeFrom below env flow (first :: rest)) =
        fun below =>
          below.command env first >>= fun flow => CommandList.goOn env rest flow below := by
    funext below
    refine bind_congr fun flow => ?_
    cases flow with
    | normal status => rfl
    | raise signal => rfl
  rw [ExecutesFrom, isBind]
  exact Task.ends_bind_iff (.request env (.command first)) (CommandList.goOn_stable env rest)

end ShellCore
