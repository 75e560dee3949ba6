import ShellCore.Proofs.Evaluation.Task

namespace ShellCore

/-!
# The first round of a loop

A loop that runs its body a first time ends as it does from there: the body ends
somehow, the loop goes on from that or does not, and a loop over items closes the
process substitution frame that its words were evaluated in.
-/

/-- Inside a process substitution frame a task ends as it does by itself. -/
theorem Task.ends_withProcessSubs_iff
    {env : Env}
    {task : Task ControlFlow}
    {before after : Machine}
    {result : Except RuntimeError ControlFlow}
    (connected : .commandToHost ∈ env.setup.connections) :
    Ends (fun below => Commands.withProcessSubs env (task below)) before result after ↔
      ∃ closed, task.Ends before.pushFrame result closed ∧ after = closed.popFrame := by
  simp only [Ends, Commands.run_withProcessSubs connected, Option.map_eq_some_iff]
  constructor
  · rintro ⟨fuel, ⟨_, closed⟩, finished, same⟩
    cases same
    exact ⟨closed, ⟨fuel, finished⟩, rfl⟩
  · rintro ⟨closed, ⟨fuel, finished⟩, rfl⟩
    exact ⟨fuel, (result, closed), finished, rfl⟩

/-- A loop that runs its body a first time, whatever the body is. -/
inductive OpenLoop where
  /-- A loop over the items of some words, with those that are left after the first. -/
  | items (name : String) (words : List Word) (left : List String)
  /-- A loop under a condition. -/
  | rounds (condition : Condition) (untilHolds : Bool)

namespace OpenLoop

/-- The loop with its body. -/
def withBody
    (body : List Command) :
    OpenLoop →
    Command
  | .items name words _ => .forEach name words body
  | .rounds condition untilHolds => .loop ⟨condition, body, untilHolds⟩

/--
The loop, executed from a machine, comes to its body and leaves a machine for it:
there is a first item, or the condition lets the body run.
-/
inductive Enters
    (env : Env) :
    OpenLoop → Machine → Machine → Prop where
  | items {name : String} {words : List Word} {first : String} {left : List String}
      {before evaluated : Machine} :
      .commandToHost ∈ env.setup.connections →
      .commandToWord ∈ env.setup.connections →
      Task.Ends (fun below => Eval.each (below.word env) words) before.pushFrame
        (.ok (first :: left)) evaluated →
      Enters env (.items name words left) before
        (evaluated.mapScope fun scope => scope.setGlobal name (.str first))
  | rounds {condition : Condition} {untilHolds : Bool} {code : Int32}
      {before start : Machine} :
      Task.Ends (fun below => Commands.condition below env condition) before
        (.ok (.normal code)) start →
      decide (code = 0) ≠ untilHolds →
      Enters env (.rounds condition untilHolds) before start

/-- Go on after a round with the given status: with the next item, or with the condition. -/
def goOn
    (env : Env)
    (body : List Command)
    (status : Int32) :
    OpenLoop →
    Task ControlFlow
  | .items name _ left => fun below => Commands.runItems below env name body status left
  | .rounds condition untilHolds =>
      fun below => below.loop env ⟨condition, body, untilHolds⟩ status

/-- Do what the first round of the body asks for. -/
def afterRound
    (env : Env)
    (loop : OpenLoop)
    (body : List Command)
    (flow : ControlFlow) :
    Task ControlFlow :=
  match LoopStep.ofFlow flow with
  | .next status => loop.goOn env body status
  | .exit status => fun _ => pure (.normal status)
  | .raise signal => fun _ => pure (.raise signal)

/-- The machine after the loop ended. -/
def leave :
    OpenLoop →
    Machine →
    Machine
  | .items _ _ _ => Machine.popFrame
  | .rounds _ _ => id

variable {env : Env} {loop : OpenLoop} {body : List Command}

theorem goOn_stable
    (status : Int32) :
    (loop.goOn env body status).Stable := by
  cases loop with
  | items name words left => exact .runItems env name body status left
  | rounds condition untilHolds => exact .request env (.loop ⟨condition, body, untilHolds⟩ status)

theorem afterRound_stable
    (flow : ControlFlow) :
    (loop.afterRound env body flow).Stable := by
  unfold afterRound
  split
  · exact goOn_stable _
  · exact .const _
  · exact .const _

/-- Run the body, and do what it asks for. -/
def round
    (env : Env)
    (loop : OpenLoop)
    (body : List Command) :
    Task ControlFlow :=
  fun below =>
    CommandList.execute below env body >>= fun flow => loop.afterRound env body flow below

/-- Do what the first condition of a loop asks for. -/
def afterCondition
    (env : Env)
    (condition : Condition)
    (body : List Command)
    (untilHolds : Bool) :
    ControlFlow →
    Task ControlFlow
  | .normal code =>
      if decide (code = 0) = untilHolds then
        fun _ => pure (.normal 0)
      else
        (rounds condition untilHolds).round env body
  | .raise signal => (rounds condition untilHolds).afterRound env body (.raise signal)

theorem round_stable :
    (loop.round env body).Stable :=
  .bind (.executeFrom env .ok body) afterRound_stable

theorem afterCondition_stable
    {condition : Condition}
    {untilHolds : Bool}
    (flow : ControlFlow) :
    (afterCondition env condition body untilHolds flow).Stable := by
  cases flow with
  | normal code =>
      simp only [afterCondition]
      by_cases ends : decide (code = 0) = untilHolds
      · rw [if_pos ends]
        exact .const _
      · rw [if_neg ends]
        exact round_stable
  | raise signal => exact afterRound_stable _

/-- A loop over items that are not at their end runs a round. -/
theorem runItems_cons
    (below : Evaluator)
    (name : String)
    (words : List Word)
    (status : Int32)
    (item : String)
    (left : List String) :
    Commands.runItems below env name body status (item :: left) =
      (Eval.mapScope fun scope => scope.setGlobal name (.str item)) >>= fun _ =>
        (items name words left).round env body below := by
  refine bind_congr fun _ => bind_congr fun flow => ?_
  unfold afterRound
  cases LoopStep.ofFlow flow with
  | next status => rfl
  | exit status => rfl
  | raise signal => rfl

/-- A loop under a condition evaluates that and does what it asks for. -/
theorem runLoop_zero
    (below : Evaluator)
    (condition : Condition)
    (untilHolds : Bool) :
    Commands.runLoop below env ⟨condition, body, untilHolds⟩ 0 =
      Commands.condition below env condition >>= fun flow =>
        afterCondition env condition body untilHolds flow below := by
  refine bind_congr fun flow => ?_
  cases flow with
  | normal code =>
      unfold afterCondition
      dsimp only
      split
      · rfl
      · refine bind_congr fun flow => ?_
        unfold afterRound
        cases LoopStep.ofFlow flow with
        | next status => rfl
        | exit status => rfl
        | raise signal => rfl
  | raise signal =>
      unfold afterCondition afterRound LoopStep.ofFlow
      dsimp only
      rcases signal.throughLoop with ⟨_ | _ | _, passed⟩
      · rfl
      · rfl
      · rfl

variable {before start between after : Machine}
variable {result : Except RuntimeError ControlFlow}

/-- A round ends as the body does, and with what the loop does then. -/
theorem ends_round_iff :
    (loop.round env body).Ends start result after ↔
      ∃ ended landed,
        ExecutesFrom env .ok body start ended landed ∧
          (Task.resume (loop.afterRound env body) ended).Ends landed result after :=
  Task.ends_bind_iff (.executeFrom env .ok body) afterRound_stable

/-- A loop over items that has a first one runs a round with it. -/
theorem ends_items_iff
    {name : String}
    {words : List Word}
    {first : String}
    {left : List String}
    {evaluated : Machine}
    (connected : .commandToWord ∈ env.setup.connections)
    (ends :
      Task.Ends (fun below => Eval.each (below.word env) words) before
        (.ok (first :: left)) evaluated) :
    Task.Ends (fun below => Commands.runForEach below env name words body) before result after ↔
      ((items name words left).round env body).Ends
        (evaluated.mapScope fun scope => scope.setGlobal name (.str first)) result after := by
  have isBind :
      (fun below => Commands.runForEach below env name words body) =
        fun below =>
          Eval.each (below.word env) words >>= fun items =>
            Commands.runItems below env name body 0 items := by
    funext below
    unfold Commands.runForEach Eval.require
    rw [if_pos connected, pure_bind]
  have wordsStable : Task.Stable fun below => Eval.each (below.word env) words :=
    .each (fun word => .request env (.word word)) words
  rw [isBind,
    Task.ends_bind_of_ends wordsStable (fun items => .runItems env name body 0 items) ends]
  simp only [Task.resume, runItems_cons _ name words]
  rfl

/-- A loop whose condition lets the body run runs a round. -/
theorem ends_rounds_iff
    {condition : Condition}
    {untilHolds : Bool}
    {code : Int32}
    (ends :
      Task.Ends (fun below => Commands.condition below env condition) before
        (.ok (.normal code)) start)
    (runs : decide (code = 0) ≠ untilHolds) :
    Task.Ends (fun below => below.loop env ⟨condition, body, untilHolds⟩ 0) before result after ↔
      ((rounds condition untilHolds).round env body).Ends start result after := by
  simp only [Task.ends_loop_iff, runLoop_zero]
  rw [Task.ends_bind_of_ends (.condition env condition) afterCondition_stable ends]
  simp only [Task.resume, afterCondition, if_neg runs]

/-- A loop that comes to its body ends as the round does, but for its process substitutions. -/
theorem Enters.executes_iff
    (enters : Enters env loop before start) :
    Executes env (loop.withBody body) before result after ↔
      ∃ closed,
        (loop.round env body).Ends start result closed ∧
          after = (loop.leave closed).keepStatus result := by
  rw [ShellCore.executes_iff]
  cases enters with
  | items toHost toWord ends =>
      simp only [withBody, Commands.run, Task.ends_withProcessSubs_iff toHost,
        ends_items_iff toWord ends]
      constructor
      · rintro ⟨_, ⟨closed, ended, rfl⟩, rfl⟩
        exact ⟨closed, ended, rfl⟩
      · rintro ⟨closed, ended, rfl⟩
        exact ⟨_, ⟨closed, ended, rfl⟩, rfl⟩
  | rounds ends runs =>
      simp only [withBody, Commands.run, ends_rounds_iff ends runs]
      rfl

end OpenLoop

end ShellCore
