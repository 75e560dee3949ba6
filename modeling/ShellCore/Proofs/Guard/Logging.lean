import ShellCore.Proofs.Guard.Trail

namespace ShellCore

/-!
# Runs of trees along trails

However a tree is left, its log is closed, and there is a trail through it. Guards are
acquired, refused and released in one step each, so nothing but an action that does
not end keeps a tree from its end.
-/

namespace MemoryHost.Guarded

variable {history : List ProcessSubEvent}
variable {word : List HostCall}
variable {before after : MemoryHost}

/-- Where no guard is held at first and at last, frames are opened and closed in a nested way. -/
theorem nested
    (guarded : Guarded [] [] history word before after) :
    ProcessSubEvent.Nested history :=
  guarded.marked.nested guarded.calls guarded.nests

theorem grown
    (guarded : Guarded [] [] history word before after) :
    before.Grown (ProcessSubEvent.recorded history) after :=
  guarded.marked.grown guarded.nested

theorem frames_ne_nil
    (guarded : Guarded [] [] history word before after)
    (isOpen : before.frames ≠ []) :
    after.frames ≠ [] := by
  rw [guarded.grown.frames]
  intro none
  cases frames : before.frames with
  | nil => exact isOpen frames
  | cons innermost outer => simp [frames] at none

end MemoryHost.Guarded

namespace ScopeGuard

/-- A guard is refused or acquired in one step, and its frame is open then. -/
theorem acquire_cases
    (env : Env)
    (guard : ScopeGuard)
    {before : Machine}
    {host : MemoryHost}
    (inMemory : before.host = .memory host) :
    (∃ refused,
      guard.acquire before = some (false, refused) ∧
        GuardStep env before .refused [] refused) ∨
      ∃ opened next history,
        guard.acquire before = some (true, opened) ∧
          GuardStep env before (.acquired guard.held) history opened ∧
            opened.host = .memory next ∧
              (guard.held = .processSubs → next.frames ≠ []) := by
  rcases before with ⟨scope, trace, _, peer⟩
  cases inMemory
  cases guard with
  | redirects redirections =>
      rcases outcome : host.pushRedirects redirections with ⟨accepted, applied⟩
      have acquired :
          (redirects redirections).acquire ⟨scope, trace, .memory host, peer⟩ =
            some (accepted, ⟨scope, trace, .memory applied, peer⟩) := by
        simp only [acquire, Guard.pushRedirects, Run.onHost, Host.act, outcome]
      cases accepted with
      | false => exact .inl ⟨_, acquired, .refused rfl outcome⟩
      | true => exact .inr ⟨_, applied, [], acquired, .redirected rfl outcome, rfl, by simp [held]⟩
  | processSubs =>
      refine .inr ⟨_, host.pushProcessSub, _, rfl, .opened rfl, rfl, fun _ => ?_⟩
      exact List.cons_ne_nil _ _
  | flush => exact .inr ⟨_, host, _, rfl, .awaited, rfl, by simp [held]⟩

/-- A guard is released in one step, as long as its frame is open. -/
theorem release_step
    (env : Env)
    (guard : ScopeGuard)
    {before : Machine}
    {host : MemoryHost}
    (inMemory : before.host = .memory host)
    (isOpen : guard.held = .processSubs → host.frames ≠ []) :
    ∃ received after history,
      guard.release before = some (received, after) ∧
        GuardStep env before (.released guard.held received) history after := by
  rcases before with ⟨scope, trace, _, peer⟩
  cases inMemory
  cases guard with
  | redirects redirections => exact ⟨_, _, _, rfl, .undone rfl⟩
  | flush => exact ⟨_, _, _, rfl, .flushed rfl⟩
  | processSubs =>
      cases frames : host.frames with
      | nil => exact absurd frames (isOpen rfl)
      | cons entries outer =>
          have collected :
              GuardStep env ⟨scope, trace, .memory host, peer⟩
                (.released .processSubs (.ofList entries)) [.collected entries]
                ⟨scope, trace, .memory host.popProcessSub.2, peer⟩ :=
            .collected rfl frames
          have received : host.popProcessSub.1 = .ofList entries := by
            simp [MemoryHost.popProcessSub, frames]
          rw [← received] at collected
          exact ⟨_, _, _, rfl, collected⟩

/-- A guard is released in one step behind a trail that leaves the guards as they are. -/
theorem release_behind
    {env : Env}
    (guard : ScopeGuard)
    {opened between : Machine}
    {log : List GuardEvent}
    {history : List ProcessSubEvent}
    {host : MemoryHost}
    (inMemory : opened.host = .memory host)
    (isOpen : guard.held = .processSubs → host.frames ≠ [])
    (trail : GuardTrail env opened log history between)
    (closed : GuardEvent.Closed log) :
    ∃ received after closing,
      guard.release between = some (received, after) ∧
        GuardStep env between (.released guard.held received) closing after := by
  obtain ⟨last, _, stillInMemory, guarded⟩ := trail.guarded (closed []) inMemory
  exact guard.release_step env stillInMemory fun held => guarded.frames_ne_nil (isOpen held)

end ScopeGuard

namespace GuardTree

/-- A run keeps a closed log, and there is a trail through it. -/
def Logs
    (env : Env)
    (computation : Run (ScopeExit × List GuardEvent)) :
    Prop :=
  ∀ ⦃before after : Machine⦄ ⦃exit : ScopeExit⦄ ⦃log : List GuardEvent⦄ ⦃host : MemoryHost⦄,
    before.host = .memory host →
    computation before = some ((exit, log), after) →
    GuardEvent.Closed log ∧ ∃ history, GuardTrail env before log history after

theorem enter_logs
    {env : Env}
    (guard : ScopeGuard)
    {inside otherwise : Run (ScopeExit × List GuardEvent)}
    (insideLogs : Logs env inside)
    (otherwiseLogs : Logs env otherwise) :
    Logs env (enter guard inside otherwise) := by
  intro before after exit log host inMemory finished
  have acquires := guard.acquire_cases env inMemory
  rcases enter_eq_some_iff.mp finished with
    ⟨refused, later, refusal, ran, rfl⟩ |
      ⟨opened, between, received, within, acquired, ran, released, rfl⟩
  · rcases acquires with ⟨_, sameRefusal, step⟩ | ⟨_, _, _, accepted, _⟩
    · cases sameRefusal.symm.trans refusal
      obtain ⟨next, stillInMemory⟩ := step.inMemory inMemory
      obtain ⟨closed, history, trail⟩ := otherwiseLogs stillInMemory ran
      exact ⟨GuardEvent.Closed.refused.append closed, _, .step step trail⟩
    · cases accepted.symm.trans refusal
  · rcases acquires with ⟨_, refusal, _⟩ | ⟨_, next, _, accepted, opens, stillInMemory, isOpen⟩
    · cases refusal.symm.trans acquired
    · cases accepted.symm.trans acquired
      obtain ⟨closed, history, trail⟩ := insideLogs stillInMemory ran
      obtain ⟨_, _, _, sameRelease, closes⟩ :=
        guard.release_behind stillInMemory isOpen trail closed
      cases sameRelease.symm.trans released
      exact ⟨closed.bracket guard.held received, _, .step opens (trail.trans (.singleton closes))⟩

theorem goOn_logs
    {env : Env}
    {first rest : Run (ScopeExit × List GuardEvent)}
    (firstLogs : Logs env first)
    (restLogs : Logs env rest) :
    Logs env (first >>= fun ended => goOn ended.1 ended.2 rest) := by
  intro before after exit log host inMemory finished
  obtain ⟨⟨firstExit, firstLog⟩, between, ran, ended⟩ := Run.bind_eq_some_iff.mp finished
  obtain ⟨closed, history, trail⟩ := firstLogs inMemory ran
  rcases goOn_eq_some_iff.mp ended with ⟨_, rfl, rfl, rfl⟩ | ⟨_, later, continued, rfl⟩
  · exact ⟨closed, history, trail⟩
  · obtain ⟨next, stillInMemory⟩ := trail.inMemory inMemory
    obtain ⟨laterClosed, laterHistory, laterTrail⟩ := restLogs stillInMemory continued
    exact ⟨closed.append laterClosed, _, trail.trans laterTrail⟩

/-- However a tree is left, its log is closed and there is a trail through it. -/
theorem run_logs
    (fuel : Nat)
    (env : Env)
    (tree : GuardTree) :
    Logs env (tree.run (evaluator fuel) env) := by
  induction tree with
  | leave exit =>
      intro before after finalExit log host inMemory finished
      cases finished
      exact ⟨.nil, [], .done before⟩
  | act action rest inductionHypothesis =>
      intro before after finalExit log host inMemory finished
      obtain ⟨result, between, acted, continued⟩ := Run.bind_eq_some_iff.mp finished
      obtain ⟨⟨_, later⟩, _, ran, returned⟩ := Run.bind_eq_some_iff.mp continued
      cases returned
      obtain ⟨history, trail⟩ := action.exists_trail inMemory acted
      have step : GuardStep env before (.acted action) history between := .acted acted trail
      obtain ⟨next, stillInMemory⟩ := step.inMemory inMemory
      obtain ⟨closed, laterHistory, laterTrail⟩ := inductionHypothesis stillInMemory ran
      exact ⟨(GuardEvent.Closed.acted action).append closed, _, .step step laterTrail⟩
  | scope guard inside otherwise rest insideLogs otherwiseLogs restLogs =>
      exact goOn_logs (enter_logs guard insideLogs otherwiseLogs) restLogs

end GuardTree

/-- An action ends from a machine, if it is given fuel enough. -/
def GuardAction.Ends
    (env : Env)
    (action : GuardAction)
    (machine : Machine) :
    Prop :=
  ∃ fuel ended, (action.evaluate (evaluator fuel) env).run machine = some ended

/-- A trail leads to a machine from which one of some actions does not end. -/
def GuardTrail.Stuck
    (env : Env)
    (actions : List GuardAction)
    (before : Machine) :
    Prop :=
  ∃ log history reached action,
    GuardTrail env before log history reached ∧
      action ∈ actions ∧ ¬ action.Ends env reached

theorem GuardTrail.Stuck.behind
    {env : Env}
    {actions others : List GuardAction}
    {before between : Machine}
    {log : List GuardEvent}
    {history : List ProcessSubEvent}
    (stuck : Stuck env actions between)
    (trail : GuardTrail env before log history between)
    (among : ∀ action ∈ actions, action ∈ others) :
    Stuck env others before := by
  obtain ⟨laterLog, laterHistory, reached, action, later, isAction, endless⟩ := stuck
  exact ⟨_, _, reached, action, trail.trans later, among action isAction, endless⟩

namespace GuardTree

/-- From each machine over a host in memory, a computation ends with fuel enough, or is stuck. -/
def EndsUnlessStuck
    (env : Env)
    (actions : List GuardAction)
    (computation : Nat → Run (ScopeExit × List GuardEvent)) :
    Prop :=
  ∀ ⦃before : Machine⦄ ⦃host : MemoryHost⦄,
    before.host = .memory host →
    (∃ fuel ended, computation fuel before = some ended) ∨ GuardTrail.Stuck env actions before

variable {env : Env}

theorem act_endsUnlessStuck
    (action : GuardAction)
    {restActions : List GuardAction}
    {rest : Nat → Run (ScopeExit × List GuardEvent)}
    (restRefined : ∀ {less more : Nat}, less ≤ more → (rest less).RefinedBy (rest more))
    (restEnds : EndsUnlessStuck env restActions rest) :
    EndsUnlessStuck env (action :: restActions) fun fuel => do
      let _ ← (action.evaluate (evaluator fuel) env).run
      let (exit, log) ← rest fuel
      return (exit, .acted action :: log) := by
  intro before host inMemory
  by_cases ends : action.Ends env before
  · obtain ⟨fuel, ⟨result, between⟩, acted⟩ := ends
    obtain ⟨history, trail⟩ := action.exists_trail inMemory acted
    have step : GuardStep env before (.acted action) history between := .acted acted trail
    obtain ⟨next, stillInMemory⟩ := step.inMemory inMemory
    rcases restEnds stillInMemory with ⟨laterFuel, ⟨⟨exit, log⟩, after⟩, ran⟩ | stuck
    · have first := action.evaluate_refinedBy (Nat.le_max_left fuel laterFuel) env acted
      have later := restRefined (Nat.le_max_right fuel laterFuel) ran
      refine .inl ⟨max fuel laterFuel, ((exit, .acted action :: log), after), ?_⟩
      refine Run.bind_eq_some_iff.mpr ⟨result, between, first, ?_⟩
      exact Run.bind_eq_some_iff.mpr ⟨(exit, log), after, later, rfl⟩
    · exact .inr (stuck.behind (.singleton step) fun _ => List.mem_cons_of_mem _)
  · exact .inr ⟨[], [], before, action, .done before, .head _, ends⟩

theorem enter_endsUnlessStuck
    (guard : ScopeGuard)
    {insideActions otherwiseActions : List GuardAction}
    {inside otherwise : Nat → Run (ScopeExit × List GuardEvent)}
    (insideLogs : ∀ fuel, Logs env (inside fuel))
    (insideEnds : EndsUnlessStuck env insideActions inside)
    (otherwiseEnds : EndsUnlessStuck env otherwiseActions otherwise) :
    EndsUnlessStuck env (insideActions ++ otherwiseActions) fun fuel =>
      enter guard (inside fuel) (otherwise fuel) := by
  intro before host inMemory
  rcases guard.acquire_cases env inMemory with
    ⟨refused, refusal, step⟩ | ⟨opened, next, _, acquired, opens, stillInMemory, isOpen⟩
  · obtain ⟨next, stillInMemory⟩ := step.inMemory inMemory
    rcases otherwiseEnds stillInMemory with ⟨fuel, ⟨⟨exit, later⟩, after⟩, ran⟩ | stuck
    · exact .inl ⟨fuel, ((exit, _), after),
        enter_eq_some_iff.mpr (.inl ⟨refused, later, refusal, ran, rfl⟩)⟩
    · exact .inr (stuck.behind (.singleton step) fun _ => List.mem_append_right _)
  · rcases insideEnds stillInMemory with ⟨fuel, ⟨⟨exit, within⟩, between⟩, ran⟩ | stuck
    · obtain ⟨closed, history, trail⟩ := insideLogs fuel stillInMemory ran
      obtain ⟨received, after, _, released, _⟩ :=
        guard.release_behind stillInMemory isOpen trail closed
      exact .inl ⟨fuel, ((exit, _), after), enter_eq_some_iff.mpr
        (.inr ⟨opened, between, received, within, acquired, ran, released, rfl⟩)⟩
    · exact .inr (stuck.behind (.singleton opens) fun _ => List.mem_append_left _)

theorem goOn_endsUnlessStuck
    {firstActions restActions : List GuardAction}
    {first rest : Nat → Run (ScopeExit × List GuardEvent)}
    (firstLogs : ∀ fuel, Logs env (first fuel))
    (firstRefined : ∀ {less more : Nat}, less ≤ more → (first less).RefinedBy (first more))
    (restRefined : ∀ {less more : Nat}, less ≤ more → (rest less).RefinedBy (rest more))
    (firstEnds : EndsUnlessStuck env firstActions first)
    (restEnds : EndsUnlessStuck env restActions rest) :
    EndsUnlessStuck env (firstActions ++ restActions) fun fuel =>
      first fuel >>= fun ended => goOn ended.1 ended.2 (rest fuel) := by
  intro before host inMemory
  rcases firstEnds inMemory with ⟨fuel, ⟨⟨exit, log⟩, between⟩, ran⟩ | stuck
  · by_cases caught : exit.outward = .normal
    · obtain ⟨_, history, trail⟩ := firstLogs fuel inMemory ran
      obtain ⟨next, stillInMemory⟩ := trail.inMemory inMemory
      rcases restEnds stillInMemory with ⟨laterFuel, ⟨⟨finalExit, later⟩, after⟩, continued⟩ | stuck
      -- Each part ended with fuel of its own; the larger of the two is enough for both.
      · have sameFirst := firstRefined (Nat.le_max_left fuel laterFuel) ran
        have sameRest := restRefined (Nat.le_max_right fuel laterFuel) continued
        refine .inl ⟨max fuel laterFuel, ((finalExit, log ++ later), after), ?_⟩
        refine Run.bind_eq_some_iff.mpr ⟨(exit, log), between, sameFirst, ?_⟩
        exact goOn_eq_some_iff.mpr (.inr ⟨caught, later, sameRest, rfl⟩)
      · exact .inr (stuck.behind trail fun _ => List.mem_append_right _)
    · refine .inl ⟨fuel, ((exit.outward, log), between), ?_⟩
      refine Run.bind_eq_some_iff.mpr ⟨(exit, log), between, ran, ?_⟩
      exact goOn_eq_some_iff.mpr (.inl ⟨caught, rfl, rfl, rfl⟩)
  · exact .inr (stuck.behind (.done before) fun _ => List.mem_append_left _)

/-- Only an action that does not end keeps a tree from its end. -/
theorem endsUnlessStuck
    (env : Env)
    (tree : GuardTree) :
    EndsUnlessStuck env tree.actions fun fuel => tree.run (evaluator fuel) env := by
  induction tree with
  | leave exit => exact fun before host inMemory => .inl ⟨0, ((exit, []), before), rfl⟩
  | act action rest restEnds =>
      exact act_endsUnlessStuck action (fun atMost => rest.run_refinedBy atMost env) restEnds
  | scope guard inside otherwise rest insideEnds otherwiseEnds restEnds =>
      have entered := enter_endsUnlessStuck guard
        (fun fuel => inside.run_logs fuel env) insideEnds otherwiseEnds
      refine goOn_endsUnlessStuck ?_ ?_ (fun atMost => rest.run_refinedBy atMost env)
        entered restEnds
      · exact fun fuel =>
          enter_logs guard (inside.run_logs fuel env) (otherwise.run_logs fuel env)
      · exact fun atMost =>
          enter_refinedBy guard (inside.run_refinedBy atMost env)
            (otherwise.run_refinedBy atMost env)

end GuardTree

end ShellCore
