import ShellCore.Proofs.Evaluation.Fuel
import ShellCore.Proofs.Guard.Log

namespace ShellCore

/-!
# Trees of guarded scopes

A scope acquires a guard, acts on the host, enters scopes of its own and is left at
last: at its end, by an error or by a panic. Errors and panics may pass through any
number of the scopes around it, until one of these catches them and goes on. A run
tells how it was left and keeps a log of the guards.
-/

/-- How a scope is left. -/
inductive ScopeExit where
  | normal
  /-- By an error, which leaves some of the scopes around it as well. -/
  | error (outer : Nat)
  /-- By a panic, which unwinds some of the scopes around it as well. -/
  | panic (outer : Nat)
  deriving Repr, DecidableEq

namespace ScopeExit

/-- How the scope around it goes on, or is left in turn. -/
def outward :
    ScopeExit →
    ScopeExit
  | .normal => .normal
  | .error 0 => .normal
  | .error (outer + 1) => .error outer
  | .panic 0 => .normal
  | .panic (outer + 1) => .panic outer

end ScopeExit

namespace GuardAction

/-- Do what is to be done, whatever its answer is. -/
def evaluate
    (below : Evaluator)
    (env : Env) :
    GuardAction →
    Eval Unit
  | .execute command => do
      let _ ← below.command env command
      return ()
  | .expand word => do
      let _ ← below.word env word
      return ()
  | .run argv => do
      let _ ← Host.runSimple argv
      return ()
  | .builtin name argv => do
      let _ ← Host.runBuiltin name argv
      return ()
  | .background body => do
      let _ ← Host.runBackground below env body
      return ()
  | .pipeline stages negated => do
      let _ ← Host.runPipeline below env stages negated
      return ()
  | .subshell body => do
      let _ ← Host.runSubshell below env body
      return ()
  | .commandSub body => do
      let _ ← Host.runCommandSub below env body
      return ()
  | .processSub body span => do
      let _ ← Host.runProcessSub below env body span
      return ()

/-- A congruence relates an action to itself, if it relates builtins that are not flushed. -/
theorem related
    {relation : ∀ {α : Type}, Eval α → Eval α → Prop}
    {paired : Env → Env → Prop}
    (congruence : Congruence relation paired)
    {below otherBelow : Evaluator}
    (belowRelated : Evaluator.Related relation paired below otherBelow)
    {env otherEnv : Env}
    (pair : paired env otherEnv)
    (action : GuardAction)
    (builtin : ∀ name argv,
      action = .builtin name argv →
      relation (Host.runBuiltin name argv) (Host.runBuiltin name argv)) :
    relation (action.evaluate below env) (action.evaluate otherBelow otherEnv) := by
  cases action with
  | execute command =>
      exact congruence.bind (belowRelated pair (.command command)) fun _ => congruence.pure ()
  | expand word =>
      exact congruence.bind (belowRelated pair (.word word)) fun _ => congruence.pure ()
  | run argv => exact congruence.bind (congruence.runSimple argv) fun _ => congruence.pure ()
  | builtin name argv =>
      exact congruence.bind (builtin name argv rfl) fun _ => congruence.pure ()
  | background body =>
      exact congruence.bind (congruence.runBackground belowRelated pair body) fun _ =>
        congruence.pure ()
  | pipeline stages negated =>
      exact congruence.bind (congruence.hostPipeline belowRelated pair stages negated) fun _ =>
        congruence.pure ()
  | subshell body =>
      exact congruence.bind (congruence.runSubshell belowRelated pair body) fun _ =>
        congruence.pure ()
  | commandSub body =>
      exact congruence.bind (congruence.runCommandSub belowRelated pair body) fun _ =>
        congruence.pure ()
  | processSub body span =>
      exact congruence.bind (congruence.runProcessSub belowRelated pair body span) fun _ =>
        congruence.pure ()

/-- An action that finishes does so alike with more fuel. -/
theorem evaluate_refinedBy
    {less more : Nat}
    (atMost : less ≤ more)
    (env : Env)
    (action : GuardAction) :
    (action.evaluate (evaluator less) env).RefinedBy (action.evaluate (evaluator more) env) :=
  action.related Eval.RefinedBy.congruence
    (fun same request => same ▸ evaluator_refinedBy atMost _ request) rfl
    fun _ _ _ => .refl _

end GuardAction

/-- The guard that a scope asks for. -/
inductive ScopeGuard where
  | redirects (redirections : List Redirection)
  | processSubs
  | flush

namespace ScopeGuard

/-- What the guard holds once it is acquired. -/
def held :
    ScopeGuard →
    HeldGuard
  | .redirects redirections => .redirects redirections.length
  | .processSubs => .processSubs
  | .flush => .flush

/-- Run inside the guard, and yield the statuses that it received; without it, nothing runs. -/
def around
    (guard : ScopeGuard)
    (inside : Run α) :
    Run (Option (StatusArray × α)) :=
  match guard with
  | .redirects redirections => do
      let ended ← Guard.withRedirects redirections inside
      return ended.map fun result => (.empty, result)
  | .processSubs => do
      let (received, result) ← Guard.withProcessSubs inside
      return some (received, result)
  | .flush => do
      let result ← Guard.withFlush inside
      return some (.empty, result)

/-- Acquire the guard, and tell whether it is there. -/
def acquire :
    ScopeGuard →
    Run Bool
  | .redirects redirections => Guard.pushRedirects redirections
  | .processSubs => do
      Guard.pushProcessSub
      return true
  | .flush => return true

/-- Release the guard, and yield the statuses that it received. -/
def release :
    ScopeGuard →
    Run StatusArray
  | .redirects redirections => do
      Guard.popRedirects redirections.length
      return .empty
  | .processSubs => Guard.popProcessSub
  | .flush => do
      let _ ← Guard.flush
      return .empty

/-- To run inside a guard is to acquire it, to run and to release it. -/
theorem around_eq
    (guard : ScopeGuard)
    (inside : Run α) :
    guard.around inside = do
      if ← guard.acquire then
        let result ← inside
        let received ← guard.release
        return some (received, result)
      else
        return none := by
  cases guard with
  | redirects redirections =>
      simp only [around, acquire, release, Guard.withRedirects, bind_assoc]
      congr 1
      funext holds
      cases holds <;> simp
  | processSubs => simp [around, acquire, release, Guard.withProcessSubs]
  | flush => simp [around, acquire, release, Guard.withFlush]

/-- Either the guard is refused, or what runs finishes between its acquisition and its release. -/
theorem around_eq_some_iff
    {guard : ScopeGuard}
    {inside : Run α}
    {before after : Machine}
    {outcome : Option (StatusArray × α)} :
    guard.around inside before = some (outcome, after) ↔
      (guard.acquire before = some (false, after) ∧ outcome = none) ∨
        ∃ opened result between received,
          guard.acquire before = some (true, opened) ∧
            inside opened = some (result, between) ∧
              guard.release between = some (received, after) ∧
                outcome = some (received, result) := by
  rw [around_eq, Run.bind_eq_some_iff]
  constructor
  · rintro ⟨holds, opened, acquired, finished⟩
    cases holds with
    | false =>
        cases finished
        exact .inl ⟨acquired, rfl⟩
    | true =>
        obtain ⟨result, between, ran, ended⟩ := Run.bind_eq_some_iff.mp finished
        obtain ⟨received, _, released, returned⟩ := Run.bind_eq_some_iff.mp ended
        cases returned
        exact .inr ⟨opened, result, between, received, acquired, ran, released, rfl⟩
  · rintro (⟨refused, rfl⟩ | ⟨opened, result, between, received, acquired, ran, released, rfl⟩)
    · exact ⟨false, after, refused, rfl⟩
    · refine ⟨true, opened, acquired, Run.bind_eq_some_iff.mpr ⟨result, between, ran, ?_⟩⟩
      exact Run.bind_eq_some_iff.mpr ⟨received, after, released, rfl⟩

/-- What runs inside a guard may be given more fuel. -/
theorem around_refinedBy
    (guard : ScopeGuard)
    {less more : Run α}
    (refined : less.RefinedBy more) :
    (guard.around less).RefinedBy (guard.around more) := by
  rw [around_eq, around_eq]
  refine (Run.RefinedBy.refl _).bind fun holds => ?_
  cases holds with
  | true => exact refined.bind fun _ => .refl _
  | false => exact .refl _

end ScopeGuard

/-- What is done in a scope, up to the way that it is left. -/
inductive GuardTree where
  | leave (exit : ScopeExit)
  | act (action : GuardAction) (rest : GuardTree)
  /-- A scope of its own under a guard; another one without it, if it is refused. -/
  | scope (guard : ScopeGuard) (inside otherwise rest : GuardTree)

namespace GuardTree

/-- The actions of a scope and of those in it. -/
def actions :
    GuardTree →
    List GuardAction
  | .leave _ => []
  | .act action rest => action :: rest.actions
  | .scope _ inside otherwise rest => inside.actions ++ otherwise.actions ++ rest.actions

/-- Go on behind a scope, unless this one is left with it. -/
def goOn
    (exit : ScopeExit)
    (log : List GuardEvent)
    (rest : Run (ScopeExit × List GuardEvent)) :
    Run (ScopeExit × List GuardEvent) :=
  match exit.outward with
  | .normal => do
      let (finalExit, later) ← rest
      return (finalExit, log ++ later)
  | left => return (left, log)

/-- Run a scope under its guard, or the other one if the guard is refused. -/
def enter
    (guard : ScopeGuard)
    (inside otherwise : Run (ScopeExit × List GuardEvent)) :
    Run (ScopeExit × List GuardEvent) := do
  match ← guard.around inside with
  | some (received, exit, log) =>
      return (exit, .acquired guard.held :: (log ++ [.released guard.held received]))
  | none =>
      let (exit, log) ← otherwise
      return (exit, .refused :: log)

/-- Run what is done in a scope; tell how it is left, and what happened to guards. -/
def run
    (below : Evaluator)
    (env : Env) :
    GuardTree →
    Run (ScopeExit × List GuardEvent)
  | .leave exit => return (exit, [])
  | .act action rest => do
      let _ ← (action.evaluate below env).run
      let (exit, log) ← rest.run below env
      return (exit, .acted action :: log)
  | .scope guard inside otherwise rest => do
      let (exit, log) ← enter guard (inside.run below env) (otherwise.run below env)
      goOn exit log (rest.run below env)

/-- Behind a scope that is left with the one around it, nothing runs. -/
theorem goOn_of_left
    {exit : ScopeExit}
    (left : exit.outward ≠ .normal)
    (log : List GuardEvent)
    (rest : Run (ScopeExit × List GuardEvent)) :
    goOn exit log rest = pure (exit.outward, log) := by
  unfold goOn
  cases outward : exit.outward with
  | normal => exact absurd outward left
  | error outer => rfl
  | panic outer => rfl

/-- Behind a scope whose exit is caught, the rest runs. -/
theorem goOn_of_caught
    {exit : ScopeExit}
    (caught : exit.outward = .normal)
    (log : List GuardEvent)
    (rest : Run (ScopeExit × List GuardEvent)) :
    goOn exit log rest = (fun ended => (ended.1, log ++ ended.2)) <$> rest := by
  unfold goOn
  rw [caught]
  exact bind_pure_comp _ _

/-- Behind a scope the rest runs and adds to the log, or nothing does. -/
theorem goOn_eq_some_iff
    {exit finalExit : ScopeExit}
    {log finalLog : List GuardEvent}
    {rest : Run (ScopeExit × List GuardEvent)}
    {before after : Machine} :
    goOn exit log rest before = some ((finalExit, finalLog), after) ↔
      (exit.outward ≠ .normal ∧
          finalExit = exit.outward ∧ finalLog = log ∧ after = before) ∨
        (exit.outward = .normal ∧
          ∃ later,
            rest before = some ((finalExit, later), after) ∧ finalLog = log ++ later) := by
  by_cases caught : exit.outward = .normal
  · rw [goOn_of_caught caught, ← bind_pure_comp, Run.bind_eq_some_iff]
    constructor
    · rintro ⟨⟨_, later⟩, between, ran, returned⟩
      cases returned
      exact .inr ⟨caught, later, ran, rfl⟩
    · rintro (⟨left, _⟩ | ⟨_, later, ran, rfl⟩)
      · exact absurd caught left
      · exact ⟨(finalExit, later), after, ran, rfl⟩
  · rw [goOn_of_left caught]
    constructor
    · intro returned
      cases returned
      exact .inl ⟨caught, rfl, rfl, rfl⟩
    · rintro (⟨_, rfl, rfl, rfl⟩ | ⟨isCaught, _⟩)
      · rfl
      · exact absurd isCaught caught

/-- A scope runs between the acquisition and the release of its guard, or the other one does. -/
theorem enter_eq_some_iff
    {guard : ScopeGuard}
    {inside otherwise : Run (ScopeExit × List GuardEvent)}
    {before after : Machine}
    {exit : ScopeExit}
    {log : List GuardEvent} :
    enter guard inside otherwise before = some ((exit, log), after) ↔
      (∃ refused later,
          guard.acquire before = some (false, refused) ∧
            otherwise refused = some ((exit, later), after) ∧ log = .refused :: later) ∨
        ∃ opened between received within,
          guard.acquire before = some (true, opened) ∧
            inside opened = some ((exit, within), between) ∧
              guard.release between = some (received, after) ∧
                log = .acquired guard.held :: (within ++ [.released guard.held received]) := by
  unfold enter
  rw [Run.bind_eq_some_iff]
  constructor
  · rintro ⟨outcome, reached, entered, finished⟩
    rcases ScopeGuard.around_eq_some_iff.mp entered with
      ⟨refused, rfl⟩ | ⟨opened, ⟨_, within⟩, between, received, acquired, ran, released, rfl⟩
    · obtain ⟨⟨_, later⟩, _, ran, returned⟩ := Run.bind_eq_some_iff.mp finished
      cases returned
      exact .inl ⟨reached, later, refused, ran, rfl⟩
    · cases finished
      exact .inr ⟨opened, between, received, within, acquired, ran, released, rfl⟩
  · rintro (⟨refused, later, refusal, ran, rfl⟩ |
      ⟨opened, between, received, within, acquired, ran, released, rfl⟩)
    · refine ⟨none, refused, ScopeGuard.around_eq_some_iff.mpr (.inl ⟨refusal, rfl⟩), ?_⟩
      exact Run.bind_eq_some_iff.mpr ⟨(exit, later), after, ran, rfl⟩
    · refine ⟨some (received, exit, within), after, ?_, rfl⟩
      exact ScopeGuard.around_eq_some_iff.mpr
        (.inr ⟨opened, (exit, within), between, received, acquired, ran, released, rfl⟩)

theorem goOn_refinedBy
    (exit : ScopeExit)
    (log : List GuardEvent)
    {less more : Run (ScopeExit × List GuardEvent)}
    (refined : less.RefinedBy more) :
    (goOn exit log less).RefinedBy (goOn exit log more) := by
  rintro before ⟨⟨finalExit, finalLog⟩, after⟩ finished
  rcases goOn_eq_some_iff.mp finished with left | ⟨caught, later, ran, appended⟩
  · exact goOn_eq_some_iff.mpr (.inl left)
  · exact goOn_eq_some_iff.mpr (.inr ⟨caught, later, refined ran, appended⟩)

theorem enter_refinedBy
    (guard : ScopeGuard)
    {inside moreInside otherwise moreOtherwise : Run (ScopeExit × List GuardEvent)}
    (insideRefined : inside.RefinedBy moreInside)
    (otherwiseRefined : otherwise.RefinedBy moreOtherwise) :
    (enter guard inside otherwise).RefinedBy (enter guard moreInside moreOtherwise) := by
  refine (guard.around_refinedBy insideRefined).bind fun ended => ?_
  cases ended with
  | some held => exact .refl _
  | none => exact otherwiseRefined.bind fun _ => .refl _

/-- A run that finishes does so alike with more fuel. -/
theorem run_refinedBy
    {less more : Nat}
    (atMost : less ≤ more)
    (env : Env)
    (tree : GuardTree) :
    (tree.run (evaluator less) env).RefinedBy (tree.run (evaluator more) env) := by
  induction tree with
  | leave exit => exact .refl _
  | act action rest inductionHypothesis =>
      exact Run.RefinedBy.bind (action.evaluate_refinedBy atMost env) fun _ =>
        inductionHypothesis.bind fun _ => .refl _
  | scope guard inside otherwise rest insideRefined otherwiseRefined restRefined =>
      exact (enter_refinedBy guard insideRefined otherwiseRefined).bind fun ended =>
        goOn_refinedBy ended.1 ended.2 restRefined

/-- A tree, run from a machine, is left in some way, with a log and a machine behind it. -/
def Runs
    (env : Env)
    (tree : GuardTree)
    (before : Machine)
    (exit : ScopeExit)
    (log : List GuardEvent)
    (after : Machine) :
    Prop :=
  ∃ fuel, tree.run (evaluator fuel) env before = some ((exit, log), after)

end GuardTree

end ShellCore
