import ShellCore.Proofs.Evaluation.Congruence
import ShellCore.Proofs.Evaluation.Execution
import ShellCore.Proofs.Evaluation.Keeping

namespace ShellCore

/-!
# More fuel

Fuel only cuts an evaluation short. What finishes with some fuel finishes alike
with more, so an evaluation has one end, whatever the fuel that it was given.
-/

namespace Run

/-- Where the computation finishes, the other one finishes alike. -/
def RefinedBy
    (less more : Run α) :
    Prop :=
  ∀ ⦃before : Machine⦄ ⦃ended : α × Machine⦄,
    less before = some ended → more before = some ended

namespace RefinedBy

theorem refl
    (computation : Run α) :
    computation.RefinedBy computation :=
  fun _ _ finished => finished

theorem bind
    {first moreFirst : Run α}
    {next moreNext : α → Run β}
    (firstRefined : first.RefinedBy moreFirst)
    (nextRefined : ∀ answer, (next answer).RefinedBy (moreNext answer)) :
    (first >>= next).RefinedBy (moreFirst >>= moreNext) := by
  rintro before ⟨result, after⟩ finished
  obtain ⟨answer, between, started, ended⟩ := Run.bind_eq_some_iff.mp finished
  exact Run.bind_eq_some_iff.mpr
    ⟨answer, between, firstRefined started, nextRefined answer ended⟩

/-- Around a part that is refined, a computation may do anything else. -/
theorem around
    {first : Run α}
    {middle moreMiddle : α → Run β}
    {last : α → β → Run γ}
    (middleRefined : ∀ answer, (middle answer).RefinedBy (moreMiddle answer)) :
    (first >>= fun answer => middle answer >>= last answer).RefinedBy
      (first >>= fun answer => moreMiddle answer >>= last answer) :=
  (refl first).bind fun answer => (middleRefined answer).bind fun _ => refl _

end RefinedBy

end Run

namespace Eval

/-- Where the evaluation finishes, the other one finishes alike. -/
def RefinedBy
    (less more : Eval α) :
    Prop :=
  Run.RefinedBy less.run more.run

namespace RefinedBy

theorem refl
    (evaluation : Eval α) :
    evaluation.RefinedBy evaluation :=
  Run.RefinedBy.refl evaluation.run

theorem bind
    {first moreFirst : Eval α}
    {next moreNext : α → Eval β}
    (firstRefined : first.RefinedBy moreFirst)
    (nextRefined : ∀ answer, (next answer).RefinedBy (moreNext answer)) :
    (first >>= next).RefinedBy (moreFirst >>= moreNext) := by
  unfold RefinedBy
  rw [ExceptT.run_bind, ExceptT.run_bind]
  refine Run.RefinedBy.bind firstRefined fun reached => ?_
  cases reached with
  | ok answer => exact nextRefined answer
  | error error => exact .refl _

theorem inPeer
    {less more : Eval α}
    (refined : less.RefinedBy more) :
    (Host.inPeer less).RefinedBy (Host.inPeer more) :=
  Run.RefinedBy.around fun _ => refined

theorem callBack
    (env : Env)
    {less more : Env → Eval α}
    (refined : ∀ env, (less env).RefinedBy (more env)) :
    (Host.callBack env less).RefinedBy (Host.callBack env more) := by
  unfold Host.callBack
  cases env.callback with
  | missing => exact refl _
  | dropped => exact refl _
  | own => exact refined env
  | peer setup => exact (refined _).inPeer

theorem recorded
    (call : HostCall)
    (inertAnswer : α)
    {less more : Eval α}
    (refined : less.RefinedBy more) :
    (Host.recorded call inertAnswer less).RefinedBy
      (Host.recorded call inertAnswer more) := by
  refine (refl get).bind fun machine => ?_
  cases machine.host with
  | inert => exact refl _
  | memory host => exact (refl _).bind fun _ => refined

theorem withProcessSubs
    (env : Env)
    {less more : Eval ControlFlow}
    (refined : less.RefinedBy more) :
    (Commands.withProcessSubs env less).RefinedBy (Commands.withProcessSubs env more) := by
  refine (refl _).bind fun _ => ?_
  have guarded :
      (Guard.withProcessSubs less.run).RefinedBy (Guard.withProcessSubs more.run) :=
    Run.RefinedBy.around fun _ => refined
  exact Run.RefinedBy.bind guarded fun _ => .refl _

theorem underRedirects
    (redirections : List Redirection)
    {less more : Eval ControlFlow}
    (refined : less.RefinedBy more) :
    (Commands.underRedirects redirections less).RefinedBy
      (Commands.underRedirects redirections more) := by
  have guarded :
      (Guard.withRedirects redirections less.run).RefinedBy
        (Guard.withRedirects redirections more.run) := by
    refine (Run.RefinedBy.refl _).bind fun holds => ?_
    cases holds with
    | true => exact Run.RefinedBy.bind refined fun _ => .refl _
    | false => exact .refl _
  exact Run.RefinedBy.bind guarded fun _ => .refl _

/-- To be refined by the other evaluation is a congruence. -/
theorem congruence :
    Congruence RefinedBy Eq where
  pure _ := refl _
  throw _ := refl _
  bind := bind
  withScope nextRefined := (refl _).bind fun scope => nextRefined scope scope.xtrace
  update _ := refl _
  require _ same := same ▸ refl _
  trace _ same := same ▸ refl _
  callables same := same ▸ rfl
  callable _ _ _ := refl _
  frame _ _ bodyRefined :=
    (Run.RefinedBy.refl get).bind fun _ => Run.RefinedBy.around fun _ => bodyRefined
  reentry := by
    rintro α β env _ call less more next moreNext inertAnswer rfl - refined nextRefined
    exact recorded call inertAnswer (bind (callBack env fun env => refined rfl) nextRefined)
  runSimple _ := refl _
  runBuiltin _ _ := refl _
  finishProcessSub _ _ _ := refl _
  isolation refined := Run.RefinedBy.around fun _ => refined
  capture refined := Run.RefinedBy.around fun _ => refined
  processSubs same refined := same ▸ withProcessSubs _ refined
  redirects redirections refined := underRedirects redirections refined

end RefinedBy

end Eval

/-- One more unit of fuel keeps every evaluation that finishes. -/
theorem evaluator_refinedBy_succ
    (fuel : Nat) :
    Evaluator.Related Eval.RefinedBy Eq (evaluator fuel) (evaluator (fuel + 1)) := by
  induction fuel with
  | zero =>
      intro α env other same request before ended finished
      cases finished
  | succ fuel inductionHypothesis =>
      exact Eval.RefinedBy.congruence.answer inductionHypothesis

/-- More fuel keeps every evaluation that finishes. -/
theorem evaluator_refinedBy
    {less more : Nat}
    (atMost : less ≤ more)
    (env : Env)
    (request : Request α) :
    (evaluator less α env request).RefinedBy (evaluator more α env request) := by
  induction atMost with
  | refl => exact .refl _
  | step _ inductionHypothesis =>
      intro before ended finished
      exact evaluator_refinedBy_succ _ rfl request (inductionHypothesis finished)

/-- A request has one end from a machine, whatever the fuel. -/
theorem Answers.unique
    {env : Env}
    {request : Request α}
    {before after otherAfter : Machine}
    {result otherResult : Except RuntimeError α}
    (answers : Answers env request before result after)
    (otherAnswers : Answers env request before otherResult otherAfter) :
    otherResult = result ∧ otherAfter = after := by
  obtain ⟨fuel, finished⟩ := answers
  obtain ⟨otherFuel, otherFinished⟩ := otherAnswers
  have withMost :=
    evaluator_refinedBy (Nat.le_max_left fuel otherFuel) env request finished
  have otherWithMost :=
    evaluator_refinedBy (Nat.le_max_right fuel otherFuel) env request otherFinished
  rw [withMost] at otherWithMost
  cases otherWithMost
  exact ⟨rfl, rfl⟩

end ShellCore
