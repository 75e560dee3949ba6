import ShellCore.Proofs.Evaluation.Congruence
import ShellCore.Proofs.Evaluation.Template
import ShellCore.Proofs.Tracing.Erasure

namespace ShellCore

/-!
# Erasure of evaluations

Of a set whose connections have all been made, tracing a line always succeeds and
changes nothing but the trace. So every evaluation, with whatever fuel, erases to
the evaluation of the same request in the erased environment.
-/

/-- The answers of an evaluator in a wired environment erase to those in the erased one. -/
def Evaluator.Erases
    (below : Evaluator) :
    Prop :=
  ∀ {α : Type} {env : Env},
    env.Wired →
    ∀ request : Request α,
      Eval.ErasesTo (below α env request) (below α env.untraced request)

/-- What changes a scope changes it likewise where tracing is off. -/
theorem Scope.Change.untraced
    {change : Scope → Scope}
    (isChange : Scope.Change change)
    (scope : Scope) :
    (change scope).untraced = change scope.untraced := by
  cases isChange with
  | lastStatus status => rfl
  | pipeStatus codes => rfl
  | set name value => exact scope.untraced_set name value
  | setGlobal name value => exact scope.untraced_setGlobal name value
  | define function => rfl

namespace Erasure

open Eval.ErasesTo

section Traces

variable {env : Env}

theorem expand_answers
    (wired : env.setup.Wired)
    (template : String)
    (machine : Machine) :
    ∃ text, (Prompt.expand env template).run machine = some (.ok text, machine) :=
  ⟨_, Prompt.run_expand fun _ _ => wired .promptToWord⟩

/-- Tracing a text adds it to the trace, behind its prompt, and does nothing else. -/
theorem emit_answers
    (wired : env.setup.Wired)
    (text : String)
    (machine : Machine) :
    ∃ lead,
      (Trace.emit env text).run machine =
        some (.ok (), { machine with trace := machine.trace ++ [lead ++ text] }) := by
  obtain ⟨lead, expanded⟩ := expand_answers wired env.setup.ps4 machine
  refine ⟨lead, ?_⟩
  unfold Trace.emit Eval.require
  rw [if_pos (wired .tracerToWord), if_pos (wired .wordToPrompt), pure_bind, pure_bind]
  exact Eval.bind_answers_iff.mpr ⟨lead, machine, expanded, rfl⟩

theorem emitIfOn
    (wired : env.Wired)
    (text : String) :
    Eval.ErasesTo (Trace.emitIfOn env text) (Trace.emitIfOn env.untraced text) := by
  intro machine
  have bare :
      (Trace.emitIfOn env.untraced text).run machine.untraced =
        some (.ok (), machine.untraced) :=
    rfl
  have full :
      (Trace.emitIfOn env text).run machine =
        (if machine.scope.xtrace then Trace.emit env text else Pure.pure ()).run machine :=
    rfl
  change (Trace.emitIfOn env.untraced text).run machine.untraced =
    Option.map _ ((Trace.emitIfOn env text).run machine)
  rw [bare, full]
  split
  · obtain ⟨lead, emitted⟩ := emit_answers wired.own text machine
    rw [emitted]
    rfl
  · rfl

end Traces

section Brackets

/-- A body runs in a frame whose parameters have nothing to do with tracing. -/
theorem runFrame
    {below bareBelow : Evaluator}
    {env bareEnv : Env}
    {function : Function}
    (args : List Value)
    (bodyErases :
      Eval.ErasesTo (CommandList.execute below env function.body)
        (CommandList.execute bareBelow bareEnv function.body)) :
    Eval.ErasesTo (Function.runFrame below env function args)
      (Function.runFrame bareBelow bareEnv function args) := by
  refine Run.ErasesTo.withMachine fun machine => ?_
  refine .bind (.modify fun _ => ?_) fun _ => ?_
  · exact Machine.untraced_mapScope (Scope.untraced_enterCall _ function args)
  refine .bind bodyErases fun result => ?_
  refine .bind (.modify fun _ => ?_) fun _ => .pure result
  exact Machine.untraced_mapScope (Scope.untraced_leaveCall _ machine.scope)

theorem keepingScope
    {full bare : Eval α}
    (erases : full.ErasesTo bare) :
    Eval.ErasesTo (Isolation.keepingScope full) (Isolation.keepingScope bare) :=
  Run.ErasesTo.withMachine fun _ =>
    .bind erases fun result =>
      .bind (.modify fun _ => rfl) fun _ => .pure result

theorem inPeer
    {full bare : Eval α}
    (erases : full.ErasesTo bare) :
    Eval.ErasesTo (Host.inPeer full) (Host.inPeer bare) :=
  Run.ErasesTo.bind (.modify fun _ => rfl) fun _ =>
    .bind erases fun result =>
      .bind (.modify fun _ => rfl) fun _ => .pure result

theorem recorded
    (call : HostCall)
    (inertAnswer : α)
    {full bare : Eval α}
    (erases : full.ErasesTo bare) :
    Eval.ErasesTo (Host.recorded call inertAnswer full)
      (Host.recorded call inertAnswer bare) := by
  refine withMachine fun machine => ?_
  rcases machine with ⟨scope, trace, host, peer⟩
  cases host with
  | inert => exact pure inertAnswer
  | memory host => exact bind (onHost _ _) fun _ => erases

theorem withCapture
    {full bare : Eval α}
    (erases : full.ErasesTo bare) :
    Eval.ErasesTo (Host.withCapture full) (Host.withCapture bare) :=
  Run.ErasesTo.bind (.onHost _ _) fun _ =>
    .bind erases fun _ =>
      .bind (.onHost _ _) fun _ => .pure _

theorem withProcessSubs
    (env : Env)
    {full bare : Eval ControlFlow}
    (erases : full.ErasesTo bare) :
    Eval.ErasesTo (Commands.withProcessSubs env full)
      (Commands.withProcessSubs env.untraced bare) := by
  refine bind (require env _) fun _ => ?_
  have guarded :
      Run.ErasesTo (Guard.withProcessSubs full.run) (Guard.withProcessSubs bare.run) :=
    .bind (.onHost _ _) fun _ =>
      .bind erases fun _ =>
        .bind (.onHost _ _) fun _ => .pure _
  exact Run.ErasesTo.bind guarded fun _ =>
    .bind (.modify fun _ => rfl) fun _ => .pure _

theorem underRedirects
    (redirections : List Redirection)
    {full bare : Eval ControlFlow}
    (erases : full.ErasesTo bare) :
    Eval.ErasesTo (Commands.underRedirects redirections full)
      (Commands.underRedirects redirections bare) := by
  have guarded :
      Run.ErasesTo (Guard.withRedirects redirections full.run)
        (Guard.withRedirects redirections bare.run) := by
    refine .bind (.onHost _ _) fun holds => ?_
    cases holds with
    | true => exact .bind erases fun _ => .bind (.onHost _ _) fun _ => .pure _
    | false => exact .pure _
  refine Run.ErasesTo.bind guarded fun ended => ?_
  cases ended <;> exact .pure _

theorem callBack
    {env : Env}
    (wired : env.Wired)
    {full bare : Env → Eval α}
    (erases : ∀ {env : Env}, env.Wired → Eval.ErasesTo (full env) (bare env.untraced)) :
    Eval.ErasesTo (Host.callBack env full) (Host.callBack env.untraced bare) := by
  rcases env with ⟨setup, callback⟩
  cases callback with
  | missing => exact throw _
  | dropped => exact throw _
  | own => exact erases wired
  | peer peerSetup =>
      have peerWired : Env.Wired ⟨peerSetup, .own⟩ :=
        ⟨wired.peer peerSetup rfl, fun _ isPeer => nomatch isPeer⟩
      exact inPeer (erases peerWired)

end Brackets

/-- In a wired environment, to erase to the other evaluation is a congruence. -/
theorem congruence :
    Congruence Eval.ErasesTo fun env bareEnv => env.Wired ∧ bareEnv = env.untraced where
  pure := Eval.ErasesTo.pure
  throw _ := throw _
  bind := bind
  withScope nextErases := withScope fun scope => nextErases scope false
  update isChange := mapScope isChange.untraced
  require := by
    rintro env _ connection ⟨-, rfl⟩
    exact Eval.ErasesTo.require env connection
  trace := by
    rintro env _ text ⟨wired, rfl⟩
    exact emitIfOn wired text
  callables := by
    rintro env _ ⟨-, rfl⟩
    rfl
  callable _ _ _ := ofExcept id _
  frame _ args bodyErases := runFrame args bodyErases
  reentry := by
    rintro α β env _ call evaluation bareEvaluation next bareNext inertAnswer ⟨wired, rfl⟩ -
      erases nextErases
    refine recorded call inertAnswer (bind (callBack wired ?_) nextErases)
    exact fun wired => erases ⟨wired, rfl⟩
  runSimple _ := onHost _ _
  runBuiltin _ _ := Run.ErasesTo.bind (onHost _ _) fun _ => .bind (.onHost _ _) fun _ => .pure _
  finishProcessSub _ _ _ := onHost _ _
  isolation := keepingScope
  capture := withCapture
  processSubs := by
    rintro env _ evaluation bareEvaluation ⟨-, rfl⟩ erases
    exact withProcessSubs env erases
  redirects redirections erases := underRedirects redirections erases

/-- Every evaluation erases to that of the same request in the erased environment. -/
theorem evaluator
    (fuel : Nat) :
    Evaluator.Erases (ShellCore.evaluator fuel) := by
  intro α env wired request
  exact congruence.evaluator (fun _ => rfl) fuel ⟨wired, rfl⟩ request

end Erasure

end ShellCore
