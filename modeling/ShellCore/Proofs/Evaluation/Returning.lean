import ShellCore.Proofs.Evaluation.Congruence
import ShellCore.Proofs.Evaluation.Keeping

namespace ShellCore

/-!
# Evaluations that return

An evaluation may be known to return, with an answer or an error, as long as no function
is defined. If it defines none, what comes next is known to return as well. So whatever
is put together from evaluations that return does.
-/

/-- The scope defines no functions. -/
def Scope.Functionless
    (scope : Scope) :
    Prop :=
  ∀ name, scope.function? name = none

/-- The machine knows no functions, nor does its peer if both are meant. -/
structure Machine.Functionless
    (both : Prop)
    (machine : Machine) :
    Prop where
  own : machine.scope.Functionless
  peer : both → machine.peer.scope.Functionless

/-- If the host calls back a peer, then both sessions are meant. -/
def Env.Means
    (both : Prop)
    (env : Env) :
    Prop :=
  ∀ setup, env.callback = .peer setup → both

/-- Without functions a computation finishes, and defines none. -/
def Run.Returns
    (both : Prop)
    (computation : Run α) :
    Prop :=
  ∀ ⦃machine : Machine⦄,
    machine.Functionless both →
    ∃ answer after, computation machine = some (answer, after) ∧ after.Functionless both

/-- Without functions an evaluation ends with an answer or an error, and defines none. -/
def Eval.Returns
    (both : Prop)
    (evaluation : Eval α) :
    Prop :=
  Run.Returns both evaluation.run

/-- An assignment defines no function. -/
theorem Scope.function?_set
    (scope : Scope)
    (assigned name : String)
    (value : Value) :
    (scope.set assigned value).function? name = scope.function? name := by
  unfold set
  split <;> rfl

theorem Scope.function?_setGlobal
    (scope : Scope)
    (assigned name : String)
    (value : Value) :
    (scope.setGlobal assigned value).function? name = scope.function? name := by
  unfold setGlobal
  split <;> rfl

variable {both : Prop}

namespace Run.Returns

theorem pure
    (answer : α) :
    Run.Returns both (pure answer : Run α) :=
  fun machine functionless => ⟨answer, machine, rfl, functionless⟩

theorem bind
    {first : Run α}
    {next : α → Run β}
    (firstReturns : Run.Returns both first)
    (nextReturns : ∀ answer, Run.Returns both (next answer)) :
    Run.Returns both (first >>= next) := by
  intro machine functionless
  obtain ⟨answer, between, started, stillFunctionless⟩ := firstReturns functionless
  obtain ⟨result, after, ended, kept⟩ := nextReturns answer stillFunctionless
  exact ⟨result, after, Run.bind_eq_some_iff.mpr ⟨answer, between, started, ended⟩, kept⟩

theorem modify
    {change : Machine → Machine}
    (keeps : ∀ machine, machine.Functionless both → (change machine).Functionless both) :
    Run.Returns both (modify change : Run Unit) :=
  fun machine functionless => ⟨(), change machine, rfl, keeps machine functionless⟩

theorem onHost
    (inertAnswer : α)
    (action : MemoryHost → α × MemoryHost) :
    Run.Returns both (Run.onHost inertAnswer action) :=
  fun machine functionless =>
    ⟨(machine.host.act inertAnswer action).1,
      { machine with host := (machine.host.act inertAnswer action).2 }, rfl,
      functionless.own, functionless.peer⟩

end Run.Returns

namespace Eval.Returns

theorem pure
    (answer : α) :
    Eval.Returns both (pure answer : Eval α) :=
  fun machine functionless => ⟨.ok answer, machine, rfl, functionless⟩

theorem throw
    (error : RuntimeError) :
    Eval.Returns both (throw error : Eval α) :=
  fun machine functionless => ⟨.error error, machine, rfl, functionless⟩

theorem bind
    {first : Eval α}
    {next : α → Eval β}
    (firstReturns : Eval.Returns both first)
    (nextReturns : ∀ answer, Eval.Returns both (next answer)) :
    Eval.Returns both (first >>= next) := by
  unfold Eval.Returns
  rw [ExceptT.run_bind]
  refine Run.Returns.bind firstReturns fun reached => ?_
  cases reached with
  | ok answer => exact nextReturns answer
  | error error => exact Run.Returns.pure (Except.error error)

/-- A look at the scope finds no functions. -/
theorem withScope
    {next : Scope → Eval α}
    (nextReturns : ∀ scope, scope.Functionless → Eval.Returns both (next scope)) :
    Eval.Returns both (Eval.scope >>= next) :=
  fun machine functionless => nextReturns machine.scope functionless.own functionless

theorem mapScope
    {change : Scope → Scope}
    (keeps : ∀ scope name, (change scope).function? name = scope.function? name) :
    Eval.Returns both (Eval.mapScope change) :=
  fun machine functionless =>
    ⟨.ok (), machine.mapScope change, rfl,
      fun name => (keeps machine.scope name).trans (functionless.own name), functionless.peer⟩

theorem ofExcept
    (wrap : ε → RuntimeError)
    (outcome : Except ε α) :
    Eval.Returns both (Eval.ofExcept wrap outcome) := by
  cases outcome with
  | ok answer => exact pure answer
  | error error => exact throw (wrap error)

theorem require
    (env : Env)
    (connection : Connection) :
    Eval.Returns both (Eval.require env connection) := by
  unfold Eval.require
  split
  · exact pure ()
  · exact throw _

theorem onHost
    (inertAnswer : α)
    (action : MemoryHost → Except RuntimeError α × MemoryHost) :
    Eval.Returns both (Eval.onHost inertAnswer action) :=
  Run.Returns.onHost (Except.ok inertAnswer) action

theorem each
    {evaluate : α → Eval β}
    {items : List α}
    (itemReturns : ∀ item ∈ items, Eval.Returns both (evaluate item)) :
    Eval.Returns both (Eval.each evaluate items) := by
  induction items with
  | nil => exact pure []
  | cons item rest inductionHypothesis =>
      refine bind (itemReturns item (.head rest)) fun answer => ?_
      refine bind (inductionHypothesis fun other isLater => ?_) fun answers =>
        pure (answer :: answers)
      exact itemReturns other (.tail item isLater)

theorem expandPrompt
    (env : Env)
    (template : String) :
    Eval.Returns both (Prompt.expand env template) := by
  refine bind (each fun piece _ => ?_) fun _ => pure _
  cases piece with
  | text text => exact pure _
  | var name => exact bind (require env _) fun _ => withScope fun _ _ => pure _

theorem emitIfOn
    (env : Env)
    (text : String) :
    Eval.Returns both (Trace.emitIfOn env text) := by
  refine withScope fun scope _ => ?_
  split
  · refine bind (require env _) fun _ => bind (require env _) fun _ => ?_
    refine bind (expandPrompt env _) fun lead => ?_
    exact fun machine functionless =>
      ⟨.ok (), { machine with trace := machine.trace ++ [lead ++ text] }, rfl,
        functionless.own, functionless.peer⟩
  · exact pure ()

section Brackets

variable {evaluation : Eval α}

theorem keepingScope
    (returns : Eval.Returns both evaluation) :
    Eval.Returns both (Isolation.keepingScope evaluation) := by
  intro machine functionless
  obtain ⟨result, after, finished, kept⟩ := returns functionless
  refine ⟨result, after.mapScope fun _ => machine.scope, ?_, functionless.own, kept.peer⟩
  exact Run.bind_eq_some_iff.mpr ⟨machine, machine, rfl,
    Run.bind_eq_some_iff.mpr ⟨result, after, finished, rfl⟩⟩

/-- What returns in a set returns in its peer. -/
theorem inPeer
    (meant : both)
    (returns : Eval.Returns both evaluation) :
    Eval.Returns both (Host.inPeer evaluation) := by
  have swaps :
      ∀ machine : Machine, machine.Functionless both → machine.swap.Functionless both :=
    fun machine functionless => ⟨functionless.peer meant, fun _ => functionless.own⟩
  exact Run.Returns.bind (.modify swaps) fun _ =>
    Run.Returns.bind returns fun _ =>
      Run.Returns.bind (.modify swaps) fun _ => .pure _

theorem callBack
    {env : Env}
    {evaluation : Env → Eval α}
    (means : env.Means both)
    (returns : ∀ env : Env, env.Means both → Eval.Returns both (evaluation env)) :
    Eval.Returns both (Host.callBack env evaluation) := by
  unfold Host.callBack
  cases called : env.callback with
  | missing => exact throw _
  | dropped => exact throw _
  | own => exact returns env means
  | peer setup => exact inPeer (means setup called) (returns ⟨setup, .own⟩ nofun)

theorem recorded
    (call : HostCall)
    (inertAnswer : α)
    (returns : Eval.Returns both evaluation) :
    Eval.Returns both (Host.recorded call inertAnswer evaluation) := by
  intro machine functionless
  cases kind : machine.host with
  | inert =>
      refine ⟨.ok inertAnswer, machine, ?_, functionless⟩
      unfold Host.recorded
      rw [ExceptT.run_bind]
      refine Run.bind_eq_some_iff.mpr ⟨.ok machine, machine, rfl, ?_⟩
      simp only [kind]
      rfl
  | memory host =>
      obtain ⟨result, after, finished, kept⟩ :=
        bind (onHost () fun host => (.ok (), host.record call)) (fun _ => returns) functionless
      refine ⟨result, after, ?_, kept⟩
      unfold Host.recorded
      rw [ExceptT.run_bind]
      refine Run.bind_eq_some_iff.mpr ⟨.ok machine, machine, rfl, ?_⟩
      simp only [kind]
      exact finished

theorem withCapture
    (returns : Eval.Returns both evaluation) :
    Eval.Returns both (Host.withCapture evaluation) :=
  Run.Returns.bind (.onHost _ _) fun _ =>
    Run.Returns.bind returns fun _ =>
      Run.Returns.bind (.onHost _ _) fun _ => .pure _

theorem withFlush
    (returns : Eval.Returns both evaluation) :
    Eval.Returns both (Eval.ofRun (Guard.withFlush evaluation.run)) :=
  Run.Returns.bind returns fun _ => Run.Returns.bind (.onHost _ _) fun _ => .pure _

theorem withProcessSubs
    {evaluation : Eval ControlFlow}
    (env : Env)
    (returns : Eval.Returns both evaluation) :
    Eval.Returns both (Commands.withProcessSubs env evaluation) := by
  refine bind (require env _) fun _ => ?_
  have guarded : Run.Returns both (Guard.withProcessSubs evaluation.run) :=
    .bind (.onHost _ _) fun _ => .bind returns fun _ => .bind (.onHost _ _) fun _ => .pure _
  refine Run.Returns.bind guarded fun ended => ?_
  refine Run.Returns.bind (.modify fun machine functionless => ?_) fun _ => .pure _
  exact ⟨functionless.own, functionless.peer⟩

theorem underRedirects
    {evaluation : Eval ControlFlow}
    (redirections : List Redirection)
    (returns : Eval.Returns both evaluation) :
    Eval.Returns both (Commands.underRedirects redirections evaluation) := by
  refine Run.Returns.bind (Run.Returns.bind (.onHost _ _) fun holds => ?_) fun ended => ?_
  · cases holds with
    | true => exact .bind returns fun _ => .bind (.onHost _ _) fun _ => .pure _
    | false => exact .pure _
  · cases ended <;> exact .pure _

end Brackets

end Eval.Returns

end ShellCore
