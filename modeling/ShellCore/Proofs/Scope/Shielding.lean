import ShellCore.Proofs.Evaluation.Fuel
import ShellCore.Proofs.Scope.Effects

namespace ShellCore

/-!
# Assignments past the frames of a call

An assignment that is not local goes to the innermost frame that binds the name, so
frames that bind it shield those below. To tell whether a run assigns a name past all
frames but some lowest ones, it is made again by an evaluator that has no answer from
where a command would do so. Where this run ends, it ends like the other one, and the
lowest frames are left as they were, as far as that name goes.
-/

namespace Commands

/--
Execute a command up to where it would assign a variable in whichever frame binds it.
A loop over items does so where there is an item.
-/
def runUpToAssignment
    (below : Evaluator)
    (env : Env) :
    Command →
    Eval ControlFlow
  | .assign _ value false => do
      Eval.require env .commandToWord
      let _ ← below.word env value
      Eval.outOfFuel
  | .forEach _ items _ =>
      withProcessSubs env do
        Eval.require env .commandToWord
        match ← Eval.each (below.word env) items with
        | [] => return .normal 0
        | _ :: _ => Eval.outOfFuel
  | command => run below env command

/-- Up to an assignment, a command runs as it does. -/
theorem runUpToAssignment_refinedBy
    (below : Evaluator)
    (env : Env)
    (command : Command) :
    (runUpToAssignment below env command).RefinedBy (run below env command) := by
  have stops (evaluation : Eval ControlFlow) : Eval.outOfFuel.RefinedBy evaluation := by
    intro before ended finished
    cases finished
  cases command with
  | assign name value isLocal =>
      cases isLocal with
      | true => exact .refl _
      | false =>
          exact (Eval.RefinedBy.refl _).bind fun _ =>
            (Eval.RefinedBy.refl _).bind fun _ => stops _
  | forEach name items body =>
      refine .withProcessSubs env ((Eval.RefinedBy.refl _).bind fun _ =>
        (Eval.RefinedBy.refl _).bind fun found => ?_)
      cases found with
      | nil => exact .refl _
      | cons item rest => exact stops _
  | _ => exact .refl _

end Commands

namespace Scope

/-- Whether a frame above the lowest ones binds a name. -/
def shields
    (scope : Scope)
    (lowest : Nat)
    (name : String) :
    Bool :=
  (List.range (scope.depth - lowest)).any fun level => (scope.bound? level name).isSome

theorem shields_iff
    {scope : Scope}
    {lowest : Nat}
    {name : String} :
    scope.shields lowest name = true ↔
      ∃ level, level < scope.depth - lowest ∧ (scope.bound? level name).isSome := by
  simp [shields]

/-- A name may be assigned anywhere but past the frames above the lowest ones. -/
def AllowsShielded
    (lowest : Nat)
    (name other : String)
    (scope : Scope) :
    Prop :=
  other = name → scope.shields lowest name = true

/-- Frames keep what they bind, and there are as many of them, so they shield as before. -/
theorem AllowsShielded.stable
    (lowest : Nat)
    (name : String) :
    Stable (AllowsShielded lowest name) := by
  intro commands before after other effect allowed same
  obtain ⟨level, isAbove, isBound⟩ := shields_iff.mp (allowed same)
  have rebound := effect.rebound name
  have sameDepth : after.depth = before.depth := by simpa using rebound.length_eq
  exact shields_iff.mpr ⟨level, by rwa [sameDepth], rebound.kept level isBound⟩

/--
Inside of a call, where a name is never assigned past its frames, nothing happens to
the name in the lowest frames.
-/
theorem Effect.drop_bindings
    {lowest : Nat}
    {name : String}
    {commands : List Command}
    {before after : Scope}
    (effect : Effect (AllowsShielded lowest name) commands before after)
    (isInner : lowest < before.depth) :
    (after.bindings name).drop (before.depth - lowest) =
      (before.bindings name).drop (before.depth - lowest) := by
  induction effect with
  | none => rfl
  | next first _ firstSame secondSame =>
      have sameDepth := (first.rebound name).length_eq
      rw [length_bindings, length_bindings] at sameDepth
      rw [sameDepth] at secondSame
      exact (secondSame isInner).trans (firstSame isInner)
  | statuses => rfl
  | @assign _ scope other _ value _ _ allowed =>
      by_cases same : other = name
      · subst same
        obtain ⟨level, isAbove, isBound⟩ := shields_iff.mp (allowed rfl)
        exact (Rebound.of_setGlobal scope other value).drop_eq level isBound isAbove
      · rw [scope.bindings_setGlobal_of_ne value (Ne.symm same)]
  | @assignLocal _ scope other _ value _ =>
      by_cases same : other = name
      · subst same
        have isBelow : scope.depth - lowest = scope.depth - lowest - 1 + 1 := by omega
        rw [bindings_set_self, isBelow, List.drop_succ_cons, List.drop_tail]
      · rw [scope.bindings_set_of_ne value (Ne.symm same)]
  | define => rfl
  | @call _ before ended _ function args _ body inductionHypothesis =>
      have sameDepth := (body.rebound name).length_eq
      rw [length_bindings, length_bindings, depth_enterCall] at sameDepth
      have isBelow : before.depth + 1 - lowest = before.depth - lowest + 1 := by omega
      rw [depth_enterCall, isBelow] at inductionHypothesis
      exact drop_bindings_of_call (inductionHypothesis (by omega)) (by omega)

end Scope

/-- Whether a request only has the host run something isolated. -/
def Request.runsIsolated :
    Request α →
    Bool
  | .word (.commandSub _) => true
  | .word (.processSub _ _) => true
  | .expr (.commandSub _) => true
  | .command body => body.runsIsolated
  | _ => false

/-- Whether a request is a command that may assign a name past all but the lowest frames. -/
def Request.mayAssignPast
    (lowest : Nat)
    (name : String)
    (machine : Machine) :
    Request α →
    Bool
  | .command body =>
      body.assigned? = some name && !machine.scope.shields lowest name
  | _ => false

/-- Answer a request up to where it would assign a variable in whichever frame binds it. -/
def answerUpToAssignment
    (below : Evaluator) :
    Evaluator :=
  fun _ env request =>
    match request with
    | .command body => do
        let flow ← Commands.runUpToAssignment below env body
        Commands.keepStatus flow
        return flow
    | request => answer below _ env request

theorem answerUpToAssignment_refinedBy
    (below : Evaluator)
    (env : Env)
    (request : Request α) :
    (answerUpToAssignment below α env request).RefinedBy (answer below α env request) := by
  cases request with
  | command body =>
      exact (Commands.runUpToAssignment_refinedBy below env body).bind fun _ => .refl _
  | _ => exact .refl _

/--
The evaluator that has no answer from where a command would assign a name past all but
the lowest frames. What runs isolated is not looked into, since its scope is given up.
-/
def shieldedEvaluator
    (lowest : Nat)
    (name : String)
    (fuel : Nat)
    (α : Type)
    (env : Env)
    (request : Request α) :
    Eval α :=
  match fuel with
  | 0 => Eval.outOfFuel
  | fuel + 1 =>
      if request.runsIsolated then
        evaluator (fuel + 1) α env request
      else
        ExceptT.mk fun machine =>
          if request.mayAssignPast lowest name machine then
            (answerUpToAssignment (shieldedEvaluator lowest name fuel) α env request).run machine
          else
            (answer (shieldedEvaluator lowest name fuel) α env request).run machine

section Shielded

variable {lowest : Nat}
variable {name : String}

theorem shieldedEvaluator_cases
    {fuel : Nat}
    {env : Env}
    {request : Request α}
    {before : Machine}
    {ended : Except RuntimeError α × Machine}
    (finished :
      (shieldedEvaluator lowest name (fuel + 1) α env request).run before = some ended) :
    request.runsIsolated = true ∧
        (answer (evaluator fuel) α env request).run before = some ended ∨
      (answerUpToAssignment (shieldedEvaluator lowest name fuel) α env request).run before =
          some ended ∨
        request.mayAssignPast lowest name before = false ∧
          (answer (shieldedEvaluator lowest name fuel) α env request).run before =
            some ended := by
  unfold shieldedEvaluator at finished
  split at finished
  next isIsolated => exact .inl ⟨isIsolated, finished⟩
  next =>
    simp only [ExceptT.run_mk] at finished
    split at finished
    next => exact .inr (.inl finished)
    next isShielded => exact .inr (.inr ⟨by simpa using isShielded, finished⟩)

/-- Where the shielded run ends, the other one ends alike. -/
theorem shieldedEvaluator_refinedBy
    (fuel : Nat) :
    Evaluator.Related Eval.RefinedBy Eq (shieldedEvaluator lowest name fuel)
      (evaluator fuel) := by
  induction fuel with
  | zero =>
      intro α env other same request before ended finished
      cases finished
  | succ fuel inductionHypothesis =>
      rintro α env _ rfl request before ended finished
      have refined :
          (answer (shieldedEvaluator lowest name fuel) α env request).RefinedBy
            (answer (evaluator fuel) α env request) :=
        Eval.RefinedBy.congruence.answer inductionHypothesis rfl request
      rcases shieldedEvaluator_cases finished with ⟨_, isolated⟩ | stopped | ⟨_, shielded⟩
      · exact isolated
      · exact refined (answerUpToAssignment_refinedBy _ env request stopped)
      · exact refined shielded

theorem shieldedEvaluator_isolates
    (fuel : Nat) :
    Evaluator.Isolates (shieldedEvaluator lowest name fuel) := by
  intro command
  refine .of_keepsPeer fun env isLocal before after result finished => ?_
  have ran := shieldedEvaluator_refinedBy fuel rfl (.command command) finished
  exact Machine.SamePeer.discipline.evaluator fuel isLocal (.command command) ran

open Machine (Affected)

section Effects

variable {allowed : String → Scope → Prop}
variable {below : Evaluator}

/-- Up to an assignment, a command has its effects, whether or not it may assign. -/
theorem HasEffects.upToAssignment
    (effects : HasEffects allowed below)
    (env : Env)
    (stable : Scope.Stable allowed)
    (command : Command) :
    Eval.Keeps (Affected allowed [command]) (Commands.runUpToAssignment below env command) := by
  have composable := Affected.composable allowed [command]
  have stops : Eval.Keeps (Affected allowed [command]) (Eval.outOfFuel : Eval ControlFlow) := by
    intro before after result finished
    cases finished
  cases command with
  | assign name value isLocal =>
      cases isLocal with
      | true =>
          intro before after result finished
          exact effects.assign env stable name value true finished (by rintro _ ⟨⟩)
      | false =>
          refine composable.bind (composable.require env _) fun _ => ?_
          exact composable.bind (effects.value env (.word value) rfl) fun _ => stops
  | forEach name items body =>
      refine Affected.withProcessSubs env ?_
      refine composable.bind (composable.require env _) fun _ => ?_
      refine composable.bind (effects.words env items) fun found => ?_
      cases found with
      | nil => exact composable.pure _
      | cons item rest => exact stops
  | _ =>
      intro before after result finished
      exact effects.run env stable _ finished (by rintro _ ⟨⟩)

end Effects

/-- In a shielded run, names are assigned only where they may be. -/
theorem shieldedEvaluator_hasEffects
    (fuel : Nat) :
    HasEffects (Scope.AllowsShielded lowest name) (shieldedEvaluator lowest name fuel) := by
  have stable : Scope.Stable (Scope.AllowsShielded lowest name) := .stable lowest name
  induction fuel with
  | zero =>
      refine ⟨shieldedEvaluator_isolates 0, ?_, ?_, ?_⟩
      · intro α env request isValue free before after result finished
        cases finished
      · intro env command before after result finished
        cases finished
      · intro env statement status before after result finished
        cases finished
  | succ fuel inductionHypothesis =>
      refine ⟨shieldedEvaluator_isolates (fuel + 1), ?_, ?_, ?_⟩
      · intro α env request isValue free before after result finished
        rcases shieldedEvaluator_cases finished with ⟨isIsolated, ran⟩ | stopped | ⟨_, ran⟩
        · have callFree : request.isCallFree = true := by
            cases request with
            | word word => cases word <;> first | rfl | cases isIsolated
            | expr expr => cases expr <;> first | rfl | cases isIsolated
            | command command => cases isValue
            | _ => cases isIsolated
          exact Affected.of_sameScope
            (callFreeKeepsScope (fuel + 1) env request callFree ran)
        · have ran := answerUpToAssignment_refinedBy _ env request stopped
          exact inductionHypothesis.answerValue env request isValue free ran
        · exact inductionHypothesis.answerValue env request isValue free ran
      · intro env command before after result finished
        have composable := Affected.composable (Scope.AllowsShielded lowest name) [command]
        have leaves (flow : ControlFlow) :
            Eval.Keeps (Affected (Scope.AllowsShielded lowest name) [command])
              (Commands.keepStatus flow >>= fun _ => pure flow) :=
          composable.bind (Affected.keepStatus flow) fun _ => composable.pure flow
        rcases shieldedEvaluator_cases finished with
          ⟨isIsolated, ran⟩ | stopped | ⟨isShielded, ran⟩
        · exact composable.bind
            (Affected.of_runsIsolated (Confined.isolated fuel) env isIsolated) leaves ran
        · exact composable.bind
            (inductionHypothesis.upToAssignment env stable command) leaves stopped
        · refine inductionHypothesis.answerCommand env stable command ran ?_
          rintro other isAssigned rfl
          simpa [Request.mayAssignPast, isAssigned] using isShielded
      · intro env statement status before after result finished
        rcases shieldedEvaluator_cases finished with ⟨isIsolated, _⟩ | stopped | ⟨_, ran⟩
        · cases isIsolated
        · exact inductionHypothesis.rounds env statement status stopped
        · exact inductionHypothesis.rounds env statement status ran

end Shielded

end ShellCore
