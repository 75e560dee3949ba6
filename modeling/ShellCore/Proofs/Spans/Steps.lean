import ShellCore.Evaluation.Answer
import ShellCore.Proofs.Evaluation.Congruence
import ShellCore.Proofs.Evaluation.Keeping
import ShellCore.Proofs.Spans.Likeness

namespace ShellCore

/-!
# Evaluations that are alike

Two evaluations are alike if from machines that are alike both run out of fuel, or both
end, with results and machines that are alike. Steps that look at no token are alike,
and what is put together from evaluations that are alike is alike.
-/

variable {paired : SpanId → SpanId → Prop}

/-- From machines that are alike both finish or none does, with related answers. -/
def Run.Alike
    (paired : SpanId → SpanId → Prop)
    (related : α → α → Prop)
    (computation other : Run α) :
    Prop :=
  ∀ ⦃machine otherMachine : Machine⦄,
    machine.Alike paired otherMachine →
    Option.Rel (fun ended otherEnded =>
        related ended.1 otherEnded.1 ∧ ended.2.Alike paired otherEnded.2)
      (computation machine) (other otherMachine)

/-- From machines that are alike both evaluations end alike or none ends. -/
def Eval.Alike
    (paired : SpanId → SpanId → Prop)
    (related : α → α → Prop)
    (evaluation other : Eval α) :
    Prop :=
  Run.Alike paired (ResultAlike paired related) evaluation.run other.run

section Scopes

variable {scope other : Scope}

/-- A change that has no part in functions and statuses leaves scopes alike. -/
theorem Scope.Alike.map
    (alike : scope.Alike paired other)
    (change : Scope → Scope)
    (commutes : ∀ (scope : Scope) functions statuses,
      change (scope.withSpanned functions statuses) =
        (change scope).withSpanned functions statuses) :
    (change scope).Alike paired (change other) := by
  cases alike with
  | mk scope functions statuses =>
      rw [commutes, commutes]
      exact .mk (change scope) functions statuses

theorem Scope.withSpanned_set
    (scope : Scope)
    (functions : Table String Function)
    (statuses : StatusArray)
    (name : String)
    (value : Value) :
    (scope.withSpanned functions statuses).set name value =
      (scope.set name value).withSpanned functions statuses := by
  rcases scope with ⟨inner, root⟩
  cases inner <;> rfl

theorem Scope.withSpanned_setGlobal
    (scope : Scope)
    (functions : Table String Function)
    (statuses : StatusArray)
    (name : String)
    (value : Value) :
    (scope.withSpanned functions statuses).setGlobal name value =
      (scope.setGlobal name value).withSpanned functions statuses := by
  unfold setGlobal withSpanned
  cases rebind? name value scope.inner <;> rfl

theorem Scope.Alike.set
    (alike : scope.Alike paired other)
    (name : String)
    (value : Value) :
    (scope.set name value).Alike paired (other.set name value) :=
  alike.map (·.set name value) fun scope functions statuses =>
    scope.withSpanned_set functions statuses name value

theorem Scope.Alike.setGlobal
    (alike : scope.Alike paired other)
    (name : String)
    (value : Value) :
    (scope.setGlobal name value).Alike paired (other.setGlobal name value) :=
  alike.map (·.setGlobal name value) fun scope functions statuses =>
    scope.withSpanned_setGlobal functions statuses name value

/-- The value of a name is looked up without a look at any token. -/
theorem Scope.Alike.lookup?_eq
    (alike : scope.Alike paired other)
    (name : String) :
    other.lookup? name = scope.lookup? name := by
  cases alike with
  | mk scope functions statuses =>
      unfold lookup? withSpanned
      rw [statuses.codes]
      rfl

theorem Scope.Alike.expand_eq
    (alike : scope.Alike paired other)
    (name : String) :
    other.expand name = scope.expand name := by
  rw [expand, expand, alike.lookup?_eq]

theorem Scope.Alike.operand_eq
    (alike : scope.Alike paired other)
    (text : String) :
    Arithmetic.operand other text = Arithmetic.operand scope text := by
  simp only [Arithmetic.operand, alike.lookup?_eq]

/-- Entering a call looks at no function but the one that is called, and not at its body. -/
theorem Scope.withSpanned_bindParams
    (scope : Scope)
    (functions : Table String Function)
    (statuses : StatusArray)
    (params : List String)
    (args : List Value) :
    (scope.withSpanned functions statuses).bindParams params args =
      (scope.bindParams params args).withSpanned functions statuses := by
  induction params generalizing scope args with
  | nil => cases args <;> rfl
  | cons param params inductionHypothesis =>
      cases args with
      | nil => rfl
      | cons arg args =>
          unfold bindParams
          rw [withSpanned_set]
          exact inductionHypothesis _ args

theorem Scope.Alike.enterCall
    {function otherFunction : Function}
    (alike : scope.Alike paired other)
    (functions : function.Alike paired otherFunction)
    (args : List Value) :
    (scope.enterCall function args).Alike paired (other.enterCall otherFunction args) := by
  cases functions with
  | @mk name params =>
      let enter (scope : Scope) : Scope :=
        (scope.pushFrame.setPositional name (args.map Value.display)).bindParams params args
      refine alike.map enter fun scope functions statuses => ?_
      exact Scope.withSpanned_bindParams
        (scope.pushFrame.setPositional name (args.map Value.display)) functions statuses params args

theorem Scope.Alike.leaveCall
    {caller otherCaller : Scope}
    (alike : scope.Alike paired other)
    (callers : caller.Alike paired otherCaller) :
    (scope.leaveCall caller).Alike paired (other.leaveCall otherCaller) := by
  cases callers with
  | mk caller _ _ =>
      refine alike.map (·.leaveCall caller) fun scope functions statuses => ?_
      rcases scope with ⟨inner, root⟩
      cases inner <;> rfl

end Scopes

section Tables

variable {κ ν : Type} [DecidableEq κ] {related : ν → ν → Prop} {table other : Table κ ν}

/-- Tables that are alike bind the same keys, to related values. -/
theorem Table.Alike.get?
    (alike : table.Alike related other)
    (key : κ) :
    Option.Rel related (table.get? key) (other.get? key) := by
  rcases table with ⟨entries⟩
  rcases other with ⟨otherEntries⟩
  change List.Forall₂ _ entries otherEntries at alike
  induction alike with
  | nil => exact .none
  | @cons entry otherEntry rest otherRest both _ inductionHypothesis =>
      by_cases found : entry.1 = key
      · simpa [Table.get?, found, both.1] using Option.Rel.some both.2
      · simpa [Table.get?, found, both.1] using inductionHypothesis

theorem Table.Alike.insert
    (alike : table.Alike related other)
    (key : κ)
    {value otherValue : ν}
    (values : related value otherValue) :
    (table.insert key value).Alike related (other.insert key otherValue) := by
  refine .cons ⟨rfl, values⟩ (List.rel_filter (fun entry otherEntry both => ?_) alike)
  dsimp only
  rw [both.1]

end Tables

/-- Functions of one name are alike, or there is none in either scope. -/
theorem Scope.Alike.function?
    {scope other : Scope}
    (alike : scope.Alike paired other)
    (name : String) :
    Option.Rel (Function.Alike paired) (scope.function? name) (other.function? name) := by
  cases alike with
  | mk scope functions statuses => exact functions.get? name

theorem Scope.Alike.define
    {scope other : Scope}
    {function otherFunction : Function}
    (alike : scope.Alike paired other)
    (functions : function.Alike paired otherFunction) :
    (scope.define function).Alike paired (other.define otherFunction) := by
  cases alike with
  | mk scope known statuses =>
      have sameName : otherFunction.name = function.name := by
        cases functions
        rfl
      unfold Scope.define
      rw [sameName]
      exact .mk scope (known.insert function.name functions) statuses

/-- To keep statuses of process substitutions that are alike leaves scopes alike. -/
theorem Scope.Alike.keepStatuses
    {scope other : Scope}
    {statuses otherStatuses : StatusArray}
    (alike : scope.Alike paired other)
    (statusesAlike : statuses.Alike paired otherStatuses) :
    Scope.Alike paired { scope with processSubStatus := statuses }
      { other with processSubStatus := otherStatuses } := by
  cases alike with
  | mk scope functions _ => exact .mk scope functions statusesAlike

/-- The set that runs and its peer change places alike. -/
theorem Machine.Alike.swap
    {machine other : Machine}
    (alike : machine.Alike paired other) :
    machine.swap.Alike paired other.swap where
  scope := alike.peerScope
  trace := alike.peerTrace
  host := alike.host
  peerScope := alike.scope
  peerTrace := alike.trace

/-- Machines stay alike if their scopes do. -/
theorem Machine.Alike.mapScope
    {machine other : Machine}
    (alike : machine.Alike paired other)
    {change otherChange : Scope → Scope}
    (scopes : (change machine.scope).Alike paired (otherChange other.scope)) :
    (machine.mapScope change).Alike paired (other.mapScope otherChange) where
  scope := scopes
  trace := alike.trace
  host := alike.host
  peerScope := alike.peerScope
  peerTrace := alike.peerTrace

namespace Run.Alike

variable {related : α → α → Prop} {relatedNext : β → β → Prop}

theorem pure
    {answer other : α}
    (answers : related answer other) :
    Run.Alike paired related (pure answer : Run α) (pure other) :=
  fun _ _ alike => .some ⟨answers, alike⟩

theorem bind
    {first otherFirst : Run α}
    {next otherNext : α → Run β}
    (firstAlike : Run.Alike paired related first otherFirst)
    (nextAlike : ∀ answer other,
      related answer other →
      Run.Alike paired relatedNext (next answer) (otherNext other)) :
    Run.Alike paired relatedNext (first >>= next) (otherFirst >>= otherNext) := by
  intro machine otherMachine alike
  have started := firstAlike alike
  change Option.Rel _ ((first machine).bind fun reached => next reached.1 reached.2)
    ((otherFirst otherMachine).bind fun reached => otherNext reached.1 reached.2)
  generalize first machine = reached at started
  generalize otherFirst otherMachine = otherReached at started
  cases started with
  | none => exact .none
  | some ended => exact nextAlike _ _ ended.1 ended.2

/-- Machines that are alike change to machines that are. -/
theorem ofModify
    {change otherChange : Machine → Machine}
    (changes : ∀ {machine other : Machine},
      machine.Alike paired other →
      (change machine).Alike paired (otherChange other)) :
    Run.Alike paired Eq (modify change : Run Unit) (modify otherChange) :=
  fun _ _ alike => .some ⟨rfl, changes alike⟩

/-- Scopes that are alike change to scopes that are. -/
theorem mapScope
    {change otherChange : Scope → Scope}
    (changes : ∀ {scope other : Scope},
      scope.Alike paired other →
      (change scope).Alike paired (otherChange other)) :
    Run.Alike paired Eq (modify fun machine => machine.mapScope change : Run Unit)
      (modify fun machine => machine.mapScope otherChange) :=
  ofModify fun machines => machines.mapScope (changes machines.scope)

theorem ofGet :
    Run.Alike paired (Machine.Alike paired) get get :=
  fun _ _ alike => .some ⟨alike, alike⟩

/-- Hosts with frames that are alike act alike if their actions do. -/
theorem onHost
    {inertAnswer otherAnswer : α}
    {action otherAction : MemoryHost → α × MemoryHost}
    (inert : related inertAnswer otherAnswer)
    (actions : ∀ (host : MemoryHost) {frames otherFrames : List (List (Int32 × SpanId))},
      FramesAlike paired frames otherFrames →
      related (action (host.withFrames frames)).1
          (otherAction (host.withFrames otherFrames)).1 ∧
        Host.Alike paired (.memory (action (host.withFrames frames)).2)
          (.memory (otherAction (host.withFrames otherFrames)).2)) :
    Run.Alike paired related (Run.onHost inertAnswer action)
      (Run.onHost otherAnswer otherAction) := by
  intro machine otherMachine alike
  have acted :
      related (machine.host.act inertAnswer action).1
          (otherMachine.host.act otherAnswer otherAction).1 ∧
        Host.Alike paired (machine.host.act inertAnswer action).2
          (otherMachine.host.act otherAnswer otherAction).2 := by
    have hosts := alike.host
    generalize machine.host = host at hosts
    generalize otherMachine.host = otherHost at hosts
    cases hosts with
    | inert => exact ⟨inert, .inert⟩
    | memory host frames => exact actions host frames
  exact .some ⟨acted.1, alike.scope, alike.trace, acted.2, alike.peerScope, alike.peerTrace⟩

/-- What has no part in the frames is done alike, with the same answer. -/
theorem frameless
    (inertAnswer : α)
    {action : MemoryHost → α × MemoryHost}
    (isFrameless : MemoryHost.Frameless action) :
    Run.Alike paired Eq (Run.onHost inertAnswer action) (Run.onHost inertAnswer action) := by
  refine onHost rfl fun host frames otherFrames framesAlike => ?_
  rw [isFrameless, isFrameless]
  exact ⟨rfl, .memory (action host).2 framesAlike⟩

end Run.Alike

namespace Eval.Alike

variable {related : α → α → Prop} {relatedNext : β → β → Prop}

theorem pure
    {answer other : α}
    (answers : related answer other) :
    Eval.Alike paired related (pure answer : Eval α) (pure other) :=
  fun _ _ alike => .some ⟨.ok answers, alike⟩

theorem throw
    {error other : RuntimeError}
    (errors : error.Alike paired other) :
    Eval.Alike paired related (throw error : Eval α) (throw other) :=
  fun _ _ alike => .some ⟨.error errors, alike⟩

theorem bind
    {first otherFirst : Eval α}
    {next otherNext : α → Eval β}
    (firstAlike : Eval.Alike paired related first otherFirst)
    (nextAlike : ∀ answer other,
      related answer other →
      Eval.Alike paired relatedNext (next answer) (otherNext other)) :
    Eval.Alike paired relatedNext (first >>= next) (otherFirst >>= otherNext) := by
  unfold Eval.Alike
  rw [ExceptT.run_bind, ExceptT.run_bind]
  refine Run.Alike.bind firstAlike fun reached other ended => ?_
  cases ended with
  | ok answers => exact nextAlike _ _ answers
  | error errors => exact Run.Alike.pure (ResultAlike.error errors)

theorem ofGet :
    Eval.Alike paired (Machine.Alike paired) get get :=
  fun _ _ alike => .some ⟨.ok alike, alike⟩

/-- What goes on from equal answers only has to be alike for each answer. -/
theorem bindEq
    {first otherFirst : Eval α}
    {next otherNext : α → Eval β}
    (firstAlike : Eval.Alike paired Eq first otherFirst)
    (nextAlike : ∀ answer, Eval.Alike paired relatedNext (next answer) (otherNext answer)) :
    Eval.Alike paired relatedNext (first >>= next) (otherFirst >>= otherNext) :=
  bind firstAlike fun answer _ same => same ▸ nextAlike answer

/-- The scope may be looked at, as far as it is alike. -/
theorem withScope
    {next otherNext : Scope → Eval β}
    (nextAlike : ∀ {scope other : Scope},
      scope.Alike paired other →
      Eval.Alike paired relatedNext (next scope) (otherNext other)) :
    Eval.Alike paired relatedNext (Eval.scope >>= next) (Eval.scope >>= otherNext) :=
  fun _ _ alike => nextAlike alike.scope alike

theorem mapScope
    {change otherChange : Scope → Scope}
    (changes : ∀ {scope other : Scope},
      scope.Alike paired other →
      (change scope).Alike paired (otherChange other)) :
    Eval.Alike paired Eq (Eval.mapScope change) (Eval.mapScope otherChange) :=
  fun _ _ alike => .some ⟨.ok rfl, alike.mapScope (changes alike.scope)⟩

/-- Outcomes that are alike are told alike. -/
theorem ofResult
    {result other : Except RuntimeError α}
    (results : ResultAlike paired related result other) :
    Eval.Alike paired related (Eval.ofExcept id result) (Eval.ofExcept id other) := by
  cases results with
  | ok answers => exact pure answers
  | error errors => exact throw errors

/-- An outcome whose error is about no token is told alike. -/
theorem ofExcept
    {wrap : ε → RuntimeError}
    {outcome : Except ε α}
    (tokenless : ∀ error, outcome = .error error → (wrap error).token? = none) :
    Eval.Alike paired Eq (Eval.ofExcept wrap outcome) (Eval.ofExcept wrap outcome) := by
  cases outcome with
  | ok answer => exact pure rfl
  | error error => exact throw (.tokenless (tokenless error rfl))

theorem require
    (env : Env)
    (connection : Connection) :
    Eval.Alike paired Eq (Eval.require env connection) (Eval.require env connection) := by
  unfold Eval.require
  split
  · exact pure rfl
  · exact throw (.tokenless rfl)

/-- What has no part in the frames, and fails over no token, is done alike. -/
theorem onHost
    {inertAnswer : α}
    {action : MemoryHost → Except RuntimeError α × MemoryHost}
    (frameless : MemoryHost.Frameless action)
    (tokenless : ∀ host error, (action host).1 = .error error → error.token? = none) :
    Eval.Alike paired Eq (Eval.onHost inertAnswer action) (Eval.onHost inertAnswer action) := by
  refine Run.Alike.onHost (.ok rfl) fun host frames otherFrames framesAlike => ?_
  rw [frameless, frameless]
  refine ⟨?_, .memory (action host).2 framesAlike⟩
  cases ended : (action host).1 with
  | ok answer => exact .ok rfl
  | error error => exact .error (.tokenless (tokenless host error ended))

theorem each
    {relatedItem : ι → ι → Prop}
    {evaluate otherEvaluate : ι → Eval α}
    {items otherItems : List ι}
    (itemsAlike : List.Forall₂ relatedItem items otherItems)
    (evaluateAlike : ∀ {item other : ι},
      relatedItem item other →
      Eval.Alike paired related (evaluate item) (otherEvaluate other)) :
    Eval.Alike paired (List.Forall₂ related) (Eval.each evaluate items)
      (Eval.each otherEvaluate otherItems) := by
  induction itemsAlike with
  | nil => exact pure .nil
  | cons item _ inductionHypothesis =>
      exact bind (evaluateAlike item) fun _ _ answer =>
        bind inductionHypothesis fun _ _ answers => pure (.cons answer answers)

/-- Items that have the same answers have the same list of answers. -/
theorem eachEq
    {relatedItem : ι → ι → Prop}
    {evaluate otherEvaluate : ι → Eval α}
    {items otherItems : List ι}
    (itemsAlike : List.Forall₂ relatedItem items otherItems)
    (evaluateAlike : ∀ {item other : ι},
      relatedItem item other →
      Eval.Alike paired Eq (evaluate item) (otherEvaluate other)) :
    Eval.Alike paired Eq (Eval.each evaluate items) (Eval.each otherEvaluate otherItems) := by
  have answers := each itemsAlike evaluateAlike
  rwa [List.forall₂_eq_eq_eq] at answers

theorem expandPrompt
    (env : Env)
    (template : String) :
    Eval.Alike paired Eq (Prompt.expand env template) (Prompt.expand env template) := by
  refine bindEq (eachEq (List.forall₂_eq_eq_eq ▸ rfl) fun {piece _} same => ?_) fun _ => pure rfl
  subst same
  cases piece with
  | text text => exact pure rfl
  | var name =>
      refine bindEq (require env _) fun _ => withScope fun scopes => ?_
      exact pure (scopes.expand_eq _).symm

theorem emitIfOn
    (env : Env)
    (text : String) :
    Eval.Alike paired Eq (Trace.emitIfOn env text) (Trace.emitIfOn env text) := by
  refine withScope fun {scope other} scopes => ?_
  have sameOption : other.xtrace = scope.xtrace := by
    cases scopes
    rfl
  rw [sameOption]
  split
  · refine bindEq (require env _) fun _ => bindEq (require env _) fun _ => ?_
    refine bindEq (expandPrompt env _) fun lead machine otherMachine alike => ?_
    refine .some ⟨.ok rfl, alike.scope, ?_, alike.host, alike.peerScope, alike.peerTrace⟩
    exact congrArg (· ++ [lead ++ text]) alike.trace
  · exact pure rfl

end Eval.Alike

end ShellCore
