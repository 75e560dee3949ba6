import ShellCore.Proofs.Evaluation.Execution
import ShellCore.Proofs.Evaluation.Keeping
import ShellCore.Proofs.Scope.Resolution

namespace ShellCore

/-!
# Scopes as stacks of frames

Between entering a frame and leaving it, variables are assigned and removed, and more
frames are entered and left. A global assignment or a removal of a name that one of
these frames binds stays in that frame; the others reach the frames below, where they
do what they would do there alone. Nothing else is left when the frame is left.
-/

/-- A step that is taken on the variables of a scope. -/
inductive ScopeStep where
  | set (name : String) (value : Value)
  | setGlobal (name : String) (value : Value)
  | remove (name : String)
  | enter
  | leave

namespace ScopeStep

/-- The scope after a step; the root frame cannot be left. -/
def take?
    (scope : Scope) :
    ScopeStep →
    Option Scope
  | .set name value => some (scope.set name value)
  | .setGlobal name value => some (scope.setGlobal name value)
  | .remove name => some (scope.remove name).2
  | .enter => some scope.pushFrame
  | .leave => scope.popFrame?

/-- The scope after steps in a row. -/
def takeAll?
    (scope : Scope) :
    List ScopeStep →
    Option Scope
  | [] => some scope
  | step :: rest => (step.take? scope).bind fun next => takeAll? next rest

/-- Whether a step neither enters a frame nor leaves one. -/
def staysInFrame :
    ScopeStep →
    Bool
  | .set _ _ | .setGlobal _ _ | .remove _ => true
  | .enter | .leave => false

/--
Whether a step is a global assignment or a removal that resolves to one of so many
outer frames, because no frame above them binds its name.
-/
def reaches
    (depth : Nat)
    (scope : Scope) :
    ScopeStep →
    Bool
  | .setGlobal name _ | .remove name =>
      (scope.frames.take (scope.depth - depth)).all fun frame => (frame.get? name).isNone
  | _ => false

/-- Of steps in a row, those that reach so many outer frames. -/
def reaching
    (depth : Nat)
    (scope : Scope) :
    List ScopeStep →
    List ScopeStep
  | [] => []
  | step :: rest =>
      match step.take? scope with
      | none => []
      | some next =>
          if step.reaches depth scope then
            step :: reaching depth next rest
          else
            reaching depth next rest

/-- The steps leave the frames that they enter, and so many that were entered before. -/
inductive Balanced : Nat → List ScopeStep → Prop where
  | done :
      Balanced 0 []
  | inside {opened step rest} :
      step.staysInFrame = true → Balanced opened rest → Balanced opened (step :: rest)
  | enter {opened rest} :
      Balanced (opened + 1) rest → Balanced opened (.enter :: rest)
  | leave {opened rest} :
      Balanced opened rest → Balanced (opened + 1) (.leave :: rest)

end ScopeStep

namespace Scope

/-- The scope with more frames on top, innermost first. -/
def under
    (scope : Scope)
    (above : List Frame) :
    Scope :=
  { scope with inner := above ++ scope.inner }

section Shielding

variable {name : String}
variable {value : Value}

theorem rebind?_append
    (above below : List Frame) :
    rebind? name value (above ++ below) =
      ((rebind? name value above).map (· ++ below)).or
        ((rebind? name value below).map (above ++ ·)) := by
  induction above with
  | nil => simp [rebind?]
  | cons frame rest inductionHypothesis =>
      by_cases binds : frame.contains name
      · simp [rebind?, binds]
      · simp [rebind?, binds, inductionHypothesis, Function.comp_def, Option.map_or]

theorem unbind?_append
    (above below : List Frame) :
    unbind? name (above ++ below) =
      ((unbind? name above).map fun (taken, left) => (taken, left ++ below)).or
        ((unbind? name below).map fun (taken, left) => (taken, above ++ left)) := by
  induction above with
  | nil => simp [unbind?]
  | cons frame rest inductionHypothesis =>
      cases binds : frame.get? name with
      | some taken => simp [unbind?, binds]
      | none => simp [unbind?, binds, inductionHypothesis, Function.comp_def, Option.map_or]

theorem rebind?_of_unbound
    {frames : List Frame}
    (areUnbound : ∀ frame ∈ frames, Table.get? frame name = none) :
    rebind? name value frames = none := by
  apply Option.eq_none_iff_forall_ne_some.mpr
  intro rebound found
  obtain ⟨unbound, frame, outer, _, binds, rfl, _⟩ := rebind?_eq_some found
  simp [areUnbound] at binds

theorem unbind?_of_unbound
    {frames : List Frame}
    (areUnbound : ∀ frame ∈ frames, Table.get? frame name = none) :
    unbind? name frames = none := by
  apply Option.eq_none_iff_forall_ne_some.mpr
  rintro ⟨taken, left⟩ found
  obtain ⟨unbound, frame, outer, _, binds, rfl, _⟩ := unbind?_eq_some found
  simp [areUnbound] at binds

/--
A change acts where a name resolves: frames on top that do not bind the name make no
difference to it, and of frames on top that bind it nothing below is changed.
-/
structure ActsWhereResolved
    (name : String)
    (change : Scope → Scope) :
    Prop where
  depth : ∀ scope, (change scope).depth = scope.depth
  passed : ∀ (scope : Scope) (above : List Frame),
    (∀ frame ∈ above, Table.get? frame name = none) →
    change (scope.under above) = (change scope).under above
  shielded : ∀ (scope : Scope) (above : List Frame),
    (∃ frame ∈ above, (Table.get? frame name).isSome) →
    ∃ changed,
      changed.length = above.length ∧ change (scope.under above) = scope.under changed

theorem setGlobal_actsWhereResolved
    (name : String)
    (value : Value) :
    ActsWhereResolved name fun scope => scope.setGlobal name value where
  depth scope := by
    obtain ⟨level, resolves⟩ := scope.exists_resolves name
    exact (resolves.setGlobal_changes value).depth
  passed scope above areUnbound := by
    unfold setGlobal under
    rw [rebind?_append, rebind?_of_unbound areUnbound]
    cases rebind? name value scope.inner <;> simp
  shielded scope above bound := by
    obtain ⟨frame, isAbove, binds⟩ := bound
    cases rebound : rebind? name value above with
    | none => simp [rebind?_eq_none rebound frame isAbove] at binds
    | some changed =>
        refine ⟨changed, ?_, ?_⟩
        · obtain ⟨unbound, held, outer, _, _, rfl, rfl⟩ := rebind?_eq_some rebound
          simp
        · simp [setGlobal, under, rebind?_append, rebound]

theorem remove_actsWhereResolved
    (name : String) :
    ActsWhereResolved name fun scope => (scope.remove name).2 where
  depth scope := by
    obtain ⟨level, resolves⟩ := scope.exists_resolves name
    exact resolves.remove_changes.2.depth
  passed scope above areUnbound := by
    unfold remove under
    rw [unbind?_append, unbind?_of_unbound areUnbound]
    cases unbind? name scope.inner <;> simp
  shielded scope above bound := by
    obtain ⟨frame, isAbove, binds⟩ := bound
    cases unbound : unbind? name above with
    | none => simp [unbind?_eq_none unbound frame isAbove] at binds
    | some taken =>
        refine ⟨taken.2, ?_, ?_⟩
        · obtain ⟨others, held, outer, _, _, rfl, left⟩ := unbind?_eq_some unbound
          simp [left]
        · simp [remove, under, unbind?_append, unbound]

end Shielding

end Scope

namespace ScopeStep

section Reaching

/-- The frames above the outer ones are those that were put on top. -/
theorem take_frames_under
    (outer : Scope)
    (above : List Frame) :
    (outer.under above).frames.take ((outer.under above).depth - outer.depth) = above := by
  have count : (outer.under above).depth - outer.depth = above.length := by
    simp [Scope.depth, Scope.under]
  rw [count]
  simp [Scope.frames, Scope.under]

/-- A change on a scope with more frames on top reaches the frames below or does not. -/
theorem change_under
    {name : String}
    {change : Scope → Scope}
    (acts : Scope.ActsWhereResolved name change)
    (outer : Scope)
    (above : List Frame) :
    ∃ next changed,
      change (outer.under above) = next.under changed ∧
        changed.length = above.length ∧
        next.depth = outer.depth ∧
        next =
          if above.all fun frame => (frame.get? name).isNone then change outer else outer := by
  by_cases bound : ∃ frame ∈ above, (Table.get? frame name).isSome
  · obtain ⟨changed, same, taken⟩ := acts.shielded outer above bound
    obtain ⟨frame, isAbove, binds⟩ := bound
    have isShielded : above.all (fun frame => (frame.get? name).isNone) = false := by
      rw [List.all_eq_false]
      exact ⟨frame, isAbove, by simpa using Option.isSome_iff_ne_none.mp binds⟩
    exact ⟨outer, changed, taken, same, rfl, by simp [isShielded]⟩
  · have areUnbound : ∀ frame ∈ above, Table.get? frame name = none := fun frame isAbove =>
      Option.not_isSome_iff_eq_none.mp fun binds => bound ⟨frame, isAbove, binds⟩
    have isPassed : above.all (fun frame => (frame.get? name).isNone) = true := by
      simpa using areUnbound
    refine ⟨change outer, above, acts.passed outer above areUnbound, rfl, acts.depth outer, ?_⟩
    rw [if_pos isPassed]

/--
A step that enters or leaves no frame either reaches the outer frames, and does there
what it would do without the frames above, or it leaves them as they are.
-/
theorem take?_under
    {step : ScopeStep}
    (stays : step.staysInFrame = true)
    (outer : Scope)
    {above : List Frame}
    (isAbove : above ≠ []) :
    ∃ next changed,
      step.take? (outer.under above) = some (next.under changed) ∧
        changed.length = above.length ∧
        next.depth = outer.depth ∧
        (if step.reaches outer.depth (outer.under above) then step.take? outer else some outer) =
          some next := by
  cases step with
  | set name value =>
      obtain ⟨frame, others, rfl⟩ := List.exists_cons_of_ne_nil isAbove
      exact ⟨outer, frame.insert name value :: others, rfl, rfl, rfl, rfl⟩
  | setGlobal name value =>
      obtain ⟨next, changed, taken, same, depth, reached⟩ :=
        change_under (Scope.setGlobal_actsWhereResolved name value) outer above
      refine ⟨next, changed, congrArg some taken, same, depth, ?_⟩
      simp only [reaches, take_frames_under, reached, take?]
      split <;> rfl
  | remove name =>
      obtain ⟨next, changed, taken, same, depth, reached⟩ :=
        change_under (Scope.remove_actsWhereResolved name) outer above
      refine ⟨next, changed, congrArg some taken, same, depth, ?_⟩
      simp only [reaches, take_frames_under, reached, take?]
      split <;> rfl
  | enter => cases stays
  | leave => cases stays

/--
Steps that leave one of the frames on top, and all that they enter, leave the outer
frames as those of the steps leave them that reach these.
-/
theorem Balanced.takeAll?_under
    {opened : Nat}
    {steps : List ScopeStep}
    (balanced : Balanced opened steps)
    (outer : Scope)
    {above : List Frame}
    (isAbove : above.length = opened + 1) :
    ∃ left frame,
      takeAll? (outer.under above) steps = some (left.under [frame]) ∧
        takeAll? outer (reaching outer.depth (outer.under above) steps) = some left := by
  induction balanced generalizing outer above with
  | done =>
      obtain ⟨frame, rfl⟩ := List.length_eq_one_iff.mp isAbove
      exact ⟨outer, frame, rfl, rfl⟩
  | inside stays _ inductionHypothesis =>
      have notEmpty : above ≠ [] := List.ne_nil_of_length_eq_add_one isAbove
      obtain ⟨next, changed, taken, same, depth, reached⟩ :=
        take?_under stays outer notEmpty
      obtain ⟨left, frame, ended, outside⟩ := inductionHypothesis next (same.trans isAbove)
      rw [depth] at outside
      refine ⟨left, frame, by simp [takeAll?, taken, ended], ?_⟩
      simp only [reaching, taken]
      split at reached
      next reaches => simp [reaches, takeAll?, reached, outside]
      next passes =>
        cases reached
        simp [passes, outside]
  | enter _ inductionHypothesis =>
      exact @inductionHypothesis outer (.empty :: above) (congrArg Nat.succ isAbove)
  | leave _ inductionHypothesis =>
      obtain ⟨frame, others, rfl⟩ := List.exists_cons_of_length_eq_add_one isAbove
      exact inductionHypothesis outer (Nat.succ.inj isAbove)

end Reaching

end ScopeStep

namespace Scope

section Variables

variable {name : String}

/-- Behind a dollar sign the name is that of a variable, not of a parameter or a status. -/
structure IsVariable
    (name : String) :
    Prop where
  isOrdinary : name ∉ ["?", "#", "@", "PIPESTATUS", "_process_sub_status"]
  noPosition : Text.readPosition? name = none

theorem lookup?_of_isVariable
    (scope : Scope)
    (isVariable : IsVariable name) :
    scope.lookup? name = scope.get? name := by
  have isOrdinary := isVariable.isOrdinary
  simp only [List.mem_cons, List.not_mem_nil, or_false, not_or] at isOrdinary
  simp [lookup?, isOrdinary, isVariable.noPosition]

/-- However a variable is assigned, the value is what a lookup finds. -/
theorem get?_set_self
    (scope : Scope)
    (name : String)
    (value : Value) :
    (scope.set name value).get? name = some value :=
  (scope.set_changes name value).get?_self fun _ isCloser => absurd isCloser (Nat.not_lt_zero _)

theorem get?_setGlobal_self
    (scope : Scope)
    (name : String)
    (value : Value) :
    (scope.setGlobal name value).get? name = some value := by
  obtain ⟨level, resolves⟩ := scope.exists_resolves name
  exact (resolves.setGlobal_changes value).get?_self resolves.isInnermost

/-- An assignment binds its name to the text of its word. -/
theorem assignment_binds
    {env : Env}
    {word : Word}
    {before between : Machine}
    {text : String}
    (isConnected : Connection.commandToWord ∈ env.setup.connections)
    (evaluated : Answers env (.word word) before (.ok text) between)
    (name : String)
    (isLocal : Bool) :
    ∃ after,
      Answers env (.command (.assign name word isLocal)) before (.ok .ok) after ∧
        after.scope.get? name = some (.str text) := by
  obtain ⟨fuel, finished⟩ := evaluated
  let assigned := if isLocal then between.scope.set name (.str text)
    else between.scope.setGlobal name (.str text)
  refine ⟨between.mapScope fun _ => { assigned with lastStatus := 0 }, ⟨fuel + 1, ?_⟩, ?_⟩
  · have ran :
        (Commands.assign (evaluator fuel) env name word isLocal).run before =
          some (.ok .ok, between.mapScope fun _ => assigned) := by
      unfold Commands.assign Eval.require
      rw [if_pos isConnected, pure_bind]
      apply Eval.bind_answers_iff.mpr
      exact ⟨text, between, finished, rfl⟩
    apply Eval.bind_answers_iff.mpr
    exact ⟨.ok, _, ran, rfl⟩
  · change assigned.get? name = some (.str text)
    by_cases isLocal : isLocal
    · simp [assigned, isLocal, get?_set_self]
    · simp [assigned, isLocal, get?_setGlobal_self]

end Variables

/-- What is decided by the frame to which a name resolves. -/
structure GovernedAt
    (scope : Scope)
    (name : String)
    (level : Nat) :
    Prop where
  resolves : scope.Resolves name level
  found : scope.get? name = scope.bound? level name
  /-- A global assignment changes the binding there, or adds it to the root frame. -/
  assigned : ∀ value,
    ChangesBinding scope (scope.setGlobal name value) name level (some value) ∧
      (scope.setGlobal name value).get? name = some value ∧
      ∀ other, other ≠ name → (scope.setGlobal name value).get? other = scope.get? other
  /-- A removal takes the binding away, and yields it. -/
  removed :
    (scope.remove name).1 = scope.get? name ∧
      ChangesBinding scope (scope.remove name).2 name level none
  /-- Then a lookup finds the next binding further out. -/
  uncovered : ∀ value,
    (scope.remove name).2.get? name = some value ↔
      ∃ next,
        level < next ∧ scope.bound? next name = some value ∧
          ∀ between, level < between → between < next → scope.bound? between name = none

theorem exists_governedAt
    (scope : Scope)
    (name : String) :
    ∃ level, scope.GovernedAt name level := by
  obtain ⟨level, resolves⟩ := scope.exists_resolves name
  refine ⟨level, resolves, resolves.get?_eq, fun value => ?_, resolves.remove_changes, ?_⟩
  · have changes := resolves.setGlobal_changes value
    exact ⟨changes, scope.get?_setGlobal_self name value, fun _ => changes.get?_of_ne⟩
  · intro value
    exact resolves.remove_changes.2.get?_uncovered resolves.isInnermost

end Scope

/--
A scope is a stack of maps. Every name is governed by one frame, which a lookup reads
and a global assignment or a removal changes. Whatever happens between entering a frame
and leaving it, the frames below are left as those steps leave them that resolved to one
of them. And when a variable has been assigned, its value stands behind a dollar sign.
-/
theorem scope_is_stack_of_maps
    (scope : Scope)
    (name : String) :
    (∃ level, scope.GovernedAt name level) ∧
    (∀ steps,
      ScopeStep.Balanced 0 steps →
      ∃ ended left,
        ScopeStep.takeAll? scope.pushFrame steps = some ended ∧
          ended.popFrame? = some left ∧
          ScopeStep.takeAll? scope (ScopeStep.reaching scope.depth scope.pushFrame steps) =
            some left) ∧
    (Scope.IsVariable name →
      (∀ value,
        (scope.set name value).lookup? name = some value ∧
          (scope.setGlobal name value).lookup? name = some value) ∧
      ∀ {env : Env} {word : Word} {before between : Machine} {text : String} (isLocal : Bool),
        Connection.commandToWord ∈ env.setup.connections →
        Answers env (.word word) before (.ok text) between →
        ∃ after,
          Answers env (.command (.assign name word isLocal)) before (.ok .ok) after ∧
            after.scope.lookup? name = some (.str text) ∧
            Answers env (.word (.var name)) after (.ok text) after) := by
  refine ⟨scope.exists_governedAt name, ?_, fun isVariable => ⟨fun value => ?_, ?_⟩⟩
  · intro steps balanced
    obtain ⟨left, frame, ended, outside⟩ := balanced.takeAll?_under scope (List.length_singleton)
    exact ⟨_, left, ended, rfl, outside⟩
  · rw [Scope.lookup?_of_isVariable _ isVariable, Scope.lookup?_of_isVariable _ isVariable]
    exact ⟨scope.get?_set_self name value, scope.get?_setGlobal_self name value⟩
  · intro env word before between text isLocal isConnected evaluated
    obtain ⟨after, executed, binds⟩ :=
      Scope.assignment_binds isConnected evaluated name isLocal
    rw [← Scope.lookup?_of_isVariable _ isVariable] at binds
    refine ⟨after, executed, binds, 1, ?_⟩
    have expanded : after.scope.expand name = text := by
      simp [Scope.expand, binds, Value.display]
    exact congrArg (fun found => some (Except.ok found, after)) expanded

/-- Steps some of which a frame keeps from the frames below, until it binds the name no more. -/
def shieldedSteps : List ScopeStep :=
  [.setGlobal "x" (.int 2), .set "x" (.int 3), .setGlobal "x" (.int 4), .enter,
    .setGlobal "y" (.int 5), .remove "x", .leave, .remove "x"]

/-- A scope that binds a variable in its root frame. -/
def bindingRoot : Scope :=
  Scope.initial.set "x" (.int 1)

theorem shielded_steps_stay_inside :
    (∃ left,
      ((ScopeStep.takeAll? bindingRoot.pushFrame shieldedSteps).bind (·.popFrame?)) = some left ∧
        ScopeStep.takeAll? bindingRoot
            [.setGlobal "x" (.int 2), .setGlobal "y" (.int 5), .remove "x"] =
          some left) ∧
      ∃ after,
        Answers .connected (.command (.assign "x" (.literal "$x") false)) .fresh (.ok .ok) after ∧
          Answers .connected (.word (.var "x")) after (.ok "$x") after := by
  obtain ⟨_, stacked, assigned⟩ := scope_is_stack_of_maps bindingRoot "x"
  constructor
  · have balanced : ScopeStep.Balanced 0 shieldedSteps :=
      .inside rfl <| .inside rfl <| .inside rfl <| .enter <| .inside rfl <| .inside rfl <|
        .leave <| .inside rfl .done
    have reaching :
        ScopeStep.reaching bindingRoot.depth bindingRoot.pushFrame shieldedSteps =
          [.setGlobal "x" (.int 2), .setGlobal "y" (.int 5), .remove "x"] := by
      rfl
    obtain ⟨ended, left, ran, popped, outside⟩ := stacked shieldedSteps balanced
    rw [reaching] at outside
    exact ⟨left, by rw [ran]; exact popped, outside⟩
  · have isVariable : Scope.IsVariable "x" := ⟨by decide, by decide⟩
    have evaluated : Answers .connected (.word (.literal "$x")) .fresh (.ok "$x") .fresh :=
      ⟨1, rfl⟩
    obtain ⟨after, executed, _, expanded⟩ :=
      (assigned isVariable).2 false (Connection.mem_all _) evaluated
    exact ⟨after, executed, expanded⟩

end ShellCore
