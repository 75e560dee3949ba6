import ShellCore.Proofs.Scope.Shielding

namespace ShellCore

/-!
# The frames of functions

A command leaves as many frames as it finds, with the names that they bind; only
local assignments of its own add names, and only to the innermost frame. So when a
function returns, the frame that it leaves is the one that was entered for it, and
with that frame goes what it bound as a parameter or by a local assignment. A frame
of the caller takes an assignment only where no frame of the call binds the name.
-/

/--
The functions that a call may lead to: the one that is called, those that the scope
holds, and those that these define.
-/
inductive Function.InPlay (scope : Scope) (called : Function) : Function → Prop where
  | called :
      InPlay scope called called
  | held {name function} :
      scope.function? name = some function → InPlay scope called function
  | defined {outer inner} :
      InPlay scope called outer → CommandList.Runs outer.body (.define inner) →
      InPlay scope called inner

/-- Commands assign a name locally at most, and define nothing but admitted functions. -/
def CommandList.Spares
    (name : String)
    (admitted : Function → Prop)
    (commands : List Command) :
    Prop :=
  ∀ part,
    Runs commands part →
    part.assigned? ≠ some name ∧ ∀ function, part = .define function → admitted function

namespace Scope

/--
There are as many frames and the same parameters. Every frame binds what it bound,
and none but the root frame binds more, except for local names in the innermost
one. Below a frame that binds a name, the name keeps its values.
-/
structure KeepsFrames
    (isLocal : String → Prop)
    (before after : Scope) :
    Prop where
  scriptName : after.scriptName = before.scriptName
  positional : after.positional = before.positional
  depth : after.depth = before.depth
  kept : ∀ level name,
    (before.bound? level name).isSome → (after.bound? level name).isSome
  added : ∀ level name,
    level + 1 < before.depth →
    (after.bound? level name).isSome →
    (before.bound? level name).isSome ∨ level = 0 ∧ isLocal name
  shielded : ∀ level below name,
    level < below →
    (before.bound? level name).isSome →
    after.bound? below name = before.bound? below name

/--
What the caller of a function finds when a call with so many arguments is over, where
it is known for which lowest frames and which names a shielded run of the call ends.
-/
structure Restored
    (function : Function)
    (arguments : Nat)
    (endsShielded : Nat → String → Prop)
    (before after : Scope) :
    Prop where
  frames : KeepsFrames (fun _ => False) before after
  /-- Nothing is left of the parameters that were bound. -/
  params : ∀ name ∈ function.params.take arguments,
    after.bindings name = before.bindings name
  /-- Nothing is left of a name that was assigned locally or not at all. -/
  locals : ∀ name,
    (∀ other, function.InPlay before other →
      ∀ part, CommandList.Runs other.body part → part.assigned? ≠ some name) →
    after.bindings name = before.bindings name
  /--
  The lowest frames of the caller keep what they bind a name to, unless the call comes
  to where the name is assigned, not locally, while no frame above them binds it.
  -/
  lowest : ∀ lowest name,
    lowest ≤ before.depth →
    endsShielded lowest name →
    (after.bindings name).drop (before.depth - lowest) =
      (before.bindings name).drop (before.depth - lowest)

theorem KeepsFrames.of_rebound
    {isLocal : String → Prop}
    {before after : Scope}
    (parameters :
      after.scriptName = before.scriptName ∧ after.positional = before.positional)
    (rebound : ∀ name, Rebound (isLocal name) (before.bindings name) (after.bindings name)) :
    KeepsFrames isLocal before after where
  scriptName := parameters.1
  positional := parameters.2
  depth := by
    simpa using (rebound "").length_eq
  kept level name isBound := (rebound name).kept level isBound
  added level name isInner isBound := by
    refine (rebound name).added level ?_ isBound
    simpa using isInner
  shielded level below name isBelow isBound :=
    (rebound name).shielded level isBound isBelow

section Unassigned

variable {allowed : String → Scope → Prop}
variable {commands : List Command}
variable {before after : Scope}
variable {name : String}
variable {admitted : Function → Prop}

/--
If only admitted functions are held and defined, and these assign a name locally at
most, then below the innermost frame nothing happens to the name.
-/
theorem Effect.keeps_outer_bindings
    (closed : ∀ function, admitted function →
      CommandList.Spares name admitted function.body)
    (effect : Effect allowed commands before after)
    (spares : CommandList.Spares name admitted commands)
    (holds : ∀ other function, before.function? other = some function → admitted function) :
    (∀ other function, after.function? other = some function → admitted function) ∧
      (after.bindings name).tail = (before.bindings name).tail := by
  induction effect with
  | none => exact ⟨holds, rfl⟩
  | next _ _ first second =>
      obtain ⟨stillHolds, firstSame⟩ := first spares holds
      obtain ⟨finallyHolds, secondSame⟩ := second spares stillHolds
      exact ⟨finallyHolds, secondSame.trans firstSame⟩
  | statuses => exact ⟨holds, rfl⟩
  | @assign _ scope other _ value isPart assigns _ =>
      have distinct : name ≠ other := by
        rintro rfl
        exact (spares _ isPart).1 assigns
      obtain ⟨_, _, shape⟩ := scope.setGlobal_frame other value
      refine ⟨by simpa only [function?, shape] using holds, ?_⟩
      rw [scope.bindings_setGlobal_of_ne value distinct]
  | @assignLocal _ scope other word value isPart =>
      obtain ⟨_, _, shape⟩ := scope.set_frame other value
      refine ⟨by simpa only [function?, shape] using holds, ?_⟩
      by_cases same : name = other
      · subst same
        rw [bindings_set_self]
        rfl
      · rw [scope.bindings_set_of_ne value same]
  | @define _ scope function isPart =>
      refine ⟨fun other found isFound => ?_, rfl⟩
      by_cases same : other = function.name
      · subst same
        simp only [function?, Scope.define, Table.get?_insert_self] at isFound
        cases isFound
        exact (spares _ isPart).2 _ rfl
      · simp only [function?, Scope.define, Table.get?_insert_of_ne _ _ same] at isFound
        exact holds other found isFound
  | @call _ before ended _ function args isHeld _ inductionHypothesis =>
      have spared := closed function (holds _ function isHeld)
      have entered :
          ∀ other held,
            (before.enterCall function args).function? other = some held → admitted held := by
        simpa [function?] using holds
      obtain ⟨stillHolds, sameTail⟩ := inductionHypothesis spared entered
      -- the frame of the call is the only one in which its body may have bound the name
      rw [bindings_of_call sameTail]
      refine ⟨?_, rfl⟩
      simpa [function?] using stillHolds

end Unassigned

namespace Restored

variable {function : Function}
variable {arguments : Nat}
variable {endsShielded : Nat → String → Prop}

/-- A call that does not come about leaves everything as it was. -/
theorem refl
    (scope : Scope) :
    Restored function arguments endsShielded scope scope where
  frames := .of_rebound ⟨rfl, rfl⟩ fun name => .refl (scope.bindings_ne_nil name)
  params _ _ := rfl
  locals _ _ := rfl
  lowest _ _ _ _ := rfl

/-- In a shielded run, a call leaves the lowest frames of its caller alone. -/
theorem drop_of_called
    {lowest : Nat}
    {name : String}
    {args : List Value}
    {before after : Scope}
    (called : Called (AllowsShielded lowest name) function args before after)
    (isCaller : lowest ≤ before.depth) :
    (after.bindings name).drop (before.depth - lowest) =
      (before.bindings name).drop (before.depth - lowest) := by
  cases called with
  | left effect =>
      have sameDepth := (effect.rebound name).length_eq
      rw [length_bindings, length_bindings, depth_enterCall] at sameDepth
      have same := effect.drop_bindings (by rw [depth_enterCall]; omega)
      rw [depth_enterCall, Nat.succ_sub isCaller] at same
      refine drop_bindings_of_call same ?_
      rw [sameDepth]
      exact Nat.succ_lt_succ (Nat.succ_pos _)

/-- A call leaves to its caller what the caller had. -/
theorem of_called
    {allowed : String → Scope → Prop}
    {args : List Value}
    {before after : Scope}
    (called : Called allowed function args before after)
    (shielded : ∀ lowest name,
      endsShielded lowest name →
      after = before ∨ Called (AllowsShielded lowest name) function args before after) :
    Restored function args.length endsShielded before after := by
  cases called with
  | @left ended effect =>
      refine {
        frames := .of_rebound ⟨rfl, rfl⟩ fun name => (Rebound.of_call (effect.rebound name)).1
        params := fun name isParam => (Rebound.of_call (effect.rebound name)).2 isParam
        locals := fun name spared => ?_
        lowest := fun lowest name isCaller ends => ?_
      }
      · have closed :
            ∀ other, function.InPlay before other →
              CommandList.Spares name (function.InPlay before) other.body := by
          intro other inPlay part isPart
          refine ⟨spared other inPlay part isPart, ?_⟩
          rintro inner rfl
          exact .defined inPlay isPart
        apply bindings_of_call
        refine (effect.keeps_outer_bindings closed (closed function .called) ?_).2
        intro other held isHeld
        refine .held (?_ : before.function? other = some held)
        simpa [function?] using isHeld
      · rcases shielded lowest name ends with same | called
        · rw [same]
        · exact drop_of_called called isCaller

end Restored

end Scope

section Shielded

variable {lowest : Nat}
variable {name : String}
variable {function : Function}
variable {env : Env}
variable {fuel : Nat}
variable {before after : Machine}

/-- If the shielded run of a procedure's call ends, it tells what the call does. -/
theorem Function.shielded_callProc
    {argv : List String}
    {result : Except RuntimeError Int32}
    (finished :
      (function.callProc (evaluator fuel) env argv).run before = some (result, after))
    (ends :
      ((function.callProc (shieldedEvaluator lowest name fuel) env argv).run before).isSome) :
    before.SameScope after ∨
      Scope.Called (Scope.AllowsShielded lowest name) function ((argv.drop 1).map .str)
        before.scope after.scope := by
  obtain ⟨ended, ran⟩ := Option.isSome_iff_exists.mp ends
  have refined :
      (function.callProc (shieldedEvaluator lowest name fuel) env argv).RefinedBy
        (function.callProc (evaluator fuel) env argv) :=
    Eval.RefinedBy.congruence.callProc (shieldedEvaluator_refinedBy fuel) rfl function argv
  cases (refined ran).symm.trans finished
  exact (shieldedEvaluator_hasEffects fuel).callProc env ran

theorem Function.shielded_callTyped
    {args : List Value}
    {result : Except RuntimeError Value}
    (finished :
      (function.callTyped (evaluator fuel) env args).run before = some (result, after))
    (ends :
      ((function.callTyped (shieldedEvaluator lowest name fuel) env args).run before).isSome) :
    before.SameScope after ∨
      Scope.Called (Scope.AllowsShielded lowest name) function args before.scope
        after.scope := by
  obtain ⟨ended, ran⟩ := Option.isSome_iff_exists.mp ends
  have refined :
      (function.callTyped (shieldedEvaluator lowest name fuel) env args).RefinedBy
        (function.callTyped (evaluator fuel) env args) :=
    Eval.RefinedBy.congruence.callTyped (shieldedEvaluator_refinedBy fuel) rfl function args
  cases (refined ran).symm.trans finished
  exact (shieldedEvaluator_hasEffects fuel).callTyped env ran

end Shielded

/--
However a call of a function ends, its caller finds its own frames and parameters,
without what was bound for the call. What a frame of the caller binds a name to changes
only where the call assigns the name, not locally, while no frame above binds it: this
is what a shielded run of the call would not get past. The frame that is left is never
the root frame. And however a command ends, it leaves the frames that it found, where
only the local assignments that it runs by itself may have added names to the innermost.
-/
theorem function_frames_are_invisible
    (function : Function)
    (env : Env)
    (fuel : Nat)
    (before after : Machine) :
    (∀ argv result,
      (function.callProc (evaluator fuel) env argv).run before = some (result, after) →
      Scope.Restored function (argv.drop 1).length
        (fun lowest name =>
          ((function.callProc (shieldedEvaluator lowest name fuel) env argv).run
            before).isSome)
        before.scope after.scope) ∧
    (∀ args result,
      (function.callTyped (evaluator fuel) env args).run before = some (result, after) →
      Scope.Restored function args.length
        (fun lowest name =>
          ((function.callTyped (shieldedEvaluator lowest name fuel) env args).run
            before).isSome)
        before.scope after.scope) ∧
    (∀ args result,
      (CommandList.execute (evaluator fuel) env function.body).run
          (before.mapScope fun scope => scope.enterCall function args) =
        some (result, after) →
      after.scope.depth = before.scope.depth + 1 ∧ after.scope.popFrame?.isSome) ∧
    (∀ command result,
      Executes env command before result after →
      Scope.KeepsFrames (fun name => ∃ value, command.Runs (.assign name value true))
        before.scope after.scope) := by
  have effects := hasEffects fuel
  refine ⟨?_, ?_, ?_, ?_⟩
  · intro argv result finished
    rcases effects.callProc env finished with same | called
    · rw [same]
      exact .refl before.scope
    · rw [← List.length_map Value.str]
      exact .of_called called fun _ _ => Function.shielded_callProc finished
  · intro args result finished
    rcases effects.callTyped env finished with same | called
    · rw [same]
      exact .refl before.scope
    · exact .of_called called fun _ _ => Function.shielded_callTyped finished
  · intro args result finished
    have effect := effects.commandList env (fun _ runs => runs) finished
    have isInner : after.scope.depth = before.scope.depth + 1 := by
      simpa [Machine.mapScope] using (effect.rebound "").length_eq
    refine ⟨isInner, Scope.popFrame?_isSome ?_⟩
    rw [isInner]
    exact Nat.succ_lt_succ (Nat.succ_pos _)
  · rintro command result ⟨others, finished⟩
    have effect := (hasEffects others).command env command finished
    refine .of_rebound effect.parameters fun name => ?_
    simpa only [CommandList.runs_singleton] using effect.rebound name

/-- A function that assigns a variable of its caller, and twice another one of its own. -/
def meddling : Function where
  name := "meddle"
  params := []
  body :=
    [.assign "who" (.literal "me") false, .assign "own" (.literal "b") true,
      .assign "own" (.literal "c") false]
  typed := false
  span := ⟨1⟩

/-- A function that loops over nothing, calls the other one in a loop, and then fails. -/
def shadowing : Function where
  name := "shadow"
  params := ["who"]
  body :=
    [.forEach "own" [] [],
      .assign "own" (.var "who") true,
      .forEach "x" [.literal "a"] [.simple [.literal "meddle", .var "x"] ⟨2⟩],
      .assign "y" (.arith (.binary .div (.number 1) (.number 0))) false]
  typed := false
  span := ⟨3⟩

/-- A machine in a frame that binds a variable. -/
def Machine.inFrame : Machine :=
  fresh.mapScope fun scope => (scope.define meddling).pushFrame.set "who" (.str "you")

theorem shadowing_call_is_invisible :
    ∃ error after,
      (shadowing.callProc (evaluator 8) .connected ["shadow", "z"]).run .inFrame =
          some (.error error, after) ∧
        Scope.Restored shadowing 1
          (fun lowest name =>
            ((shadowing.callProc (shieldedEvaluator lowest name 8) .connected
              ["shadow", "z"]).run .inFrame).isSome)
          Machine.inFrame.scope after.scope ∧
        after.scope.bindings "who" = Machine.inFrame.scope.bindings "who" ∧
        ((shadowing.callProc (shieldedEvaluator 2 "own" 8) .connected
          ["shadow", "z"]).run .inFrame).isSome ∧
        after.scope.bindings "own" = Machine.inFrame.scope.bindings "own" ∧
        (after.scope.bindings "own").map Option.isSome = [false, false] ∧
        (after.scope.bindings "x").map Option.isSome = [false, true] := by
  have ran :
      ((shadowing.callProc (evaluator 8) .connected ["shadow", "z"]).run .inFrame).map
          (fun ended => (ended.1.toBool, (ended.2.scope.bindings "own").map Option.isSome,
            (ended.2.scope.bindings "x").map Option.isSome)) =
        some (false, [false, false], [false, true]) := by
    decide +kernel
  have endsShielded :
      ((shadowing.callProc (shieldedEvaluator 2 "own" 8) .connected
        ["shadow", "z"]).run .inFrame).isSome := by
    decide +kernel
  obtain ⟨⟨result, after⟩, finished, shape⟩ := Option.map_eq_some_iff.mp ran
  have restored :=
    (function_frames_are_invisible shadowing .connected 8 .inFrame after).1 _ result finished
  obtain ⟨failed, names⟩ := Prod.mk.inj shape
  obtain ⟨own, x⟩ := Prod.mk.inj names
  cases result with
  | ok status => cases failed
  | error error =>
      exact ⟨error, after, finished, restored, restored.params "who" (.head []), endsShielded,
        restored.lowest 2 "own" (Nat.le_refl 2) endsShielded, own, x⟩

end ShellCore
