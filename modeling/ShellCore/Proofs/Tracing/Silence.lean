import ShellCore.Proofs.Evaluation.Sessions

namespace ShellCore

/-!
# Silence

No evaluation turns tracing on or off, and none adds a line to a trace while
tracing is off.
-/

namespace Scope

theorem xtrace_set
    (scope : Scope)
    (name : String)
    (value : Value) :
    (scope.set name value).xtrace = scope.xtrace := by
  unfold set
  split <;> rfl

theorem xtrace_setGlobal
    (scope : Scope)
    (name : String)
    (value : Value) :
    (scope.setGlobal name value).xtrace = scope.xtrace := by
  unfold setGlobal
  split <;> rfl

theorem xtrace_bindParams
    (scope : Scope)
    (params : List String)
    (args : List Value) :
    (scope.bindParams params args).xtrace = scope.xtrace := by
  induction params generalizing scope args with
  | nil => rfl
  | cons param rest inductionHypothesis =>
      cases args with
      | nil => rfl
      | cons arg others =>
          exact (inductionHypothesis _ others).trans (scope.xtrace_set param arg)

theorem xtrace_enterCall
    (scope : Scope)
    (function : Function)
    (args : List Value) :
    (scope.enterCall function args).xtrace = scope.xtrace :=
  xtrace_bindParams _ function.params args

theorem xtrace_leaveCall
    (scope caller : Scope) :
    (scope.leaveCall caller).xtrace = scope.xtrace := by
  unfold leaveCall popFrame?
  cases scope.inner <;> rfl

theorem Change.xtrace
    {change : Scope → Scope}
    (isChange : Change change)
    (scope : Scope) :
    (change scope).xtrace = scope.xtrace := by
  cases isChange with
  | lastStatus status => rfl
  | pipeStatus codes => rfl
  | set name value => exact scope.xtrace_set name value
  | setGlobal name value => exact scope.xtrace_setGlobal name value
  | define function => rfl

end Scope

/-- Tracing stayed on or off, and nothing was traced if it was off. -/
structure Session.Silent
    (before after : Session) :
    Prop where
  xtrace : after.scope.xtrace = before.scope.xtrace
  trace : before.scope.xtrace = false → after.trace = before.trace

/-- Both the set that runs and its peer were silent. -/
structure Machine.Silent
    (before after : Machine) :
    Prop where
  own : before.session.Silent after.session
  peer : before.peer.Silent after.peer

namespace Session.Silent

theorem refl
    (session : Session) :
    Silent session session :=
  ⟨rfl, fun _ => rfl⟩

theorem trans
    {left middle right : Session}
    (earlier : Silent left middle)
    (later : Silent middle right) :
    Silent left right where
  xtrace := later.xtrace.trans earlier.xtrace
  trace isOff := (later.trace (earlier.xtrace.trans isOff)).trans (earlier.trace isOff)

/-- Nothing is traced where only the scope changes, and keeps the option. -/
theorem of_scope
    {session : Session}
    {scope : Scope}
    (same : scope.xtrace = session.scope.xtrace) :
    session.Silent { session with scope := scope } :=
  ⟨same, fun _ => rfl⟩

theorem discipline :
    SessionDiscipline Silent where
  refl := refl
  trans := trans
  update _ _ isChange := of_scope (isChange.xtrace _)
  collect _ _ := of_scope rfl
  trace _ _ isOn := ⟨rfl, fun isOff => nomatch isOn.symm.trans isOff⟩
  frame function args inside :=
    (of_scope (Scope.xtrace_enterCall _ function args)).trans
      (inside.trans (of_scope (Scope.xtrace_leaveCall _ _)))
  isolation inside := ⟨rfl, inside.trace⟩

end Session.Silent

namespace Machine.Silent

theorem composable :
    Composable Machine.Silent where
  refl _ := ⟨.refl _, .refl _⟩
  trans earlier later := ⟨earlier.own.trans later.own, earlier.peer.trans later.peer⟩

/-- Nothing is traced where only the scope changes, and keeps the option. -/
theorem of_scope
    {machine : Machine}
    {scope : Scope}
    (same : scope.xtrace = machine.scope.xtrace) :
    machine.Silent { machine with scope := scope } :=
  ⟨.of_scope same, .refl _⟩

/-- Evaluation is silent where tracing is off. -/
theorem discipline :
    Discipline Machine.Silent := by
  have both : Machine.Silent = SessionDiscipline.lift Session.Silent := by
    funext before after
    exact propext ⟨fun silent => ⟨silent.own, silent.peer⟩, fun silent => ⟨silent.1, silent.2⟩⟩
  rw [both]
  exact Session.Silent.discipline.toDiscipline

end Machine.Silent

end ShellCore
