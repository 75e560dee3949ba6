import ShellCore.Proofs.Evaluation.Keeping
import ShellCore.Evaluation.Trace

namespace ShellCore

/-!
# Erasure of tracing

To erase tracing is to turn it off and to forget what was traced and with which
prompt. An evaluation erases to another one if that does the same from the
erased machine on: it ends likewise, or runs out of fuel likewise, and leaves the
erasure of the machine behind.
-/

/-- The scope with tracing off. -/
def Scope.untraced
    (scope : Scope) :
    Scope :=
  { scope with xtrace := false }

/-- The session with tracing off and without traced lines. -/
def Session.untraced
    (session : Session) :
    Session where
  scope := session.scope.untraced
  trace := []

/-- The machine with tracing off and without traced lines, in the peer as well. -/
def Machine.untraced
    (machine : Machine) :
    Machine :=
  .ofSession machine.session.untraced machine.host machine.peer.untraced

/-- The setup without a prompt for traced lines. -/
def Setup.untraced
    (setup : Setup) :
    Setup :=
  { setup with ps4 := "" }

def Callback.untraced :
    Callback →
    Callback
  | .missing => .missing
  | .dropped => .dropped
  | .own => .own
  | .peer setup => .peer setup.untraced

def Env.untraced
    (env : Env) :
    Env where
  setup := env.setup.untraced
  callback := env.callback.untraced

/-- Every connection of the set has been made. -/
def Setup.Wired
    (setup : Setup) :
    Prop :=
  ∀ connection, connection ∈ setup.connections

/-- Every connection of the set that runs and of its peer has been made. -/
structure Env.Wired
    (env : Env) :
    Prop where
  own : env.setup.Wired
  peer : ∀ setup, env.callback = .peer setup → setup.Wired

namespace Env.Wired

variable {env : Env}

theorem untraced
    (wired : env.Wired) :
    env.untraced.Wired := by
  refine ⟨wired.own, fun setup isPeer => ?_⟩
  rcases env with ⟨own, callback⟩
  cases callback with
  | peer peerSetup =>
      cases isPeer
      exact wired.peer peerSetup rfl
  | missing | dropped | own => cases isPeer

theorem of_untraced
    (wired : env.untraced.Wired) :
    env.Wired :=
  ⟨wired.own, fun setup isPeer =>
    wired.peer setup.untraced (congrArg Callback.untraced isPeer)⟩

end Env.Wired

namespace Scope

theorem untraced_set
    (scope : Scope)
    (name : String)
    (value : Value) :
    (scope.set name value).untraced = scope.untraced.set name value := by
  unfold set untraced
  cases scope.inner <;> rfl

theorem untraced_setGlobal
    (scope : Scope)
    (name : String)
    (value : Value) :
    (scope.setGlobal name value).untraced = scope.untraced.setGlobal name value := by
  unfold setGlobal untraced
  dsimp only
  cases rebind? name value scope.inner <;> rfl

theorem untraced_bindParams
    (scope : Scope)
    (params : List String)
    (args : List Value) :
    (scope.bindParams params args).untraced = scope.untraced.bindParams params args := by
  induction params generalizing scope args with
  | nil => rfl
  | cons param rest inductionHypothesis =>
      cases args with
      | nil => rfl
      | cons arg others =>
          simp only [bindParams, inductionHypothesis, untraced_set]

theorem untraced_enterCall
    (scope : Scope)
    (function : Function)
    (args : List Value) :
    (scope.enterCall function args).untraced = scope.untraced.enterCall function args :=
  untraced_bindParams _ _ _

theorem untraced_leaveCall
    (scope caller : Scope) :
    (scope.leaveCall caller).untraced = scope.untraced.leaveCall caller.untraced := by
  rcases scope with ⟨inner, _, _, _, _, _, _, _, _⟩
  cases inner <;> rfl

end Scope

theorem Machine.untraced_mapScope
    {machine : Machine}
    {change bareChange : Scope → Scope}
    (same : (change machine.scope).untraced = bareChange machine.scope.untraced) :
    machine.untraced.mapScope bareChange = (machine.mapScope change).untraced :=
  congrArg (fun scope => { machine.untraced with scope := scope }) same.symm

namespace Run

/-- The computation does what another does, but for tracing. -/
def ErasesTo
    (full bare : Run α) :
    Prop :=
  ∀ machine : Machine,
    bare machine.untraced = (full machine).map fun ended => (ended.1, ended.2.untraced)

namespace ErasesTo

theorem pure
    (answer : α) :
    ErasesTo (pure answer : Run α) (pure answer) :=
  fun _ => rfl

theorem bind
    {first bareFirst : Run α}
    {next bareNext : α → Run β}
    (firstErases : first.ErasesTo bareFirst)
    (nextErases : ∀ answer, (next answer).ErasesTo (bareNext answer)) :
    (first >>= next).ErasesTo (bareFirst >>= bareNext) := by
  intro machine
  change (bareFirst machine.untraced).bind _ = Option.map _ ((first machine).bind _)
  rw [firstErases machine]
  cases first machine with
  | none => rfl
  | some ended => exact nextErases ended.1 ended.2

/-- The machine may be looked at, as far as tracing is not concerned. -/
theorem withMachine
    {next bareNext : Machine → Run α}
    (nextErases : ∀ machine, (next machine).ErasesTo (bareNext machine.untraced)) :
    (get >>= next).ErasesTo (get >>= bareNext) :=
  fun machine => nextErases machine machine

theorem modify
    {change bareChange : Machine → Machine}
    (same : ∀ machine, bareChange machine.untraced = (change machine).untraced) :
    ErasesTo (modify change) (modify bareChange) := by
  intro machine
  exact congrArg (fun changed => some ((), changed)) (same machine)

theorem onHost
    (inertAnswer : α)
    (action : MemoryHost → α × MemoryHost) :
    (Run.onHost inertAnswer action).ErasesTo (Run.onHost inertAnswer action) :=
  fun _ => rfl

end ErasesTo

end Run

namespace Eval

/-- The evaluation does what another does, but for tracing. -/
def ErasesTo
    (full bare : Eval α) :
    Prop :=
  Run.ErasesTo full.run bare.run

namespace ErasesTo

theorem pure
    (answer : α) :
    ErasesTo (pure answer : Eval α) (pure answer) :=
  fun _ => rfl

theorem throw
    (error : RuntimeError) :
    ErasesTo (throw error : Eval α) (throw error) :=
  fun _ => rfl

theorem bind
    {first bareFirst : Eval α}
    {next bareNext : α → Eval β}
    (firstErases : first.ErasesTo bareFirst)
    (nextErases : ∀ answer, (next answer).ErasesTo (bareNext answer)) :
    (first >>= next).ErasesTo (bareFirst >>= bareNext) := by
  unfold ErasesTo
  rw [ExceptT.run_bind, ExceptT.run_bind]
  refine Run.ErasesTo.bind firstErases fun reached => ?_
  cases reached with
  | ok answer => exact nextErases answer
  | error error => exact .pure _

theorem withMachine
    {next bareNext : Machine → Eval α}
    (nextErases : ∀ machine, (next machine).ErasesTo (bareNext machine.untraced)) :
    ErasesTo (get >>= next) (get >>= bareNext) :=
  fun machine => nextErases machine machine

theorem withScope
    {next bareNext : Scope → Eval α}
    (nextErases : ∀ scope, (next scope).ErasesTo (bareNext scope.untraced)) :
    (Eval.scope >>= next).ErasesTo (Eval.scope >>= bareNext) :=
  fun machine => nextErases machine.scope machine

theorem mapScope
    {change bareChange : Scope → Scope}
    (same : ∀ scope, (change scope).untraced = bareChange scope.untraced) :
    (Eval.mapScope change).ErasesTo (Eval.mapScope bareChange) := by
  intro machine
  change some (Except.ok (), machine.untraced.mapScope bareChange) =
    some (Except.ok (), (machine.mapScope change).untraced)
  rw [Machine.untraced_mapScope (same machine.scope)]

theorem ofExcept
    (wrap : ε → RuntimeError)
    (outcome : Except ε α) :
    (Eval.ofExcept wrap outcome).ErasesTo (Eval.ofExcept wrap outcome) := by
  cases outcome with
  | ok answer => exact pure answer
  | error error => exact throw (wrap error)

theorem require
    (env : Env)
    (connection : Connection) :
    (Eval.require env connection).ErasesTo (Eval.require env.untraced connection) := by
  unfold Eval.require Env.untraced Setup.untraced
  dsimp only
  split
  · exact pure ()
  · exact throw _

theorem onHost
    (inertAnswer : α)
    (action : MemoryHost → Except RuntimeError α × MemoryHost) :
    (Eval.onHost inertAnswer action).ErasesTo (Eval.onHost inertAnswer action) :=
  fun _ => rfl

end ErasesTo

end Eval

end ShellCore
