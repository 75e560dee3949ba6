import ShellCore.Proofs.Evaluation.Sessions

namespace ShellCore

/-!
# Isolated commands leave the scope alone

A host runs the commands that it is given isolated, and a peer that runs them never
touches the session of the set that called its host. So whatever such a command
does, the scope is what it was before.
-/

namespace Machine

/-- The scope is what it was. -/
def SameScope
    (before after : Machine) :
    Prop :=
  after.scope = before.scope

/-- The session of the peer is what it was. -/
def SamePeer
    (before after : Machine) :
    Prop :=
  after.peer = before.peer

namespace SamePeer

theorem hostFree :
    HostFree SamePeer where
  refl _ := rfl
  trans earlier later := later.trans earlier
  host _ _ := rfl

/-- Where no command runs in the peer, nothing touches the session of the peer. -/
theorem discipline :
    LocalDiscipline SamePeer :=
  hostFree.toLocalDiscipline (fun _ _ => rfl) (fun _ => rfl) (fun _ _ => rfl)
    (fun _ _ inside => inside) (fun inside => inside)

end SamePeer

namespace SameScope

theorem hostFree :
    HostFree SameScope where
  refl _ := rfl
  trans earlier later := later.trans earlier
  host _ _ := rfl

theorem composable :
    Composable SameScope :=
  hostFree.toComposable

theorem keeps_keepingScope
    (evaluation : Eval α) :
    Eval.Keeps SameScope (Isolation.keepingScope evaluation) := by
  intro before after result finished
  rw [Isolation.run_keepingScope] at finished
  obtain ⟨⟨_, between⟩, ran, left⟩ := Option.map_eq_some_iff.mp finished
  cases left
  rfl

theorem keeps_emitIfOn
    (env : Env)
    (text : String) :
    Eval.Keeps SameScope (Trace.emitIfOn env text) := by
  refine composable.bind composable.scope fun scope => Eval.Keeps.ite ?_ (composable.pure ())
  intro before after result finished
  rcases Trace.emit_cases finished with rfl | ⟨line, rfl⟩ <;> rfl

end SameScope

end Machine

open Machine

/--
What a host is given to run has no effect on the scope, neither on that of the set
that it runs in nor on that of another set, whose host called this one back.
-/
structure Confined
    (evaluation : Env → Eval α) :
    Prop where
  scope : ∀ env, Eval.Keeps SameScope (evaluation env)
  peer : ∀ env : Env, env.IsLocal → Eval.Keeps SamePeer (evaluation env)

/-- What an evaluator runs isolated for a host is confined. -/
def Evaluator.Isolates
    (below : Evaluator) :
    Prop :=
  ∀ command, Confined fun env => Isolation.execute below env command

namespace Confined

/-- A command that runs isolated is confined, if the evaluator leaves the peer alone. -/
theorem of_keepsPeer
    {below : Evaluator}
    {command : Command}
    (keepsPeer : ∀ env : Env, env.IsLocal → Eval.Keeps SamePeer (below.command env command)) :
    Confined fun env => Isolation.execute below env command where
  scope _ :=
    SameScope.composable.bind (SameScope.keeps_keepingScope _) fun _ =>
      SameScope.composable.pure _
  peer env isLocal :=
    SamePeer.discipline.bind (SamePeer.discipline.keepingScope (keepsPeer env isLocal)) fun _ =>
      SamePeer.discipline.pure _

/-- A command that runs isolated is confined, whatever it is. -/
theorem isolated
    (fuel : Nat) :
    Evaluator.Isolates (evaluator fuel) :=
  fun command => of_keepsPeer fun _ isLocal =>
    SamePeer.discipline.evaluator fuel isLocal (.command command)

theorem each
    {evaluate : Env → α → Eval β}
    (itemConfined : ∀ item, Confined fun env => evaluate env item)
    (items : List α) :
    Confined fun env => Eval.each (evaluate env) items where
  scope env := SameScope.composable.each fun item _ => (itemConfined item).scope env
  peer env isLocal :=
    SamePeer.discipline.each fun item _ => (itemConfined item).peer env isLocal

theorem captured
    {evaluation : Env → Eval α}
    (confined : Confined evaluation) :
    Confined fun env => Host.withCapture (evaluation env) where
  scope env :=
    SameScope.hostFree.withCapture (confined.scope env)
  peer env isLocal := SamePeer.discipline.capture (confined.peer env isLocal)

/-- What is confined leaves the scope as it was, whichever set the host calls back. -/
theorem callBack
    {evaluation : Env → Eval α}
    (confined : Confined evaluation)
    (env : Env) :
    Eval.Keeps SameScope (Host.callBack env evaluation) := by
  unfold Host.callBack
  cases env.callback with
  | missing => exact SameScope.composable.throw _
  | dropped => exact SameScope.composable.throw _
  | own => exact confined.scope env
  | peer setup =>
      intro before after result finished
      rw [Host.run_inPeer] at finished
      obtain ⟨⟨_, between⟩, ran, left⟩ := Option.map_eq_some_iff.mp finished
      cases left
      -- inside, the session of the caller is that of the peer
      have peerKept : between.peer = before.session :=
        confined.peer ⟨setup, .own⟩ (fun _ => nofun) ran
      exact congrArg Session.scope peerKept

theorem recorded
    {evaluation : Env → Eval α}
    (confined : Confined evaluation)
    (env : Env)
    (call : HostCall)
    (inertAnswer : β)
    {next : α → Eval β}
    (nextKeeps : ∀ answer, Eval.Keeps SameScope (next answer)) :
    Eval.Keeps SameScope
      (Host.recorded call inertAnswer (Host.callBack env evaluation >>= next)) :=
  SameScope.composable.recorded (.onHost (SameScope.hostFree.onHost _ _)) inertAnswer
    (SameScope.composable.bind (confined.callBack env) nextKeeps)

end Confined

end ShellCore
