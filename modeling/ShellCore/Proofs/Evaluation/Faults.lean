import ShellCore.Proofs.Host.Wiring
import ShellCore.Proofs.Tracing.Evaluation

namespace ShellCore

/-!
# Evaluations without faults

An evaluation meets a fault only where a connection is missing, where the host
finds no set to call back, or where a callable answers with one. Where none of
these happens, no evaluation ends with a fault, at whatever depth.
-/

/-- The errors of a callable are errors of the program that calls it. -/
def Callable.IsHarmless
    (callable : Callable) :
    Prop :=
  ∀ args error, callable args = .error error → error.isFatal = false

/-- Every callable of the set is harmless. -/
def Setup.IsHarmless
    (setup : Setup) :
    Prop :=
  ∀ name callable, setup.callables.get? name = some callable → callable.IsHarmless

namespace Host

/-- Whether a host is in memory, so that it calls back what it is given to run. -/
def isMemory
    (host : Host) :
    Bool :=
  host.memory?.isSome

theorem Related.isMemory_eq
    {relation : MemoryHost → MemoryHost → Prop}
    {before after : Host}
    (related : before.Related relation after) :
    after.isMemory = before.isMemory := by
  cases related <;> rfl

end Host

/--
An environment in which nothing is missing: the sets are wired, their callables
harmless, and a host in memory finds a set to call back.
-/
structure Env.Sound
    (inMemory : Bool)
    (env : Env) :
    Prop where
  wired : env.Wired
  harmless : env.setup.IsHarmless
  peerHarmless : ∀ setup, env.callback = .peer setup → setup.IsHarmless
  alive : inMemory = true → env.callback.isAlive = true

/-- The environment of a peer that is called back is sound as well. -/
theorem Env.Sound.peer
    {inMemory : Bool}
    {own setup : Setup}
    (sound : Env.Sound inMemory ⟨own, .peer setup⟩) :
    Env.Sound inMemory ⟨setup, .own⟩ where
  wired := ⟨sound.wired.peer setup rfl, nofun⟩
  harmless := sound.peerHarmless setup rfl
  peerHarmless := nofun
  alive _ := rfl

/-- The evaluation ends with no fault, and leaves the host wired as it is. -/
structure Eval.Faultless
    (inMemory : Bool)
    (evaluation : Eval α) :
    Prop where
  wiring : Eval.Keeps (HostDiscipline.lift MemoryHost.SameWiring) evaluation
  errors : ∀ ⦃before after : Machine⦄ ⦃error : RuntimeError⦄,
    before.host.isMemory = inMemory →
    evaluation.run before = some (.error error, after) →
    error.isFatal = false

/-- What evaluation keeps of the wiring. -/
theorem MemoryHost.SameWiring.evaluation :
    Discipline (HostDiscipline.lift MemoryHost.SameWiring) :=
  MemoryHost.SameWiring.discipline.toDiscipline

/-- A command that cannot be run is an error of the program. -/
theorem MemoryHost.runInProcess_not_fatal
    {host : MemoryHost}
    {builtin : Builtin}
    {argv : List String}
    {error : RuntimeError}
    (failed : (host.runInProcess builtin argv).1 = .error error) :
    error.isFatal = false := by
  unfold runInProcess at failed
  split at failed <;> cases failed
  rfl

theorem MemoryHost.runSimple_not_fatal
    {host : MemoryHost}
    {argv : List String}
    {error : RuntimeError}
    (failed : (host.runSimple argv).1 = .error error) :
    error.isFatal = false := by
  unfold runSimple at failed
  dsimp only at failed
  split at failed
  · cases failed
  · split at failed
    · exact runInProcess_not_fatal failed
    · cases failed

theorem MemoryHost.runBuiltin_not_fatal
    {host : MemoryHost}
    {name : String}
    {argv : List String}
    {error : RuntimeError}
    (failed : (host.runBuiltin name argv).1 = .error error) :
    error.isFatal = false := by
  unfold runBuiltin at failed
  dsimp only at failed
  split at failed
  · exact runInProcess_not_fatal failed
  · cases failed

theorem MemoryHost.finishProcessSub_not_fatal
    {host : MemoryHost}
    {status : Int32}
    {output : String}
    {span : SpanId}
    {error : RuntimeError}
    (failed : (host.finishProcessSub status output span).1 = .error error) :
    error.isFatal = false := by
  unfold finishProcessSub at failed
  dsimp only at failed
  split at failed <;> cases failed
  rfl

namespace Eval.Faultless

variable {inMemory : Bool}

theorem pure
    (answer : α) :
    Faultless inMemory (pure answer : Eval α) where
  wiring := MemoryHost.SameWiring.evaluation.pure answer
  errors _ _ _ _ failed := nomatch failed

theorem throw
    {error : RuntimeError}
    (harmless : error.isFatal = false) :
    Faultless inMemory (throw error : Eval α) where
  wiring := MemoryHost.SameWiring.evaluation.throw error
  errors before after error _ failed := by
    cases failed
    exact harmless

theorem bind
    {first : Eval α}
    {next : α → Eval β}
    (firstFaultless : first.Faultless inMemory)
    (nextFaultless : ∀ answer, (next answer).Faultless inMemory) :
    (first >>= next).Faultless inMemory where
  wiring :=
    MemoryHost.SameWiring.evaluation.bind firstFaultless.wiring fun answer =>
      (nextFaultless answer).wiring
  errors before after error kind failed := by
    rcases Eval.bind_eq_some_iff.mp failed with
      ⟨_, firstFailed, same⟩ | ⟨answer, between, started, ended⟩
    · cases same
      exact firstFaultless.errors kind firstFailed
    · have sameKind := (firstFaultless.wiring started).isMemory_eq
      exact (nextFaultless answer).errors (sameKind.trans kind) ended

theorem ofExcept
    {outcome : Except RuntimeError α}
    (harmless : ∀ error, outcome = .error error → error.isFatal = false) :
    (Eval.ofExcept id outcome).Faultless inMemory := by
  cases outcome with
  | ok answer => exact pure answer
  | error error => exact throw (harmless error rfl)

/-- An action on the host is faultless if what it answers is. -/
theorem onHost
    {inertAnswer : α}
    {action : MemoryHost → Except RuntimeError α × MemoryHost}
    (wiring : ∀ host, MemoryHost.SameWiring host (action host).2)
    (errors : ∀ host error, (action host).1 = .error error → error.isFatal = false) :
    (Eval.onHost inertAnswer action).Faultless inMemory where
  wiring := HostDiscipline.keeps_onHost wiring
  errors before after error _ failed := by
    rcases before with ⟨scope, trace, host, peer⟩
    cases host with
    | inert => cases failed
    | memory host =>
        refine errors host error ?_
        have answered := congrArg (Option.map (·.1)) failed
        exact Option.some.inj answered

/-- What brackets a faultless evaluation is faultless if its errors are those of the inside. -/
theorem bracket
    {evaluation : Eval α}
    {bracketed : Eval β}
    (faultless : evaluation.Faultless inMemory)
    (wiring : Eval.Keeps (HostDiscipline.lift MemoryHost.SameWiring) bracketed)
    (inside : ∀ ⦃before after : Machine⦄ ⦃error : RuntimeError⦄,
      bracketed.run before = some (.error error, after) →
      ∃ opened between,
        opened.host.isMemory = before.host.isMemory ∧
          evaluation.run opened = some (.error error, between)) :
    bracketed.Faultless inMemory where
  wiring := wiring
  errors before after error kind failed := by
    obtain ⟨opened, between, sameKind, insideFailed⟩ := inside failed
    exact faultless.errors (sameKind.trans kind) insideFailed

section Brackets

/-- An action on the host leaves it inert or in memory, as it was. -/
theorem isMemory_of_onHost
    {inertAnswer answer : α}
    {action : MemoryHost → α × MemoryHost}
    {before after : Machine}
    (acted : Run.onHost inertAnswer action before = some (answer, after)) :
    after.host.isMemory = before.host.isMemory := by
  rcases before with ⟨scope, trace, host, peer⟩
  cases host <;> cases acted <;> rfl

theorem runFrame
    {below : Evaluator}
    {env : Env}
    {function : Function}
    (args : List Value)
    (faultless : (CommandList.execute below env function.body).Faultless inMemory) :
    (Function.runFrame below env function args).Faultless inMemory := by
  refine faultless.bracket
    (MemoryHost.SameWiring.evaluation.runFrame args faultless.wiring) ?_
  intro before after error failed
  obtain ⟨between, ran, -⟩ := Function.runFrame_cases failed
  exact ⟨before.mapScope _, between, rfl, ran⟩

theorem keepingScope
    {evaluation : Eval α}
    (faultless : evaluation.Faultless inMemory) :
    (Isolation.keepingScope evaluation).Faultless inMemory := by
  refine faultless.bracket
    (MemoryHost.SameWiring.evaluation.keepingScope faultless.wiring) ?_
  intro before after error failed
  rw [Isolation.run_keepingScope] at failed
  obtain ⟨⟨_, between⟩, ran, left⟩ := Option.map_eq_some_iff.mp failed
  cases left
  exact ⟨before, between, rfl, ran⟩

theorem inPeer
    {evaluation : Eval α}
    (faultless : evaluation.Faultless inMemory) :
    (Host.inPeer evaluation).Faultless inMemory := by
  refine faultless.bracket
    (Composable.inPeer MemoryHost.SameWiring.evaluation.peer faultless.wiring) ?_
  intro before after error failed
  rw [Host.run_inPeer] at failed
  obtain ⟨⟨_, between⟩, ran, left⟩ := Option.map_eq_some_iff.mp failed
  cases left
  exact ⟨before.swap, between, rfl, ran⟩

theorem withCapture
    {evaluation : Eval α}
    (faultless : evaluation.Faultless inMemory) :
    (Host.withCapture evaluation).Faultless inMemory := by
  refine faultless.bracket
    (MemoryHost.SameWiring.evaluation.capture faultless.wiring) ?_
  intro before after error failed
  obtain ⟨_, opened, begun, started⟩ := Run.bind_eq_some_iff.mp failed
  obtain ⟨result, between, ran, ended⟩ := Run.bind_eq_some_iff.mp started
  obtain ⟨_, _, _, returned⟩ := Run.bind_eq_some_iff.mp ended
  cases result with
  | ok answer => cases returned
  | error error =>
      cases returned
      exact ⟨opened, between, isMemory_of_onHost begun, ran⟩

theorem underRedirects
    (redirections : List Redirection)
    {evaluation : Eval ControlFlow}
    (faultless : evaluation.Faultless inMemory) :
    (Commands.underRedirects redirections evaluation).Faultless inMemory := by
  refine faultless.bracket
    (MemoryHost.SameWiring.evaluation.underRedirects redirections faultless.wiring) ?_
  intro before after error failed
  obtain ⟨_, _, guarded, returned⟩ := Run.bind_eq_some_iff.mp failed
  obtain ⟨holds, opened, pushed, started⟩ := Run.bind_eq_some_iff.mp guarded
  cases holds with
  | true =>
      obtain ⟨_, between, ran, ended⟩ := Run.bind_eq_some_iff.mp started
      obtain ⟨_, _, _, popped⟩ := Run.bind_eq_some_iff.mp ended
      cases popped
      cases returned
      exact ⟨opened, between, isMemory_of_onHost pushed, ran⟩
  | false =>
      cases started
      cases returned

theorem runBuiltin
    (name : String)
    (argv : List String) :
    (Eval.ofRun (Guard.withFlush (Host.runBuiltin name argv).run)).Faultless inMemory := by
  have unflushed : (Host.runBuiltin name argv).Faultless inMemory := by
    refine onHost (fun host => ?_) fun host error => MemoryHost.runBuiltin_not_fatal
    have ran := MemoryHost.SameWiring.of_wrote (host.wrote_runBuiltin name argv)
    exact ⟨ran.callback, ran.connects⟩
  refine unflushed.bracket (MemoryHost.SameWiring.evaluation.runBuiltin name argv) ?_
  intro before after error failed
  obtain ⟨_, between, ran, ended⟩ := Run.bind_eq_some_iff.mp failed
  obtain ⟨_, _, _, returned⟩ := Run.bind_eq_some_iff.mp ended
  cases returned
  exact ⟨before, between, rfl, ran⟩

end Brackets

section Environments

variable {env : Env}

theorem require
    (sound : env.Sound inMemory)
    (connection : Connection) :
    (Eval.require env connection).Faultless inMemory := by
  unfold Eval.require
  rw [if_pos (sound.wired.own connection)]
  exact pure ()

theorem withProcessSubs
    (sound : env.Sound inMemory)
    {evaluation : Eval ControlFlow}
    (faultless : evaluation.Faultless inMemory) :
    (Commands.withProcessSubs env evaluation).Faultless inMemory := by
  refine faultless.bracket
    (MemoryHost.SameWiring.evaluation.processSubs env faultless.wiring) ?_
  intro before after error failed
  unfold Commands.withProcessSubs Eval.require at failed
  rw [if_pos (sound.wired.own .commandToHost), pure_bind] at failed
  obtain ⟨_, closed, guarded, ended⟩ := Run.bind_eq_some_iff.mp failed
  obtain ⟨_, _, kept, returned⟩ := Run.bind_eq_some_iff.mp ended
  obtain ⟨_, opened, pushed, started⟩ := Run.bind_eq_some_iff.mp guarded
  obtain ⟨_, between, ran, popping⟩ := Run.bind_eq_some_iff.mp started
  obtain ⟨_, _, _, collected⟩ := Run.bind_eq_some_iff.mp popping
  cases collected
  cases returned
  exact ⟨opened, between, isMemory_of_onHost pushed, ran⟩

/-- Tracing asks only for connections that are made. -/
theorem emitIfOn
    (sound : env.Sound inMemory)
    (text : String) :
    (Trace.emitIfOn env text).Faultless inMemory where
  wiring := MemoryHost.SameWiring.evaluation.emitIfOn env text
  errors before after error _ failed := by
    rw [Trace.emitIfOn, Eval.run_scope_bind] at failed
    split at failed
    · obtain ⟨lead, emitted⟩ := Erasure.emit_answers sound.wired.own text before
      rw [emitted] at failed
      cases failed
    · cases failed

/-- Whatever the host calls back leaves it wired as it is. -/
theorem callBack_wiring
    (sound : env.Sound inMemory)
    {evaluation : Env → Eval α}
    (faultless : ∀ env : Env, env.Sound inMemory → (evaluation env).Faultless inMemory) :
    Eval.Keeps (HostDiscipline.lift MemoryHost.SameWiring)
      (Host.callBack env evaluation) := by
  rcases env with ⟨setup, callback⟩
  cases callback with
  | missing => exact MemoryHost.SameWiring.evaluation.throw _
  | dropped => exact MemoryHost.SameWiring.evaluation.throw _
  | own => exact (faultless _ sound).wiring
  | peer setup => exact (faultless _ sound.peer).inPeer.wiring

/-- A host in memory finds a set to call back. -/
theorem callBack
    (sound : env.Sound true)
    {evaluation : Env → Eval α}
    (faultless : ∀ env : Env, env.Sound true → (evaluation env).Faultless true) :
    (Host.callBack env evaluation).Faultless true := by
  rcases env with ⟨setup, callback⟩
  cases callback with
  | missing => cases sound.alive rfl
  | dropped => cases sound.alive rfl
  | own => exact faultless _ sound
  | peer setup => exact (faultless _ sound.peer).inPeer

/-- An inert host runs nothing, and a host in memory only what is faultless. -/
theorem recorded
    {call : HostCall}
    (reentrant : call.Reentrant)
    (inertAnswer : α)
    {evaluation : Eval α}
    (wiring : Eval.Keeps (HostDiscipline.lift MemoryHost.SameWiring) evaluation)
    (faultless : inMemory = true → evaluation.Faultless inMemory) :
    (Host.recorded call inertAnswer evaluation).Faultless inMemory where
  wiring :=
    MemoryHost.SameWiring.evaluation.recorded
      (MemoryHost.SameWiring.evaluation.reentry reentrant) inertAnswer wiring
  errors before after error kind failed := by
    unfold Host.recorded at failed
    rw [ExceptT.run_bind] at failed
    obtain ⟨_, _, got, going⟩ := Run.bind_eq_some_iff.mp failed
    cases got
    dsimp only at going
    split at going
    · cases going
    next host isHost =>
      have inside : Faultless inMemory (do
          Eval.onHost () fun host => (.ok (), host.record call)
          evaluation) := by
        refine bind (onHost (fun _ => ⟨rfl, rfl⟩) fun _ _ => nofun) fun _ => faultless ?_
        rw [← kind, isHost]
        rfl
      exact inside.errors kind going

/-- To be faultless is a congruence where nothing is missing. -/
theorem congruence :
    Congruence (fun evaluation _ => Faultless inMemory evaluation)
      fun env other => env = other ∧ env.Sound inMemory where
  pure := pure
  throw harmless := throw harmless
  bind := bind
  withScope nextFaultless :=
    bind ⟨MemoryHost.SameWiring.evaluation.scope, fun _ _ _ _ => nofun⟩ fun scope =>
      nextFaultless scope scope.xtrace
  update isChange :=
    ⟨MemoryHost.SameWiring.evaluation.mapScope isChange, fun _ _ _ _ => nofun⟩
  require connection same := require same.2 connection
  trace text same := emitIfOn same.2 text
  callables same := same.1 ▸ rfl
  callable args same found := ofExcept fun error => same.2.harmless _ _ found args error
  frame _ args := runFrame args
  reentry := by
    rintro α β env _ call evaluation _ next _ inertAnswer ⟨rfl, sound⟩ reentrant
      faultless nextFaultless
    have inside : ∀ env : Env, env.Sound inMemory → (evaluation env).Faultless inMemory :=
      fun _ sound => faultless ⟨rfl, sound⟩
    refine recorded reentrant inertAnswer ?_ fun isMemory => ?_
    · exact MemoryHost.SameWiring.evaluation.bind (callBack_wiring sound inside)
        fun answer => (nextFaultless answer).wiring
    · subst isMemory
      exact bind (callBack sound inside) nextFaultless
  runSimple argv := by
    refine onHost (fun host => ?_) fun _ _ => MemoryHost.runSimple_not_fatal
    exact MemoryHost.SameWiring.discipline.runSimple host argv
  runBuiltin := runBuiltin
  finishProcessSub status output span := by
    refine onHost (fun host => ?_) fun _ _ => MemoryHost.finishProcessSub_not_fatal
    exact MemoryHost.SameWiring.discipline.finishProcessSub host status output span
  isolation := keepingScope
  capture := withCapture
  processSubs same := withProcessSubs same.2
  redirects redirections := underRedirects redirections

/-- Where nothing is missing, nothing that is evaluated meets a fault. -/
theorem evaluator
    {env : Env}
    (sound : env.Sound inMemory)
    (fuel : Nat)
    (request : Request α) :
    (ShellCore.evaluator fuel α env request).Faultless inMemory := by
  refine congruence.evaluator ⟨?_, ?_⟩ fuel ⟨rfl, sound⟩ request
  · intro before after result finished
    cases finished
  · intro before after error _ failed
    cases failed

end Environments

end Eval.Faultless

end ShellCore
