import ShellCore.Proofs.Evaluation.Execution
import ShellCore.Proofs.Host.Discipline
import ShellCore.Proofs.Host.Output
import ShellCore.Proofs.Host.Redirection
import ShellCore.Proofs.Host.Trail
import ShellCore.Proofs.Scope.Bindings

namespace ShellCore

/-!
# The collection of process substitutions

Every process substitution that a command starts and that ends with a status is
collected once: by the innermost command that was running in a frame of its own,
or, if that is not part of the run, the status waits at the end of the frame that
was innermost before. A command with a frame of its own leaves in its scope the
statuses that the frame held when it was closed.
-/

namespace MemoryHost.Unconcerned

theorem refl
    (host : MemoryHost) :
    Unconcerned host host where
  frames := rfl
  nextDescriptor := rfl
  calls := ⟨[], (List.append_nil _).symm, rfl⟩

theorem trans
    {left middle right : MemoryHost}
    (earlier : Unconcerned left middle)
    (later : Unconcerned middle right) :
    Unconcerned left right where
  frames := later.frames.trans earlier.frames
  nextDescriptor := later.nextDescriptor.trans earlier.nextDescriptor
  calls := by
    obtain ⟨word, calls, others⟩ := earlier.calls
    obtain ⟨laterWord, laterCalls, laterOthers⟩ := later.calls
    refine ⟨word ++ laterWord, ?_, ?_⟩
    · rw [laterCalls, calls, List.append_assoc]
    · rw [List.filter_append, others, laterOthers, List.append_nil]

theorem record
    (host : MemoryHost)
    {call : HostCall}
    (other : call.isProcessSub = false) :
    Unconcerned host (host.record call) where
  frames := rfl
  nextDescriptor := rfl
  calls := ⟨[call], rfl, by simp [other]⟩

theorem of_wrote
    {before after : MemoryHost}
    (wrote : before.Wrote after) :
    Unconcerned before after := by
  obtain ⟨_, _, _, _, _, rfl⟩ := wrote
  exact { refl before with }

theorem runSimple
    (host : MemoryHost)
    (argv : List String) :
    Unconcerned host (host.runSimple argv).2 :=
  (record host rfl).trans (of_wrote (host.wrote_runSimple argv))

theorem runBuiltin
    (host : MemoryHost)
    (name : String)
    (argv : List String) :
    Unconcerned host (host.runBuiltin name argv).2 :=
  (record host rfl).trans (of_wrote (host.wrote_runBuiltin name argv))

theorem pushRedirects
    (host : MemoryHost)
    (redirections : List Redirection) :
    Unconcerned host (host.pushRedirects redirections).2 := by
  rcases outcome : host.pushRedirects redirections with ⟨accepted, opened⟩
  cases accepted with
  | true =>
      obtain ⟨_, _, _, rfl⟩ := pushRedirects_accepted outcome
      exact ⟨rfl, rfl, _, rfl, rfl⟩
  | false =>
      obtain ⟨_, _, _, _, rfl⟩ := pushRedirects_refused outcome
      exact ⟨rfl, rfl, _, rfl, rfl⟩

theorem popRedirects
    (host : MemoryHost)
    (count : Nat) :
    Unconcerned host (host.popRedirects count) := by
  obtain ⟨_, _, restored⟩ := host.restoreDescriptors_frame count
  unfold MemoryHost.popRedirects
  rw [restored]
  exact ⟨rfl, rfl, _, rfl, rfl⟩

theorem beginCapture
    (host : MemoryHost) :
    Unconcerned host host.beginCapture.2 :=
  { refl host with }

theorem endCapture
    (host : MemoryHost)
    (bound : Option String) :
    Unconcerned host (host.endCapture bound).2 :=
  { refl host with }

end MemoryHost.Unconcerned

section Statuses

theorem Scope.processSubStatus_enterCall
    (scope : Scope)
    (function : Function)
    (args : List Value) :
    (scope.enterCall function args).processSubStatus = scope.processSubStatus := by
  unfold enterCall
  obtain ⟨_, _, bound⟩ := bindParams_frame
    (scope.pushFrame.setPositional function.name (args.map Value.display)) function.params args
  rw [bound]
  rfl

theorem Scope.processSubStatus_leaveCall
    (scope caller : Scope) :
    (scope.leaveCall caller).processSubStatus = scope.processSubStatus := by
  unfold leaveCall popFrame?
  cases scope.inner <;> rfl

/-- A change of the scope leaves the statuses alone that the last frame left there. -/
theorem Scope.Change.processSubStatus
    {change : Scope → Scope}
    (isChange : Change change)
    (scope : Scope) :
    (change scope).processSubStatus = scope.processSubStatus := by
  cases isChange with
  | lastStatus status => rfl
  | pipeStatus codes => rfl
  | set name value =>
      change (scope.set name value).processSubStatus = _
      obtain ⟨_, _, assigned⟩ := scope.set_frame name value
      rw [assigned]
  | setGlobal name value =>
      change (scope.setGlobal name value).processSubStatus = _
      obtain ⟨_, _, assigned⟩ := scope.setGlobal_frame name value
      rw [assigned]
  | define function => rfl

theorem Machine.KeepsStatuses.of_change
    {change : Scope → Scope}
    (isChange : Scope.Change change)
    (machine : Machine) :
    machine.KeepsStatuses (machine.mapScope change) where
  own := isChange.processSubStatus machine.scope
  peer := rfl

end Statuses

namespace Trail

theorem of_unconcerned
    {machine : Machine}
    {host next : MemoryHost}
    (inMemory : machine.host = .memory host)
    (unconcerned : host.Unconcerned next) :
    Trail machine [] { machine with host := .memory next } := by
  refine .aside inMemory ?_ unconcerned ?_ (.done _)
  · rfl
  · exact ⟨rfl, rfl⟩

/-- What leaves the host and the statuses as they are has no part in process substitutions. -/
theorem aside_of_host_eq
    {before after : Machine}
    {host : MemoryHost}
    (inMemory : before.host = .memory host)
    (same : after.host = before.host)
    (keeps : before.KeepsStatuses after) :
    Trail before [] after :=
  .aside inMemory (same.trans inMemory) (.refl host) keeps (.done after)

theorem of_change
    {change : Scope → Scope}
    {machine : Machine}
    {host : MemoryHost}
    (isChange : Scope.Change change)
    (inMemory : machine.host = .memory host) :
    Trail machine [] (machine.mapScope change) :=
  aside_of_host_eq inMemory rfl (.of_change isChange machine)

/-- The frame of a call takes no part in the trail of its body. -/
theorem inCall
    {history : List ProcessSubEvent}
    {before after : Machine}
    {host : MemoryHost}
    (inMemory : before.host = .memory host)
    {function : Function}
    {args : List Value}
    (inside :
      Trail (before.mapScope fun scope => scope.enterCall function args) history after) :
    Trail before history (after.mapScope fun scope => scope.leaveCall before.scope) := by
  have enters :
      Trail before [] (before.mapScope fun scope => scope.enterCall function args) :=
    aside_of_host_eq inMemory rfl
      ⟨before.scope.processSubStatus_enterCall function args, rfl⟩
  obtain ⟨final, finallyInMemory, _⟩ := inside.marked inMemory
  have leaves : Trail after [] (after.mapScope fun scope => scope.leaveCall before.scope) :=
    aside_of_host_eq finallyInMemory rfl
      ⟨after.scope.processSubStatus_leaveCall before.scope, rfl⟩
  have whole := enters.trans (inside.trans leaves)
  rwa [List.append_nil] at whole

end Trail

/-- The innermost frame, if one is open, got some entries at its end. -/
structure MemoryHost.Grown
    (added : List ProcessSubEntry)
    (before after : MemoryHost) :
    Prop where
  frames : after.frames = before.frames.modifyHead (· ++ added)
  noFrame : before.frames = [] → added = []

namespace MemoryHost.Grown

theorem of_frames_eq
    {before after : MemoryHost}
    (same : after.frames = before.frames) :
    Grown [] before after where
  frames := by
    rw [same]
    cases before.frames <;> simp
  noFrame _ := rfl

theorem of_refused
    {host stored : MemoryHost}
    {status : Int32}
    {output : String}
    {span : SpanId}
    {error : RuntimeError}
    (refuses : host.finishProcessSub status output span = (.error error, stored)) :
    Grown [] host stored := by
  have followed := (Marked.refused refuses).frames
  refine of_frames_eq ?_
  cases frames : host.frames with
  | nil =>
      rw [frames] at followed
      exact (Option.some.inj followed).symm
  | cons innermost outer =>
      rw [frames] at followed
      cases followed

/-- A status goes to the end of the innermost frame. -/
theorem of_finished
    {host stored : MemoryHost}
    {status : Int32}
    {output path : String}
    {span : SpanId}
    (stores : host.finishProcessSub status output span = (.ok path, stored)) :
    Grown [(status, span)] host stored := by
  have followed := (Marked.finished stores).frames
  cases frames : host.frames with
  | nil =>
      rw [frames] at followed
      cases followed
  | cons innermost outer =>
      rw [frames] at followed
      exact {
        frames := by
          rw [frames]
          exact (Option.some.inj followed).symm
        noFrame := by simp [frames]
      }

theorem trans
    {first second : List ProcessSubEntry}
    {left middle right : MemoryHost}
    (earlier : Grown first left middle)
    (later : Grown second middle right) :
    Grown (first ++ second) left right where
  frames := by
    rw [later.frames, earlier.frames]
    cases left.frames <;> simp
  noFrame none := by
    have stillNone : middle.frames = [] := by
      rw [earlier.frames, none, List.modifyHead_nil]
    rw [earlier.noFrame none, later.noFrame stillNone, List.append_nil]

/-- The innermost frame holds what was added more than before. -/
theorem heldCount
    {added : List ProcessSubEntry}
    {before after : MemoryHost}
    (grown : Grown added before after) :
    ProcessSubEvent.heldCount after.frames =
      ProcessSubEvent.heldCount before.frames + added.length := by
  rw [grown.frames]
  cases frames : before.frames with
  | nil =>
      rw [grown.noFrame frames]
      rfl
  | cons innermost outer =>
      simp only [ProcessSubEvent.heldCount, List.modifyHead_cons, List.flatten_cons,
        List.length_append]
      omega

end MemoryHost.Grown

/-- What finished on a trail was taken out of a frame, or the innermost frame got it. -/
theorem MemoryHost.Grown.conserves
    {before after : Machine}
    {host final : MemoryHost}
    {history : List ProcessSubEvent}
    {added : List ProcessSubEntry}
    (grown : host.Grown added final)
    (inMemory : before.host = .memory host)
    (finallyInMemory : after.host = .memory final)
    (trail : Trail before history after) :
    Marked history host final ∧
      ProcessSubEvent.finishedCount history =
        ProcessSubEvent.takenCount history + added.length := by
  obtain ⟨_, sameFinal, marked⟩ := trail.marked inMemory
  obtain rfl := Host.memory.inj (sameFinal.symm.trans finallyInMemory)
  have conserved := ProcessSubEvent.finishedCount_add_heldCount marked.frames
  have held := grown.heldCount
  exact ⟨marked, by omega⟩

/-- An inert host stays inert; another one goes along a trail that leaves its outer frames alone. -/
inductive Collects (before after : Machine) : Prop where
  | inert :
      before.host = .inert →
      after.host = .inert →
      Collects before after
  | memory {host final : MemoryHost} {history : List ProcessSubEvent}
      {added : List ProcessSubEntry} :
      before.host = .memory host →
      after.host = .memory final →
      Trail before history after →
      host.Grown added final →
      Collects before after

namespace Collects

theorem of_unconcerned
    {before after : Machine}
    {host next : MemoryHost}
    (inMemory : before.host = .memory host)
    (stillInMemory : after.host = .memory next)
    (unconcerned : host.Unconcerned next)
    (keeps : before.KeepsStatuses after) :
    Collects before after :=
  .memory inMemory stillInMemory
    (.aside inMemory stillInMemory unconcerned keeps (.done after))
    (.of_frames_eq unconcerned.frames)

/-- What touches neither the host nor the statuses is no part of the trail. -/
theorem of_host_eq
    {before after : Machine}
    (same : after.host = before.host)
    (keeps : before.KeepsStatuses after) :
    Collects before after := by
  cases kind : before.host with
  | inert => exact .inert kind (same.trans kind)
  | memory host => exact of_unconcerned kind (same.trans kind) (.refl host) keeps

theorem trans
    {left middle right : Machine}
    (earlier : Collects left middle)
    (later : Collects middle right) :
    Collects left right := by
  cases earlier with
  | inert wasInert isInert =>
      cases later with
      | inert _ staysInert => exact .inert wasInert staysInert
      | memory inMemory => exact nomatch isInert.symm.trans inMemory
  | memory inMemory reached first grown =>
      cases later with
      | inert isInert => exact nomatch reached.symm.trans isInert
      | memory found finallyInMemory second grownMore =>
          obtain rfl := Host.memory.inj (found.symm.trans reached)
          exact .memory inMemory finallyInMemory (first.trans second) (grown.trans grownMore)

/-- Scopes and sessions may be exchanged around a run, as far as its trail allows that. -/
theorem around
    {before entered left after : Machine}
    (inside : Collects entered left)
    (enters : entered.host = before.host)
    (leaves : after.host = left.host)
    (trail : ∀ {host : MemoryHost} {history : List ProcessSubEvent},
      before.host = .memory host →
      Trail entered history left →
      Trail before history after) :
    Collects before after := by
  cases inside with
  | inert wasInert isInert =>
      exact .inert (enters.symm.trans wasInert) (leaves.trans isInert)
  | memory inMemory stillInMemory inside grown =>
      have isInMemory := enters.symm.trans inMemory
      exact .memory isInMemory (leaves.trans stillInMemory) (trail isInMemory inside) grown

theorem composable :
    Composable Collects where
  refl machine := of_host_eq rfl (.refl machine)
  trans := trans

theorem keeps_onHost
    {inertAnswer : α}
    {action : MemoryHost → α × MemoryHost}
    (unconcerned : ∀ host, MemoryHost.Unconcerned host (action host).2) :
    Run.Keeps Collects (Run.onHost inertAnswer action) := by
  intro before after result finished
  rcases before with ⟨scope, trace, host, peer⟩
  cases host with
  | inert =>
      cases finished
      exact .inert rfl rfl
  | memory host =>
      cases finished
      exact of_unconcerned rfl rfl (unconcerned host) ⟨rfl, rfl⟩

theorem keeps_evaluating
    {inertAnswer : α}
    {action : MemoryHost → Except RuntimeError α × MemoryHost}
    (unconcerned : ∀ host, MemoryHost.Unconcerned host (action host).2) :
    Eval.Keeps Collects (Eval.onHost inertAnswer action) :=
  show Run.Keeps Collects (Run.onHost (.ok inertAnswer) action) from keeps_onHost unconcerned

theorem keeps_reentry
    {call : HostCall}
    (reentrant : call.Reentrant) :
    Eval.Keeps Collects (Eval.onHost () fun host => (.ok (), host.record call)) := by
  cases reentrant with
  | processSub =>
      intro before after result finished
      rcases before with ⟨scope, trace, host, peer⟩
      cases host with
      | inert =>
          cases finished
          exact .inert rfl rfl
      | memory host =>
          cases finished
          exact .memory rfl rfl (.event (.called rfl) (.done _)) (.of_frames_eq rfl)
  | _ => exact keeps_evaluating fun host => .record host rfl

theorem keeps_finishProcessSub
    (status : Int32)
    (output : String)
    (span : SpanId) :
    Eval.Keeps Collects
      (Eval.onHost "" fun host => host.finishProcessSub status output span) := by
  intro before after result finished
  rcases before with ⟨scope, trace, host, peer⟩
  cases host with
  | inert =>
      cases finished
      exact .inert rfl rfl
  | memory host =>
      rcases stores : host.finishProcessSub status output span with ⟨answer, stored⟩
      simp only [Eval.onHost, Eval.ofRun, ExceptT.run_mk, Run.onHost, Host.act, stores]
        at finished
      cases finished
      cases result with
      | error error =>
          exact .memory rfl rfl (.event (.refused rfl stores) (.done _)) (.of_refused stores)
      | ok path =>
          exact .memory rfl rfl (.event (.finished rfl stores) (.done _)) (.of_finished stores)

/--
A frame takes in what finishes inside it, and is closed with all of that; this is
then what the scope holds.
-/
theorem withProcessSubs_delivers
    {env : Env}
    {evaluation : Eval ControlFlow}
    {before after : Machine}
    {result : Except RuntimeError ControlFlow}
    {host : MemoryHost}
    (keeps : Eval.Keeps Collects evaluation)
    (connected : .commandToHost ∈ env.setup.connections)
    (inMemory : before.host = .memory host)
    (finished :
      (Commands.withProcessSubs env evaluation).run before = some (result, after)) :
    ∃ final inside entries,
      after.host = .memory final ∧
        final.frames = host.frames ∧
        Trail before (.opened :: (inside ++ [.collected entries])) after ∧
        inside.foldlM ProcessSubEvent.follow? ([] :: host.frames) =
          some (entries :: host.frames) ∧
        after.scope.processSubStatus = .ofList entries := by
  rw [Commands.run_withProcessSubs connected] at finished
  obtain ⟨⟨_, ended⟩, ran, closed⟩ := Option.map_eq_some_iff.mp finished
  cases closed
  rcases before with ⟨scope, trace, _, peer⟩
  cases inMemory
  cases keeps ran with
  | inert isInert => cases isInert
  | @memory _ last inside entries found reached trail grown =>
      cases found
      obtain ⟨_, sameLast, marked⟩ := trail.marked rfl
      obtain rfl := Host.memory.inj (reached.symm.trans sameLast)
      rcases ended with ⟨laterScope, laterTrace, _, laterPeer⟩
      cases reached
      have holds : last.frames = entries :: host.frames := grown.frames
      have collects :
          ProcessSubStep ⟨laterScope, laterTrace, .memory last, laterPeer⟩
            (.collected entries) _ :=
        .collected rfl holds
      have kept : last.popProcessSub.1 = .ofList entries := by
        simp [MemoryHost.popProcessSub, holds]
      have popped :
          Machine.popFrame ⟨laterScope, laterTrace, .memory last, laterPeer⟩ =
            ⟨{ laterScope with processSubStatus := .ofList entries }, laterTrace,
              .memory last.popProcessSub.2, laterPeer⟩ := by
        rw [← kept]
        rfl
      have replayed := marked.frames
      rw [holds] at replayed
      rw [popped]
      refine ⟨_, inside, entries, rfl, congrArg List.tail holds, ?_, replayed, rfl⟩
      exact .event (.opened rfl) (trail.trans (.event collects (.done _)))

theorem keeps_withProcessSubs
    (env : Env)
    {evaluation : Eval ControlFlow}
    (keeps : Eval.Keeps Collects evaluation) :
    Eval.Keeps Collects (Commands.withProcessSubs env evaluation) := by
  intro before after result finished
  by_cases connected : Connection.commandToHost ∈ env.setup.connections
  · cases kind : before.host with
    | inert =>
        rw [Commands.run_withProcessSubs connected] at finished
        obtain ⟨⟨_, ended⟩, ran, closed⟩ := Option.map_eq_some_iff.mp finished
        cases closed
        rcases before with ⟨scope, trace, _, peer⟩
        cases kind
        cases keeps ran with
        | memory inMemory => cases inMemory
        | inert _ staysInert =>
            rcases ended with ⟨laterScope, laterTrace, _, laterPeer⟩
            cases staysInert
            exact .inert rfl rfl
    | memory host =>
        obtain ⟨final, _, _, stillInMemory, sameFrames, trail, _⟩ :=
          withProcessSubs_delivers keeps connected kind finished
        exact .memory kind stillInMemory trail (.of_frames_eq sameFrames)
  · unfold Commands.withProcessSubs Eval.require at finished
    rw [if_neg connected] at finished
    cases finished
    exact composable.refl _

theorem discipline :
    Discipline Collects where
  toComposable := composable
  update isChange := of_host_eq rfl (.of_change isChange _)
  trace _ _ := of_host_eq rfl ⟨rfl, rfl⟩
  frame _ _ inside := inside.around rfl rfl fun inMemory trail => trail.inCall inMemory
  isolation inside := inside.around rfl rfl fun _ trail => trail.keepingScope
  peer inside := inside.around rfl rfl fun _ trail => trail.exchanged
  reentry := keeps_reentry
  runSimple argv := keeps_onHost fun host => .runSimple host argv
  runBuiltin name argv :=
    composable.withFlush (keeps_onHost fun host => .record host rfl)
      (keeps_onHost fun host => .runBuiltin host name argv)
  finishProcessSub := keeps_finishProcessSub
  processSubs := keeps_withProcessSubs
  redirects redirections :=
    composable.withRedirects (keeps_onHost fun host => .pushRedirects host redirections)
      (keeps_onHost fun host => .popRedirects host redirections.length)
  capture :=
    composable.withCapture (keeps_onHost .beginCapture) fun bound =>
      keeps_onHost fun host => .endCapture host bound

end Collects

/-- The commands that open a frame for the process substitutions of their words. -/
def Command.OpensFrame :
    Command →
    Prop
  | .simple _ _ => True
  | .forEach _ _ _ => True
  | .redirected _ _ => True
  | _ => False

/-- What runs in the frame of a command goes along a trail as well. -/
theorem Collects.of_opensFrame
    {command : Command}
    (opensFrame : command.OpensFrame)
    (fuel : Nat)
    (env : Env) :
    ∃ evaluation,
      Eval.Keeps Collects evaluation ∧
        Commands.run (ShellCore.evaluator fuel) env command =
          Commands.withProcessSubs env evaluation := by
  cases command with
  | simple words span =>
      exact ⟨_, discipline.simple fuel env words, rfl⟩
  | forEach name items body =>
      exact ⟨_, discipline.forEach fuel env name items body, rfl⟩
  | redirected body redirects =>
      exact ⟨_, discipline.redirected fuel env body redirects, rfl⟩
  | _ => exact opensFrame.elim

/-- A command that opens a frame delivers into its scope what the frame held at its end. -/
theorem Command.OpensFrame.delivers
    {fuel : Nat}
    {env : Env}
    {command : Command}
    {before after : Machine}
    {result : Except RuntimeError ControlFlow}
    {host : MemoryHost}
    (opensFrame : command.OpensFrame)
    (connected : .commandToHost ∈ env.setup.connections)
    (inMemory : before.host = .memory host)
    (finished :
      (Commands.execute (evaluator fuel) env command).run before = some (result, after)) :
    ∃ final inside entries,
      after.host = .memory final ∧
        final.frames = host.frames ∧
        Trail before (.opened :: (inside ++ [.collected entries])) after ∧
        inside.foldlM ProcessSubEvent.follow? ([] :: host.frames) =
          some (entries :: host.frames) ∧
        after.scope.processSubStatus = .ofList entries := by
  obtain ⟨evaluation, keeps, isRun⟩ := Collects.of_opensFrame opensFrame fuel env
  unfold Commands.execute at finished
  rw [isRun] at finished
  rcases Eval.bind_eq_some_iff.mp finished with
    ⟨_, failed, _⟩ | ⟨flow, between, ran, kept⟩
  · exact Collects.withProcessSubs_delivers keeps connected inMemory failed
  obtain ⟨final, inside, entries, reached, frames, trail, replayed, statuses⟩ :=
    Collects.withProcessSubs_delivers keeps connected inMemory ran
  cases flow with
  | normal status =>
      cases kept
      have whole := trail.trans (.of_change (.lastStatus status) reached)
      rw [List.append_nil] at whole
      exact ⟨final, inside, entries, reached, frames, whole, replayed, statuses⟩
  | raise signal =>
      cases kept
      exact ⟨final, inside, entries, reached, frames, trail, replayed, statuses⟩

/-- A call is answered with a path only by a process substitution that finished. -/
theorem runProcessSub_finished
    {fuel : Nat}
    {env : Env}
    {body : Command}
    {span : SpanId}
    {before after : Machine}
    {host : MemoryHost}
    {path : String}
    (inMemory : before.host = .memory host)
    (answered :
      (Host.runProcessSub (evaluator fuel) env body span).run before =
        some (.ok path, after)) :
    ∃ ended status, ProcessSubStep ended (.finished (status, span)) after := by
  obtain ⟨_, _, got, recorded⟩ := Eval.bind_answers_iff.mp answered
  cases got
  simp only [inMemory] at recorded
  obtain ⟨_, called, calls, captured⟩ := Eval.bind_answers_iff.mp recorded
  obtain ⟨⟨status, output⟩, ended, ran, finished⟩ := Eval.bind_answers_iff.mp captured
  have collects : Collects before ended :=
    (Collects.keeps_reentry .processSub calls).trans
      (Collects.discipline.captured fuel env body ran)
  cases collects with
  | inert isInert => exact nomatch isInert.symm.trans inMemory
  | @memory _ final _ _ _ stillInMemory =>
      rcases ended with ⟨scope, trace, endedHost, peer⟩
      cases stillInMemory
      rcases stores : final.finishProcessSub status output span with ⟨answer, stored⟩
      simp only [Eval.onHost, Eval.ofRun, ExceptT.run_mk, Run.onHost, Host.act, stores]
        at finished
      cases finished
      exact ⟨⟨scope, trace, .memory final, peer⟩, status, .finished rfl stores⟩

/--
However a command ends, each process substitution that answered its call was
collected once with the frame that took its status, or waits at the end of the
frame that was innermost before. A command with a frame of its own leaves the
statuses of that frame in its scope: those that finished while it was innermost,
in the order in which they did.
-/
theorem execution_collects_process_subs
    {env : Env}
    {command : Command}
    {before after : Machine}
    {result : Except RuntimeError ControlFlow}
    {host : MemoryHost}
    (inMemory : before.host = .memory host)
    (executed : Executes env command before result after) :
    ∃ final history added,
      after.host = .memory final ∧
        Trail before history after ∧
        MemoryHost.Marked history host final ∧
        host.Grown added final ∧
        ProcessSubEvent.finishedCount history =
          ProcessSubEvent.takenCount history + added.length ∧
        (command.OpensFrame →
          .commandToHost ∈ env.setup.connections →
          ∃ inside entries,
            history = .opened :: (inside ++ [.collected entries]) ∧
              inside.foldlM ProcessSubEvent.follow? ([] :: host.frames) =
                some (entries :: host.frames) ∧
              after.scope.processSubStatus = .ofList entries) := by
  obtain ⟨fuel, finished⟩ := executed
  by_cases bracketed : command.OpensFrame ∧ .commandToHost ∈ env.setup.connections
  · cases fuel with
    | zero => cases finished
    | succ fuel =>
        obtain ⟨final, inside, entries, finallyInMemory, frames, trail, replayed, statuses⟩ :=
          bracketed.1.delivers bracketed.2 inMemory finished
        have grown : host.Grown [] final := .of_frames_eq frames
        obtain ⟨marked, conserved⟩ := grown.conserves inMemory finallyInMemory trail
        exact ⟨_, _, _, finallyInMemory, trail, marked, grown, conserved,
          fun _ _ => ⟨inside, entries, rfl, replayed, statuses⟩⟩
  · have collects : Collects before after :=
      Collects.discipline.evaluator fuel env (.command command) finished
    cases collects with
    | inert isInert => exact nomatch isInert.symm.trans inMemory
    | memory found finallyInMemory trail grown =>
        obtain rfl := Host.memory.inj (found.symm.trans inMemory)
        obtain ⟨marked, conserved⟩ := grown.conserves inMemory finallyInMemory trail
        exact ⟨_, _, _, finallyInMemory, trail, marked, grown, conserved,
          fun opensFrame connected => absurd ⟨opensFrame, connected⟩ bracketed⟩

/--
A loop over the path of one substitution, whose body starts two more: one in an
assignment, one in a command that fails before it can run.
-/
def failingRounds : Command :=
  .forEach "x" [.processSub (.simple [.literal "false"] ⟨1⟩) ⟨2⟩]
    [.assign "y" (.processSub (.simple [.literal "true"] ⟨3⟩) ⟨4⟩) false,
      .simple [.processSub (.simple [.literal "missing"] ⟨5⟩) ⟨6⟩,
        .arith (.binary .div (.number 1) (.number 0))] ⟨7⟩]

theorem failingRounds_collects :
    ∃ error after final history added,
      Executes .connected failingRounds .fresh (.error error) after ∧
        after.scope.processSubStatus.codes = [1, 0] ∧
        after.host = .memory final ∧
        Trail .fresh history after ∧
        MemoryHost.Marked history .initial final ∧
        MemoryHost.Grown added .initial final ∧
        ProcessSubEvent.finishedCount history =
          ProcessSubEvent.takenCount history + added.length ∧
        ∃ inside entries,
          history = .opened :: (inside ++ [.collected entries]) ∧
            inside.foldlM ProcessSubEvent.follow? [[]] = some [entries] ∧
            after.scope.processSubStatus = .ofList entries := by
  have ran :
      ((Evaluator.command (evaluator 8) .connected failingRounds).run .fresh).map
          (fun ended => (ended.1.toBool, ended.2.scope.processSubStatus.codes)) =
        some (false, [1, 0]) := by
    decide +kernel
  obtain ⟨⟨result, after⟩, finished, shape⟩ := Option.map_eq_some_iff.mp ran
  cases result with
  | ok flow => cases shape
  | error error =>
      have executed : Executes .connected failingRounds .fresh (.error error) after :=
        ⟨8, finished⟩
      obtain ⟨final, history, added, inMemory, trail, marked, grown, conserved, delivers⟩ :=
        execution_collects_process_subs rfl executed
      exact ⟨error, after, final, history, added, executed, congrArg (·.2) shape, inMemory,
        trail, marked, grown, conserved, delivers trivial (by decide)⟩

end ShellCore
