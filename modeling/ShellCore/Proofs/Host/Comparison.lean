import ShellCore.Proofs.Host.Collection
import ShellCore.Proofs.Host.Framing

namespace ShellCore

/-!
# Evaluations with one more frame

From a machine, an evaluation does the same with one more frame below all others, or
it is refused a process substitution for want of a frame. A command that opens a frame
is never refused one. To compare in this way is a congruence, so it holds of whatever
is evaluated, with whatever fuel.
-/

/-- The frame at the bottom is the only one that is open, and holds a status. -/
def Machine.HoldsStatus
    (machine : Machine) :
    Prop :=
  ∃ host entry others,
    machine.host = .memory host ∧ host.frames = [entry :: others]

namespace Collects

/-- A status that a frame holds stays there until the frame is closed. -/
theorem holdsStatus
    {before after : Machine}
    (collects : Collects before after)
    (holds : before.HoldsStatus) :
    after.HoldsStatus := by
  obtain ⟨host, entry, others, inMemory, frames⟩ := holds
  cases collects with
  | inert isInert => exact nomatch inMemory.symm.trans isInert
  | @memory _ final _ added found finallyInMemory _ grown =>
      obtain rfl := Host.memory.inj (found.symm.trans inMemory)
      refine ⟨final, entry, others ++ added, finallyInMemory, ?_⟩
      rw [grown.frames, frames]
      rfl

/-- Where no frame is open, none is open after a run, and the other way round. -/
theorem frames_eq_nil_iff
    {before after : Machine}
    {host final : MemoryHost}
    (collects : Collects before after)
    (inMemory : before.host = .memory host)
    (finallyInMemory : after.host = .memory final) :
    final.frames = [] ↔ host.frames = [] := by
  cases collects with
  | inert isInert => exact nomatch inMemory.symm.trans isInert
  | memory found reached _ grown =>
      obtain rfl := Host.memory.inj (found.symm.trans inMemory)
      obtain rfl := Host.memory.inj (reached.symm.trans finallyInMemory)
      rw [grown.frames, List.modifyHead_eq_nil_iff]

end Collects

namespace Machine

variable {machine : Machine}
variable {host : MemoryHost}

/-- Closing a frame that is open does the same with one more frame below it. -/
theorem popFrame_framed
    (inMemory : machine.host = .memory host)
    (isOpen : host.frames ≠ []) :
    machine.framed.popFrame = machine.popFrame.framed := by
  rcases machine with ⟨scope, trace, _, peer⟩
  cases inMemory
  cases frames : host.frames with
  | nil => exact absurd frames isOpen
  | cons innermost outer =>
      simp [popFrame, mapScope, framed, Host.framed, Host.act, MemoryHost.framed,
        MemoryHost.popProcessSub, MemoryHost.record, frames]

theorem unrefused_popFrame
    (inMemory : machine.host = .memory host)
    (isOpen : host.frames ≠ []) :
    machine.Unrefused machine.popFrame := by
  rcases machine with ⟨scope, trace, _, peer⟩
  cases inMemory
  cases frames : host.frames with
  | nil => exact absurd frames isOpen
  | cons innermost outer =>
      refine ⟨[.collected innermost], ?_, by simp⟩
      have kept : host.popProcessSub.1 = .ofList innermost := by
        simp [MemoryHost.popProcessSub, frames]
      have step :
          ProcessSubStep ⟨scope, trace, .memory host, peer⟩ (.collected innermost) _ :=
        .collected rfl frames
      rw [← kept] at step
      exact .event step (.done _)

end Machine

namespace Run

/--
A computation from a machine beside the same computation with one more frame open.
If there is an answer that tells of a refusal, the two may differ by that.
-/
inductive Compares
    (refusal : Option α)
    (computation : Run α)
    (machine : Machine) :
    Prop where
  | unfinished :
      computation machine = none →
      computation machine.framed = none →
      Compares refusal computation machine
  | alike {answer : α} {after : Machine} :
      computation machine = some (answer, after) →
      computation machine.framed = some (answer, after.framed) →
      machine.Unrefused after →
      Compares refusal computation machine
  /-- There was no frame, and with one more that holds a status for good. -/
  | refused {answer : α} {host : MemoryHost} {after : Machine} :
      refusal = some answer →
      machine.host = .memory host →
      host.frames = [] →
      computation machine = some (answer, after) →
      machine.Refused after →
      (∀ ended, computation machine.framed = some ended → ended.2.HoldsStatus) →
      Compares refusal computation machine

/-- A computation that needs a frame only for process substitutions. -/
structure Comparable
    (refusal : Option α)
    (computation : Run α) :
    Prop where
  collects : Run.Keeps Collects computation
  compares : ∀ ⦃machine : Machine⦄ ⦃host : MemoryHost⦄,
    machine.host = .memory host →
    Compares refusal computation machine

/-- A computation that ends with an answer and has no part in process substitutions. -/
def Settles
    (answer : α)
    (computation : Run α) :
    Prop :=
  ∀ ⦃machine : Machine⦄ ⦃host : MemoryHost⦄,
    machine.host = .memory host →
    ∃ after, computation machine = some (answer, after) ∧ Trail machine [] after

namespace Settles

theorem pure
    (answer : α) :
    Settles answer (pure answer : Run α) :=
  fun machine _ _ => ⟨machine, rfl, .done machine⟩

theorem onHost
    {answer : α}
    {inertAnswer : β}
    {action : MemoryHost → β × MemoryHost}
    {next : β → Run α}
    (unconcerned : ∀ host, MemoryHost.Unconcerned host (action host).2)
    (returns : ∀ found, next found = Pure.pure answer) :
    Settles answer (Run.onHost inertAnswer action >>= next) := by
  rintro ⟨scope, trace, _, peer⟩ host rfl
  refine ⟨⟨scope, trace, .memory (action host).2, peer⟩, ?_, ?_⟩
  · change next (action host).1 _ = _
    rw [returns]
    rfl
  · exact .of_unconcerned rfl (unconcerned host)

end Settles

/-- To compare says nothing of a computation but what it does from the two machines. -/
theorem Compares.of_eq
    {refusal : Option α}
    {computation other : Run α}
    {machine : Machine}
    (compares : Compares refusal other machine)
    (here : computation machine = other machine)
    (framed : computation machine.framed = other machine.framed) :
    Compares refusal computation machine := by
  cases compares with
  | unfinished finished framedFinished =>
      exact .unfinished (here.trans finished) (framed.trans framedFinished)
  | alike finished framedFinished unrefused =>
      exact .alike (here.trans finished) (framed.trans framedFinished) unrefused
  | refused isRefusal found noFrame finished refused holds =>
      refine .refused isRefusal found noFrame (here.trans finished) refused ?_
      rwa [framed]

/-- What changes the machine around a computation compares as the computation does. -/
theorem Compares.around
    {refusal : Option α}
    {computation inner : Run α}
    {machine entered : Machine}
    (compares : Compares refusal inner entered)
    (leave : Machine → Machine)
    (here :
      computation machine = (inner entered).map fun ended => (ended.1, leave ended.2))
    (framed :
      computation machine.framed =
        (inner entered.framed).map fun ended => (ended.1, leave ended.2))
    (leaves : ∀ after, (leave after).host = after.host)
    (leavesFramed : ∀ after, leave after.framed = (leave after).framed)
    (trail : ∀ {history : List ProcessSubEvent} {after : Machine},
      Trail entered history after →
      Trail machine history (leave after))
    (enters : entered.host = machine.host) :
    Compares refusal computation machine := by
  cases compares with
  | unfinished finished framedFinished =>
      exact .unfinished (here.trans (congrArg (Option.map _) finished))
        (framed.trans (congrArg (Option.map _) framedFinished))
  | alike finished framedFinished unrefused =>
      obtain ⟨history, inside, noneRefused⟩ := unrefused
      refine .alike (here.trans (congrArg (Option.map _) finished)) ?_
        ⟨history, trail inside, noneRefused⟩
      rw [framed, framedFinished, Option.map_some, leavesFramed]
  | refused isRefusal found noFrame finished refused holds =>
      obtain ⟨history, inside, noneRefused⟩ := refused
      refine .refused isRefusal (enters.symm.trans found) noFrame
        (here.trans (congrArg (Option.map _) finished)) ⟨history, trail inside, noneRefused⟩ ?_
      rintro _ ended
      obtain ⟨⟨_, between⟩, ran, rfl⟩ := Option.map_eq_some_iff.mp (framed.symm.trans ended)
      obtain ⟨memory, entry, others, inMemory, frames⟩ := holds _ ran
      exact ⟨memory, entry, others, (leaves between).trans inMemory, frames⟩

/-- The rest of a sequence, from the end of a part that does the same with one more frame. -/
theorem Compares.behind
    {refusal : Option α}
    {first : Run β}
    {next : β → Run α}
    {answer : β}
    {machine between : Machine}
    {host : MemoryHost}
    (inMemory : machine.host = .memory host)
    (collects : Collects machine between)
    (started : first machine = some (answer, between))
    (framed : first machine.framed = some (answer, between.framed))
    (unrefused : machine.Unrefused between)
    (compares : ∀ ⦃middle : MemoryHost⦄,
      between.host = .memory middle →
      Compares refusal (next answer) between) :
    Compares refusal (first >>= next) machine := by
  have rest : (first >>= next) machine = next answer between := by
    change (first machine).bind _ = _
    rw [started, Option.bind_some]
  have restFramed : (first >>= next) machine.framed = next answer between.framed := by
    change (first machine.framed).bind _ = _
    rw [framed, Option.bind_some]
  obtain ⟨middle, reached⟩ := unrefused.inMemory inMemory
  cases compares reached with
  | unfinished finished framedFinished =>
      exact .unfinished (rest.trans finished) (restFramed.trans framedFinished)
  | alike finished framedFinished later =>
      exact .alike (rest.trans finished) (restFramed.trans framedFinished)
        (unrefused.trans later)
  | refused isRefusal found noFrame finished refused holds =>
      obtain rfl := Host.memory.inj (found.symm.trans reached)
      have noneBefore := (collects.frames_eq_nil_iff inMemory reached).mp noFrame
      refine .refused isRefusal inMemory noneBefore (rest.trans finished)
        (refused.after unrefused) ?_
      rwa [restFramed]

namespace Comparable

variable {refusal : Option α}

theorem pure
    (answer : α) :
    Comparable refusal (pure answer : Run α) where
  collects := Collects.composable.runPure answer
  compares machine _ _ := .alike rfl rfl (.of_trail (.done machine))

theorem modify
    {refusal : Option PUnit}
    {change : Machine → Machine}
    (host : ∀ machine, (change machine).host = machine.host)
    (keeps : ∀ machine, Machine.KeepsStatuses machine (change machine))
    (framed : ∀ machine, change machine.framed = (change machine).framed) :
    Comparable refusal (modify change) where
  collects before after result finished := by
    cases finished
    exact .of_host_eq (host before) (keeps before)
  compares machine memory inMemory := by
    refine .alike rfl ?_
      (.of_trail (.aside_of_host_eq inMemory (host machine) (keeps machine)))
    exact congrArg (fun changed => some ((), changed)) (framed machine)

theorem onHost
    {inertAnswer : α}
    {action : MemoryHost → α × MemoryHost}
    (oblivious : MemoryHost.Oblivious action)
    (unconcerned : ∀ host, MemoryHost.Unconcerned host (action host).2) :
    Comparable refusal (Run.onHost inertAnswer action) where
  collects := Collects.keeps_onHost unconcerned
  compares := by
    rintro ⟨scope, trace, _, peer⟩ host rfl
    refine .alike rfl ?_ (.of_trail (.of_unconcerned rfl (unconcerned host)))
    simp only [Run.onHost, Host.act, Machine.framed, Host.framed, oblivious host]

/-- After a refusal, the second computation can only settle it. -/
theorem bind
    {firstRefusal : Option β}
    {first : Run β}
    {next : β → Run α}
    (firstComparable : first.Comparable firstRefusal)
    (nextComparable : ∀ answer, (next answer).Comparable refusal)
    (settles : ∀ refused, firstRefusal = some refused →
      ∃ answer, refusal = some answer ∧ (next refused).Settles answer) :
    Comparable refusal (first >>= next) where
  collects :=
    Collects.composable.runBind firstComparable.collects fun answer =>
      (nextComparable answer).collects
  compares machine host inMemory := by
    cases firstComparable.compares inMemory with
    | unfinished finished framed =>
        refine .unfinished ?_ ?_
        · change (first machine).bind _ = none
          rw [finished, Option.bind_none]
        · change (first machine.framed).bind _ = none
          rw [framed, Option.bind_none]
    | @alike answer _ started framed unrefused =>
        exact .behind inMemory (firstComparable.collects started) started framed unrefused
          fun middle reached => (nextComparable answer).compares reached
    | @refused refusedAnswer _ between isRefusal found noFrame started refused holds =>
        obtain ⟨answer, isAnswer, settles⟩ := settles refusedAnswer isRefusal
        obtain ⟨_, reached⟩ := refused.inMemory inMemory
        obtain ⟨after, settled, aside⟩ := settles reached
        refine .refused isAnswer found noFrame ?_ (refused.aside aside) ?_
        · exact Run.bind_eq_some_iff.mpr ⟨refusedAnswer, between, started, settled⟩
        · rintro ⟨result, ended⟩ finished
          obtain ⟨reachedAnswer, framedBetween, framedStarted, framedEnded⟩ :=
            Run.bind_eq_some_iff.mp finished
          exact ((nextComparable reachedAnswer).collects framedEnded).holdsStatus
            (holds _ framedStarted)

/-- Where the first part refuses nothing, there is nothing to settle. -/
theorem behind
    {first : Run β}
    {next : β → Run α}
    (firstComparable : first.Comparable none)
    (nextComparable : ∀ answer, (next answer).Comparable refusal) :
    Comparable refusal (first >>= next) :=
  bind firstComparable nextComparable nofun

/-- A refusal is handed on, maybe in another form, by what comes after. -/
theorem handingOn
    {error : Option ε}
    {thrown : ε → β}
    {handed : ε → α}
    {first : Run β}
    {next : β → Run α}
    (firstComparable : first.Comparable (error.map thrown))
    (nextComparable : ∀ answer, (next answer).Comparable (error.map handed))
    (settles : ∀ error, (next (thrown error)).Settles (handed error)) :
    Comparable (error.map handed) (first >>= next) := by
  refine bind firstComparable nextComparable fun refused isRefusal => ?_
  obtain ⟨error, isError, rfl⟩ := Option.map_eq_some_iff.mp isRefusal
  exact ⟨handed error, Option.map_eq_some_iff.mpr ⟨error, isError, rfl⟩, settles error⟩

/-- A computation may look at the machine, as far as the open frames are not concerned. -/
theorem withMachine
    {next : Machine → Run α}
    (same : ∀ machine, next machine.framed = next machine)
    (nextComparable : ∀ machine, (next machine).Comparable refusal) :
    Comparable refusal (get >>= next) where
  collects before _ _ finished := (nextComparable before).collects finished
  compares machine host inMemory := by
    have framed : (get >>= next) machine.framed = next machine machine.framed :=
      congrArg (fun computation => computation machine.framed) (same machine)
    exact ((nextComparable machine).compares inMemory).of_eq rfl framed

/-- On hosts in memory, a computation compares as one that does the same there. -/
theorem of_memory
    {computation other : Run α}
    (collects : Run.Keeps Collects computation)
    (same : ∀ machine host, machine.host = .memory host → computation machine = other machine)
    (comparable : other.Comparable refusal) :
    Comparable refusal computation where
  collects := collects
  compares machine host inMemory := by
    have framed := same machine.framed host.framed (Machine.host_framed inMemory)
    exact (comparable.compares inMemory).of_eq (same machine host inMemory) framed

end Comparable

end Run

namespace Eval

/-- An evaluation that needs a frame only for process substitutions, and fails without one. -/
def Comparable
    (refusal : Option RuntimeError)
    (evaluation : Eval α) :
    Prop :=
  Run.Comparable (refusal.map .error) evaluation.run

namespace Comparable

variable {refusal : Option RuntimeError}

theorem pure
    (answer : α) :
    Comparable refusal (pure answer : Eval α) :=
  show Run.Comparable _ (Pure.pure (Except.ok answer) : Run _) from .pure _

theorem throw
    (error : RuntimeError) :
    Comparable refusal (throw error : Eval α) :=
  show Run.Comparable _ (Pure.pure (Except.error error) : Run _) from .pure _

theorem bind
    {first : Eval α}
    {next : α → Eval β}
    (firstComparable : first.Comparable refusal)
    (nextComparable : ∀ answer, (next answer).Comparable refusal) :
    (first >>= next).Comparable refusal := by
  unfold Comparable
  rw [ExceptT.run_bind]
  refine Run.Comparable.handingOn firstComparable (fun reached => ?_) fun _ => .pure _
  cases reached with
  | ok answer => exact nextComparable answer
  | error error => exact .pure _

theorem ofExcept
    (wrap : ε → RuntimeError)
    (outcome : Except ε α) :
    (Eval.ofExcept wrap outcome).Comparable refusal := by
  cases outcome with
  | ok answer => exact pure answer
  | error error => exact throw (wrap error)

theorem require
    (env : Env)
    (connection : Connection) :
    (Eval.require env connection).Comparable refusal := by
  unfold Eval.require
  split
  · exact pure ()
  · exact throw _

theorem withScope
    {next : Scope → Eval α}
    (nextComparable : ∀ scope, (next scope).Comparable refusal) :
    (Eval.scope >>= next).Comparable refusal :=
  Run.Comparable.withMachine (fun _ => rfl) fun machine => nextComparable machine.scope

theorem ofChange
    {change : Machine → Machine}
    (host : ∀ machine, (change machine).host = machine.host)
    (keeps : ∀ machine, Machine.KeepsStatuses machine (change machine))
    (framed : ∀ machine, change machine.framed = (change machine).framed) :
    (modify change : Eval Unit).Comparable refusal :=
  show Run.Comparable _ (modify change >>= fun _ => Pure.pure (Except.ok ()) : Run _) from
    .behind (.modify host keeps framed) fun _ => .pure _

theorem ofScopeChange
    {change : Scope → Scope}
    (isChange : Scope.Change change) :
    (Eval.mapScope change).Comparable refusal :=
  ofChange (fun _ => rfl) (.of_change isChange) fun _ => rfl

theorem onHost
    {inertAnswer : α}
    {action : MemoryHost → Except RuntimeError α × MemoryHost}
    (oblivious : MemoryHost.Oblivious action)
    (unconcerned : ∀ host, MemoryHost.Unconcerned host (action host).2) :
    (Eval.onHost inertAnswer action).Comparable refusal :=
  Run.Comparable.onHost oblivious unconcerned

/-- Tracing asks for connections and adds a line. -/
theorem emitIfOn
    (env : Env)
    (text : String) :
    (Trace.emitIfOn env text).Comparable refusal := by
  have pieces :
      ∀ pieces, (Eval.each (Prompt.expandPiece env) pieces).Comparable refusal := by
    intro pieces
    induction pieces with
    | nil => exact pure []
    | cons piece rest inductionHypothesis =>
        refine bind ?_ fun _ => bind inductionHypothesis fun _ => pure _
        cases piece with
        | text text => exact pure _
        | var name => exact bind (require env _) fun _ => withScope fun _ => pure _
  refine withScope fun scope => ?_
  split
  · refine bind (require env _) fun _ => bind (require env _) fun _ => ?_
    refine bind (bind (pieces _) fun _ => pure _) fun lead => ?_
    exact ofChange (fun _ => rfl) (fun _ => ⟨rfl, rfl⟩) fun _ => rfl
  · exact pure ()

section Brackets

theorem runFrame
    {below : Evaluator}
    {env : Env}
    {function : Function}
    (args : List Value)
    (body : (CommandList.execute below env function.body).Comparable refusal) :
    (Function.runFrame below env function args).Comparable refusal where
  collects := Collects.discipline.runFrame args body.collects
  compares machine host inMemory := by
    have entered :
        (machine.mapScope fun scope => scope.enterCall function args).host = .memory host :=
      inMemory
    refine (body.compares entered).around
      (fun after => after.mapScope fun scope => scope.leaveCall machine.scope)
      (Function.run_runFrame below env function args machine)
      (Function.run_runFrame below env function args machine.framed) ?_ ?_ ?_ rfl
    · exact fun _ => rfl
    · exact fun _ => rfl
    · exact fun trail => trail.inCall inMemory

theorem keepingScope
    {evaluation : Eval α}
    (comparable : evaluation.Comparable refusal) :
    (Isolation.keepingScope evaluation).Comparable refusal where
  collects := Collects.discipline.keepingScope comparable.collects
  compares machine host inMemory := by
    refine (comparable.compares inMemory).around
      (fun after => after.mapScope fun _ => machine.scope)
      (Isolation.run_keepingScope evaluation machine)
      (Isolation.run_keepingScope evaluation machine.framed) ?_ ?_ ?_ rfl
    · exact fun _ => rfl
    · exact fun _ => rfl
    · exact fun trail => trail.keepingScope

theorem inPeer
    {evaluation : Eval α}
    (comparable : evaluation.Comparable refusal) :
    (Host.inPeer evaluation).Comparable refusal where
  collects := Composable.inPeer Collects.discipline.peer comparable.collects
  compares machine host inMemory := by
    have entered : machine.swap.host = .memory host := inMemory
    refine (comparable.compares entered).around Machine.swap
      (Host.run_inPeer evaluation machine)
      (Host.run_inPeer evaluation machine.framed) ?_ ?_ ?_ rfl
    · exact fun _ => rfl
    · exact fun _ => rfl
    · exact fun trail => trail.exchanged

theorem callBack
    (env : Env)
    {evaluation : Env → Eval α}
    (comparable : ∀ env, (evaluation env).Comparable refusal) :
    (Host.callBack env evaluation).Comparable refusal := by
  unfold Host.callBack
  cases env.callback with
  | missing => exact throw _
  | dropped => exact throw _
  | own => exact comparable env
  | peer setup => exact inPeer (comparable _)

theorem recorded
    {call : HostCall}
    (reentrant : call.Reentrant)
    (inertAnswer : α)
    {evaluation : Eval α}
    (comparable : evaluation.Comparable refusal) :
    (Host.recorded call inertAnswer evaluation).Comparable refusal := by
  have records :
      (Eval.onHost () fun host => (.ok (), host.record call)).Comparable refusal := by
    cases reentrant with
    | processSub =>
        refine ⟨Collects.keeps_reentry .processSub, ?_⟩
        rintro ⟨scope, trace, _, peer⟩ host rfl
        exact .alike rfl rfl ⟨[.called], .event (.called rfl) (.done _), by simp⟩
    | _ => exact onHost (fun _ => rfl) fun host => .record host rfl
  have collects :=
    Collects.composable.recorded records.collects inertAnswer comparable.collects
  refine Run.Comparable.of_memory collects ?_ (bind records fun _ => comparable)
  rintro ⟨scope, trace, _, peer⟩ host rfl
  rfl

theorem withCapture
    {evaluation : Eval α}
    (comparable : evaluation.Comparable refusal) :
    (Host.withCapture evaluation).Comparable refusal := by
  refine Run.Comparable.behind (.onHost (fun _ => rfl) .beginCapture) fun bound => ?_
  have closes : ∀ host, MemoryHost.Unconcerned host (host.endCapture bound).2 :=
    fun host => .endCapture host bound
  refine .handingOn comparable (fun _ => ?_) fun _ => .onHost closes fun _ => rfl
  exact .behind (.onHost (fun _ => rfl) closes) fun _ => .pure _

theorem underRedirects
    (redirections : List Redirection)
    {evaluation : Eval ControlFlow}
    (comparable : evaluation.Comparable refusal) :
    (Commands.underRedirects redirections evaluation).Comparable refusal := by
  have opens := (MemoryHost.frameless_pushRedirects redirections).oblivious
  have closes := (MemoryHost.frameless_popRedirects redirections.length).oblivious
  have closesAside :
      ∀ host, MemoryHost.Unconcerned host (host.popRedirects redirections.length) :=
    fun host => .popRedirects host redirections.length
  have guarded :
      Run.Comparable (refusal.map fun error => some (.error error))
        (Guard.withRedirects redirections evaluation.run) := by
    refine .behind (.onHost opens fun host => .pushRedirects host redirections) fun holds => ?_
    cases holds with
    | true =>
        refine .handingOn comparable (fun _ => ?_) fun _ => .onHost closesAside fun _ => rfl
        exact .behind (.onHost closes closesAside) fun _ => .pure _
    | false => exact .pure _
  refine Run.Comparable.handingOn guarded (fun ended => ?_) fun _ => .pure _
  cases ended <;> exact .pure _

theorem runBuiltin
    (name : String)
    (argv : List String) :
    (Eval.ofRun (Guard.withFlush (Host.runBuiltin name argv).run)).Comparable refusal := by
  have oblivious := (MemoryHost.frameless_runBuiltin name argv).oblivious
  refine Run.Comparable.behind (.onHost oblivious fun host => .runBuiltin host name argv) ?_
  refine fun _ => .behind (.onHost (fun _ => rfl) fun host => ?_) fun _ => .pure _
  exact .record host rfl

/-- A status goes into a frame, or is refused; then the frame at the bottom would hold it. -/
theorem finishProcessSub
    (status : Int32)
    (output : String)
    (span : SpanId) :
    (Eval.onHost "" fun host => host.finishProcessSub status output span).Comparable
      (some .unframed) := by
  refine ⟨Collects.keeps_finishProcessSub status output span, ?_⟩
  rintro ⟨scope, trace, _, peer⟩ host rfl
  by_cases noFrame : host.frames = []
  · obtain ⟨⟨stored, refuses⟩, holds⟩ :=
      MemoryHost.finishProcessSub_unframed noFrame status output span
    have ended :
        (Eval.onHost "" fun host => host.finishProcessSub status output span).run
            ⟨scope, trace, .memory host, peer⟩ =
          some (.error .unframed, ⟨scope, trace, .memory stored, peer⟩) := by
      simp only [Eval.onHost, Eval.ofRun, ExceptT.run_mk, Run.onHost, Host.act, refuses]
    refine .refused rfl rfl noFrame ended ?_ ?_
    · exact ⟨[], .event (.refused rfl refuses) (.done _), List.not_mem_nil⟩
    · rintro _ finished
      cases finished
      exact ⟨_, _, _, rfl, holds⟩
  · obtain ⟨path, stored, stores, storesFramed⟩ :=
      MemoryHost.finishProcessSub_framed noFrame status output span
    have ended :
        (Eval.onHost "" fun host => host.finishProcessSub status output span).run
            ⟨scope, trace, .memory host, peer⟩ =
          some (.ok path, ⟨scope, trace, .memory stored, peer⟩) := by
      simp only [Eval.onHost, Eval.ofRun, ExceptT.run_mk, Run.onHost, Host.act, stores]
    refine .alike ended ?_ ⟨[.finished (status, span)], ?_, by simp⟩
    · simp only [Eval.onHost, Eval.ofRun, ExceptT.run_mk, Run.onHost, Host.act, Machine.framed,
        Host.framed, storesFramed]
    · exact .event (.finished rfl stores) (.done _)

/-- Inside a frame nothing is refused, whatever is evaluated there. -/
theorem withProcessSubs
    (env : Env)
    {evaluation : Eval ControlFlow}
    (comparable : evaluation.Comparable (some .unframed)) :
    (Commands.withProcessSubs env evaluation).Comparable refusal := by
  refine ⟨Collects.keeps_withProcessSubs env comparable.collects, ?_⟩
  rintro ⟨scope, trace, _, peer⟩ host rfl
  by_cases connected : Connection.commandToHost ∈ env.setup.connections
  · have bracketed :=
      Commands.run_withProcessSubs connected evaluation ⟨scope, trace, .memory host, peer⟩
    have bracketedFramed :=
      Commands.run_withProcessSubs connected evaluation ⟨scope, trace, .memory host.framed, peer⟩
    have opened : Trail ⟨scope, trace, .memory host, peer⟩ [.opened] _ :=
      .event (.opened rfl) (.done _)
    have inside :
        Run.Compares (some (.error .unframed)) evaluation.run
          ⟨scope, trace, .memory host.pushProcessSub, peer⟩ :=
      comparable.compares rfl
    cases inside with
    | unfinished finished framed =>
        exact .unfinished (bracketed.trans (congrArg (Option.map _) finished))
          (bracketedFramed.trans (congrArg (Option.map _) framed))
    | alike finished framed unrefused =>
        obtain ⟨final, reached⟩ := unrefused.inMemory rfl
        have sameEmptiness :=
          (comparable.collects finished).frames_eq_nil_iff rfl reached
        have stillOpen : final.frames ≠ [] := fun noFrame => nomatch sameEmptiness.mp noFrame
        refine .alike (bracketed.trans (congrArg (Option.map _) finished)) ?_ ?_
        · refine (bracketedFramed.trans (congrArg (Option.map _) framed)).trans ?_
          rw [Option.map_some, Machine.popFrame_framed reached stillOpen]
        · exact (Machine.Unrefused.trans ⟨_, opened, by simp⟩ unrefused).trans
            (Machine.unrefused_popFrame reached stillOpen)
    | refused _ found noFrame =>
        cases found
        cases noFrame
  · have required :
        ∀ machine, (Commands.withProcessSubs env evaluation).run machine =
          some (.error (.wiring (.missing Connection.commandToHost.name)), machine) := by
      intro machine
      unfold Commands.withProcessSubs Eval.require
      rw [if_neg connected]
      rfl
    exact .alike (required _) (required _) (.of_trail (.done _))

end Brackets

/-- To need frames only for process substitutions is a congruence. -/
theorem congruence :
    Congruence (fun evaluation _ => Comparable (some .unframed) evaluation) Eq where
  pure := pure
  throw _ := throw _
  bind := bind
  withScope nextComparable := withScope fun scope => nextComparable scope scope.xtrace
  update := ofScopeChange
  require connection _ := require _ connection
  trace text _ := emitIfOn _ text
  callables same := same ▸ rfl
  callable _ _ _ := ofExcept id _
  frame _ args := runFrame args
  reentry inertAnswer _ reentrant comparable nextComparable :=
    recorded reentrant inertAnswer
      (bind (callBack _ fun _ => comparable rfl) nextComparable)
  runSimple argv :=
    onHost (MemoryHost.frameless_runSimple argv).oblivious fun host => .runSimple host argv
  runBuiltin := runBuiltin
  finishProcessSub := finishProcessSub
  isolation := keepingScope
  capture := withCapture
  processSubs _ := withProcessSubs _
  redirects redirections := underRedirects redirections

theorem outOfFuel :
    (Eval.outOfFuel : Eval α).Comparable refusal where
  collects _ _ _ finished := nomatch finished
  compares _ _ _ := .unfinished rfl rfl

theorem related
    (fuel : Nat) :
    Evaluator.Related (fun evaluation _ => Comparable (some .unframed) evaluation) Eq
      (ShellCore.evaluator fuel) (ShellCore.evaluator fuel) :=
  congruence.evaluator outOfFuel fuel

/-- Whatever is evaluated needs a frame only for process substitutions. -/
theorem evaluator
    (fuel : Nat)
    (env : Env)
    (request : Request α) :
    (ShellCore.evaluator fuel α env request).Comparable (some .unframed) :=
  related fuel rfl request

section Openings

variable (fuel : Nat)
variable (env : Env)

theorem simple
    (words : List Word) :
    (Commands.runSimple (ShellCore.evaluator fuel) env words).Comparable (some .unframed) :=
  @Congruence.simple _ _ congruence (ShellCore.evaluator fuel) (ShellCore.evaluator fuel)
    (related fuel) env env rfl words

theorem forEach
    (name : String)
    (items : List Word)
    (body : List Command) :
    (Commands.runForEach (ShellCore.evaluator fuel) env name items body).Comparable
      (some .unframed) := by
  let read := Evaluator.word (ShellCore.evaluator fuel) env
  have words : (Eval.each read items).Comparable (some .unframed) :=
    @Congruence.each _ _ congruence _ _ read read
      (fun word => evaluator fuel env (.word word)) items
  refine bind (require env _) fun _ => bind words ?_
  exact @Congruence.items _ _ congruence (ShellCore.evaluator fuel) (ShellCore.evaluator fuel)
    (related fuel) env env rfl name body 0

theorem redirected
    (body : Command)
    (redirects : List Redirect) :
    (Commands.runRedirected (ShellCore.evaluator fuel) env body redirects).Comparable
      (some .unframed) :=
  @Congruence.redirected _ _ congruence (ShellCore.evaluator fuel) (ShellCore.evaluator fuel)
    (related fuel) env env rfl body redirects

end Openings

/-- A command that opens a frame leaves its status behind once the frame is closed. -/
theorem inFrame
    (env : Env)
    {evaluation : Eval ControlFlow}
    (comparable : evaluation.Comparable (some .unframed)) :
    Comparable none (do
      let flow ← Commands.withProcessSubs env evaluation
      Commands.keepStatus flow
      return flow) := by
  refine bind (withProcessSubs env comparable) fun flow => bind ?_ fun _ => pure flow
  cases flow with
  | normal status => exact ofScopeChange (.lastStatus status)
  | raise signal => exact pure ()

end Comparable

end Eval

end ShellCore
