import ShellCore.Proofs.Spans.Steps

namespace ShellCore

/-!
# Brackets that are alike

Guards, frames of calls, captures and calls back to a set are alike around evaluations
that are alike. A frame takes the tokens of process substitutions, and yields them; what
a redirection does has nothing to do with its token.
-/

variable {paired : SpanId → SpanId → Prop}

namespace MemoryHost

variable {redirection otherRedirection : Redirection}
variable {redirections otherRedirections : List Redirection}

theorem applyRedirection?_alike
    (host : MemoryHost)
    (alike : redirection.Alike paired otherRedirection) :
    host.applyRedirection? otherRedirection = host.applyRedirection? redirection := by
  obtain ⟨same, -⟩ := alike
  rw [same]
  rfl

/-- Redirections that are alike hold up to the same one, on the same host. -/
theorem applyRedirections_alike
    (host : MemoryHost)
    (alike : List.Forall₂ (Redirection.Alike paired) redirections otherRedirections) :
    (host.applyRedirections otherRedirections).1 = (host.applyRedirections redirections).1 ∧
      List.Forall₂ (Redirection.Alike paired) (host.applyRedirections redirections).2
        (host.applyRedirections otherRedirections).2 := by
  induction alike generalizing host with
  | nil => exact ⟨rfl, .nil⟩
  | cons first rest inductionHypothesis =>
      unfold applyRedirections
      rw [applyRedirection?_alike host first]
      cases host.applyRedirection? _ with
      | some applied => exact inductionHypothesis applied
      | none => exact ⟨rfl, .cons first rest⟩

theorem pushRedirects_alike
    (host : MemoryHost)
    (alike : List.Forall₂ (Redirection.Alike paired) redirections otherRedirections) :
    host.pushRedirects otherRedirections = host.pushRedirects redirections := by
  obtain ⟨sameHost, left⟩ := applyRedirections_alike host alike
  unfold pushRedirects
  rw [← alike.length_eq]
  generalize host.applyRedirections redirections = ended at sameHost left
  generalize host.applyRedirections otherRedirections = otherEnded at sameHost left
  obtain ⟨applied, failed⟩ := ended
  obtain ⟨otherApplied, otherFailed⟩ := otherEnded
  obtain rfl : otherApplied = applied := sameHost
  cases left with
  | nil => rfl
  | cons first rest =>
      obtain ⟨same, -⟩ := first
      dsimp only
      rw [same, rest.length_eq]

/-- What running a builtin fails with is about no token. -/
theorem runInProcess_tokenless
    {host : MemoryHost}
    {builtin : Builtin}
    {argv : List String}
    {error : RuntimeError}
    (failed : (host.runInProcess builtin argv).1 = .error error) :
    error.token? = none := by
  unfold runInProcess at failed
  split at failed <;> cases failed
  rfl

theorem runSimple_tokenless
    {host : MemoryHost}
    {argv : List String}
    {error : RuntimeError}
    (failed : (host.runSimple argv).1 = .error error) :
    error.token? = none := by
  unfold runSimple at failed
  dsimp only at failed
  split at failed
  · cases failed
  · split at failed
    · exact runInProcess_tokenless failed
    · cases failed

theorem runBuiltin_tokenless
    {host : MemoryHost}
    {name : String}
    {argv : List String}
    {error : RuntimeError}
    (failed : (host.runBuiltin name argv).1 = .error error) :
    error.token? = none := by
  unfold runBuiltin at failed
  dsimp only at failed
  split at failed
  · exact runInProcess_tokenless failed
  · cases failed

end MemoryHost

section Frames

theorem StatusArray.ofList_alike
    {entries otherEntries : List (Int32 × SpanId)}
    (alike : List.Forall₂ (fun entry other => other.1 = entry.1 ∧ paired entry.2 other.2)
      entries otherEntries) :
    (StatusArray.ofList entries).Alike paired (.ofList otherEntries) := by
  induction alike with
  | nil => exact ⟨rfl, .nil⟩
  | cons both _ inductionHypothesis =>
      exact ⟨congrArg₂ List.cons both.1 inductionHypothesis.codes,
        .cons both.2 inductionHypothesis.locations⟩

theorem Run.Alike.pushProcessSub :
    Run.Alike paired Eq Guard.pushProcessSub Guard.pushProcessSub :=
  Run.Alike.onHost rfl fun host _ _ frames =>
    ⟨rfl, .memory (host.record .pushProcessSub) (.cons .nil frames)⟩

/-- A frame that is closed yields the same statuses, from paired tokens. -/
theorem Run.Alike.popProcessSub :
    Run.Alike paired (StatusArray.Alike paired) Guard.popProcessSub Guard.popProcessSub := by
  refine Run.Alike.onHost ⟨rfl, .nil⟩ fun host frames otherFrames framesAlike => ?_
  cases framesAlike with
  | nil => exact ⟨⟨rfl, .nil⟩, .memory (host.record (.popProcessSub 0)) .nil⟩
  | @cons frame otherFrame outer otherOuter innermost rest =>
      have sameCount : otherFrame.length = frame.length := innermost.length_eq.symm
      refine ⟨StatusArray.ofList_alike innermost, ?_⟩
      change Host.Alike paired
        (.memory ((host.record (.popProcessSub frame.length)).withFrames outer))
        (.memory ((host.record (.popProcessSub otherFrame.length)).withFrames otherOuter))
      rw [sameCount]
      exact .memory _ rest

theorem Eval.Alike.finishProcessSub
    (status : Int32)
    (output : String)
    {span otherSpan : SpanId}
    (spans : paired span otherSpan) :
    Eval.Alike paired Eq
      (Eval.onHost "" fun host => host.finishProcessSub status output span)
      (Eval.onHost "" fun host => host.finishProcessSub status output otherSpan) := by
  refine Run.Alike.onHost (.ok rfl) fun host frames otherFrames framesAlike => ?_
  let path := "/dev/fd/" ++ toString host.nextDescriptor
  let stored : MemoryHost :=
    { host with
      nextDescriptor := host.nextDescriptor + 1
      files := host.files.insert path output }
  cases framesAlike with
  | nil => exact ⟨.error (.tokenless rfl), .memory stored .nil⟩
  | @cons frame otherFrame outer otherOuter innermost rest =>
      have frames :
          FramesAlike paired ((frame ++ [(status, span)]) :: outer)
            ((otherFrame ++ [(status, otherSpan)]) :: otherOuter) :=
        .cons (List.rel_append innermost (.cons ⟨rfl, spans⟩ .nil)) rest
      exact ⟨.ok rfl, .memory stored frames⟩

end Frames

namespace Eval.Alike

variable {related : α → α → Prop}

theorem runSimple
    (argv : List String) :
    Eval.Alike paired Eq (Host.runSimple argv) (Host.runSimple argv) :=
  onHost (MemoryHost.frameless_runSimple argv) fun _ _ => MemoryHost.runSimple_tokenless

theorem runBuiltin
    (name : String)
    (argv : List String) :
    Eval.Alike paired Eq (Host.runBuiltin name argv) (Host.runBuiltin name argv) :=
  onHost (MemoryHost.frameless_runBuiltin name argv) fun _ _ => MemoryHost.runBuiltin_tokenless

variable {evaluation other : Eval α}

theorem withFlush
    (alike : Eval.Alike paired related evaluation other) :
    Eval.Alike paired related (Eval.ofRun (Guard.withFlush evaluation.run))
      (Eval.ofRun (Guard.withFlush other.run)) :=
  Run.Alike.bind alike fun _ _ results =>
    Run.Alike.bind (.frameless true MemoryHost.frameless_flush) fun _ _ _ => .pure results

theorem keepingScope
    (alike : Eval.Alike paired related evaluation other) :
    Eval.Alike paired related (Isolation.keepingScope evaluation)
      (Isolation.keepingScope other) := by
  refine Run.Alike.bind .ofGet fun _ _ machines => ?_
  refine Run.Alike.bind alike fun _ _ results => ?_
  exact Run.Alike.bind (.mapScope fun _ => machines.scope) fun _ _ _ => .pure results

theorem inPeer
    (alike : Eval.Alike paired related evaluation other) :
    Eval.Alike paired related (Host.inPeer evaluation) (Host.inPeer other) :=
  Run.Alike.bind (.ofModify .swap) fun _ _ _ =>
    Run.Alike.bind alike fun _ _ results =>
      Run.Alike.bind (.ofModify .swap) fun _ _ _ => .pure results

theorem callBack
    {env : Env}
    {evaluation other : Env → Eval α}
    (respects : env.Respects paired)
    (alike : ∀ env : Env,
      env.Respects paired →
      Eval.Alike paired related (evaluation env) (other env)) :
    Eval.Alike paired related (Host.callBack env evaluation) (Host.callBack env other) := by
  unfold Host.callBack
  cases called : env.callback with
  | missing => exact throw (.tokenless rfl)
  | dropped => exact throw (.tokenless rfl)
  | own => exact alike env respects
  | peer setup => exact inPeer (alike ⟨setup, .own⟩ ⟨respects.peer setup called, nofun⟩)

theorem recorded
    (call : HostCall)
    {inertAnswer otherAnswer : α}
    (inert : related inertAnswer otherAnswer)
    (alike : Eval.Alike paired related evaluation other) :
    Eval.Alike paired related (Host.recorded call inertAnswer evaluation)
      (Host.recorded call otherAnswer other) := by
  have records :
      Eval.Alike paired Eq (Eval.onHost () fun host => (.ok (), host.record call))
        (Eval.onHost () fun host => (.ok (), host.record call)) :=
    onHost (MemoryHost.frameless_record (Except.ok ()) call) nofun
  have onMemory := bindEq records fun _ => alike
  refine bind ofGet fun machine otherMachine machines => ?_
  have hosts := machines.host
  generalize machine.host = host at hosts
  generalize otherMachine.host = otherHost at hosts
  cases hosts with
  | inert => exact pure inert
  | memory host frames => exact onMemory

theorem withCapture
    (alike : Eval.Alike paired Eq evaluation other) :
    Eval.Alike paired Eq (Host.withCapture evaluation) (Host.withCapture other) := by
  refine Run.Alike.bind (.frameless none MemoryHost.frameless_beginCapture) fun bound _ same => ?_
  subst same
  refine Run.Alike.bind alike fun _ _ results => ?_
  refine Run.Alike.bind (.frameless "" (MemoryHost.frameless_endCapture bound))
    fun output _ same => ?_
  subst same
  cases results with
  | ok answers => exact .pure (.ok (congrArg (·, output) answers))
  | error errors => exact .pure (.error errors)

theorem withProcessSubs
    {evaluation other : Eval ControlFlow}
    {related : ControlFlow → ControlFlow → Prop}
    (env : Env)
    (alike : Eval.Alike paired related evaluation other) :
    Eval.Alike paired related (Commands.withProcessSubs env evaluation)
      (Commands.withProcessSubs env other) := by
  refine bindEq (require env _) fun _ => ?_
  have guarded :
      Run.Alike paired (fun ended otherEnded =>
          ended.1.Alike paired otherEnded.1 ∧ ResultAlike paired related ended.2 otherEnded.2)
        (Guard.withProcessSubs evaluation.run) (Guard.withProcessSubs other.run) :=
    .bind .pushProcessSub fun _ _ _ => .bind alike fun _ _ results =>
      .bind .popProcessSub fun _ _ statuses => .pure ⟨statuses, results⟩
  refine Run.Alike.bind guarded fun _ _ both => ?_
  refine Run.Alike.bind (.mapScope fun scopes => ?_) fun _ _ _ => .pure both.2
  exact scopes.keepStatuses both.1

/-- Under redirections that are alike, commands that are alike run alike. -/
theorem underRedirects
    {evaluation other : Eval ControlFlow}
    {redirections otherRedirections : List Redirection}
    (redirectionsAlike :
      List.Forall₂ (Redirection.Alike paired) redirections otherRedirections)
    (alike : Eval.Alike paired (ControlFlow.Alike paired) evaluation other) :
    Eval.Alike paired (ControlFlow.Alike paired)
      (Commands.underRedirects redirections evaluation)
      (Commands.underRedirects otherRedirections other) := by
  have guarded :
      Run.Alike paired (Option.Rel (ResultAlike paired (ControlFlow.Alike paired)))
        (Guard.withRedirects redirections evaluation.run)
        (Guard.withRedirects otherRedirections other.run) := by
    have samePush :
        Guard.pushRedirects otherRedirections = Guard.pushRedirects redirections := by
      unfold Guard.pushRedirects
      simp only [MemoryHost.pushRedirects_alike _ redirectionsAlike]
    unfold Guard.withRedirects
    rw [samePush, ← redirectionsAlike.length_eq]
    refine .bind (.frameless true (MemoryHost.frameless_pushRedirects redirections))
      fun holds _ same => ?_
    subst same
    cases holds with
    | false => exact .pure .none
    | true =>
        refine .bind alike fun _ _ results => ?_
        refine .bind (.frameless () (MemoryHost.frameless_popRedirects redirections.length))
          fun _ _ _ => ?_
        exact .pure (.some results)
  refine Run.Alike.bind guarded fun _ _ ended => ?_
  cases ended with
  | none => exact .pure (.ok (.normal _))
  | some results => exact .pure results

/-- Functions that are alike run alike in a frame of their own. -/
theorem runFrame
    {below : Evaluator}
    {env : Env}
    {function otherFunction : Function}
    (args : List Value)
    (functions : function.Alike paired otherFunction)
    (bodies : Eval.Alike paired (ControlFlow.Alike paired)
      (CommandList.execute below env function.body)
      (CommandList.execute below env otherFunction.body)) :
    Eval.Alike paired (ControlFlow.Alike paired)
      (Function.runFrame below env function args)
      (Function.runFrame below env otherFunction args) := by
  refine Run.Alike.bind .ofGet fun _ _ machines => ?_
  refine Run.Alike.bind (.mapScope fun scopes => scopes.enterCall functions args) fun _ _ _ => ?_
  refine Run.Alike.bind bodies fun _ _ results => ?_
  refine Run.Alike.bind (.mapScope fun scopes => ?_) fun _ _ _ => .pure results
  exact scopes.leaveCall machines.scope

end Eval.Alike

end ShellCore
