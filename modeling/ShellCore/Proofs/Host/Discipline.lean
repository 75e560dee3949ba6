import ShellCore.Proofs.Evaluation.Discipline

namespace ShellCore

/-!
# Disciplines of a host in memory

Evaluation touches its host only through a few operations. A relation between
hosts that these keep, each or as a pair around anything that keeps it, holds
between the hosts before and after every evaluation.
-/

/-- An inert host stays inert; of two hosts in memory a relation holds. -/
inductive Host.Related
    (relation : MemoryHost → MemoryHost → Prop) :
    Host → Host → Prop where
  | inert : Related relation .inert .inert
  | memory {before after : MemoryHost} :
      relation before after →
      Related relation (.memory before) (.memory after)

/-- A relation between hosts that every operation of an evaluation keeps. -/
structure HostDiscipline
    (relation : MemoryHost → MemoryHost → Prop) :
    Prop where
  refl : ∀ host, relation host host
  trans : ∀ {left middle right},
    relation left middle → relation middle right → relation left right
  reentry : ∀ {call : HostCall} (host : MemoryHost),
    call.Reentrant → relation host (host.record call)
  runSimple : ∀ (host : MemoryHost) argv,
    relation host (host.runSimple argv).2
  /-- A builtin that is named as one is flushed after. -/
  runBuiltin : ∀ (host : MemoryHost) name argv,
    relation host (host.runBuiltin name argv).2.flush.2
  finishProcessSub : ∀ (host : MemoryHost) status output span,
    relation host (host.finishProcessSub status output span).2
  processSubs : ∀ {host after : MemoryHost},
    relation host.pushProcessSub after →
    relation host after.popProcessSub.2
  redirects : ∀ {host opened after : MemoryHost} {redirections : List Redirection},
    host.pushRedirects redirections = (true, opened) →
    relation opened after →
    relation host (after.popRedirects redirections.length)
  refusal : ∀ {host refused : MemoryHost} {redirections : List Redirection},
    host.pushRedirects redirections = (false, refused) →
    relation host refused
  capture : ∀ {host after : MemoryHost},
    relation host.beginCapture.2 after →
    relation host (after.endCapture host.beginCapture.1).2

namespace HostDiscipline

variable {relation : MemoryHost → MemoryHost → Prop}

/-- The relation between machines whose hosts are related. -/
def lift
    (relation : MemoryHost → MemoryHost → Prop)
    (before after : Machine) :
    Prop :=
  before.host.Related relation after.host

theorem lift_refl
    (reflexive : ∀ host, relation host host)
    (machine : Machine) :
    lift relation machine machine := by
  unfold lift
  cases machine.host with
  | inert => exact .inert
  | memory host => exact .memory (reflexive host)

/-- A host in memory stays one, and is related to what it was. -/
theorem related_of_memory
    {before after : Machine}
    {host : MemoryHost}
    (inMemory : before.host = .memory host)
    (related : lift relation before after) :
    ∃ final, after.host = .memory final ∧ relation host final := by
  unfold lift at related
  rw [inMemory] at related
  generalize after.host = later at related ⊢
  cases related with
  | memory holds => exact ⟨_, rfl, holds⟩

/-- What holds of hosts one after another holds of the machines around them. -/
theorem lift_composable
    (reflexive : ∀ host, relation host host)
    (transitive : ∀ {left middle right},
      relation left middle → relation middle right → relation left right) :
    Composable (lift relation) where
  refl := lift_refl reflexive
  trans := by
    rintro ⟨_, _, left, _⟩ ⟨_, _, middle, _⟩ ⟨_, _, right, _⟩ earlier later
    cases earlier with
    | inert => exact later
    | memory first =>
        cases later with
        | memory second => exact .memory (transitive first second)

/-- One operation on the host keeps what it keeps of every host in memory. -/
theorem keeps_onHost
    {inertAnswer : α}
    {action : MemoryHost → Except RuntimeError α × MemoryHost}
    (keeps : ∀ host, relation host (action host).2) :
    Eval.Keeps (lift relation) (Eval.onHost inertAnswer action) := by
  intro before after result finished
  rcases before with ⟨scope, trace, host, peer⟩
  cases host with
  | inert =>
      cases finished
      exact .inert
  | memory host =>
      cases finished
      exact .memory (keeps host)

/-- Around a capture holds what follows from what holds inside of it. -/
theorem withCapture_of_inside
    {inside outside : MemoryHost → MemoryHost → Prop}
    (closes : ∀ {host after : MemoryHost},
      inside host.beginCapture.2 after →
      outside host (after.endCapture host.beginCapture.1).2)
    {evaluation : Eval α}
    (keeps : Eval.Keeps (lift inside) evaluation) :
    Eval.Keeps (lift outside) (Host.withCapture evaluation) := by
  intro before after result finished
  obtain ⟨bound, opened, begun, started⟩ := Run.bind_eq_some_iff.mp finished
  obtain ⟨_, between, ran, ended⟩ := Run.bind_eq_some_iff.mp started
  obtain ⟨_, _, closed, returned⟩ := Run.bind_eq_some_iff.mp ended
  cases returned
  have related := keeps ran
  rcases before with ⟨scope, trace, host, peer⟩
  rcases between with ⟨laterScope, laterTrace, laterHost, laterPeer⟩
  cases host with
  | inert =>
      cases begun
      cases related
      cases closed
      exact .inert
  | memory host =>
      cases begun
      cases related with
      | memory held =>
          cases closed
          exact .memory (closes held)

variable (discipline : HostDiscipline relation)

include discipline

/-- Process substitution frames keep a discipline of the host. -/
theorem keeps_withProcessSubs
    (env : Env)
    {evaluation : Eval ControlFlow}
    (keeps : Eval.Keeps (lift relation) evaluation) :
    Eval.Keeps (lift relation) (Commands.withProcessSubs env evaluation) := by
  intro before after result finished
  rcases Commands.withProcessSubs_cases finished with
    rfl | ⟨opened, between, statuses, closed, pushed, ran, popped, rfl⟩
  · exact lift_refl discipline.refl _
  have related := keeps ran
  rcases before with ⟨scope, trace, host, peer⟩
  rcases between with ⟨laterScope, laterTrace, laterHost, laterPeer⟩
  cases host with
  | inert =>
      cases pushed
      cases related
      cases popped
      exact .inert
  | memory host =>
      cases pushed
      cases related with
      | memory inside =>
          cases popped
          exact .memory (discipline.processSubs inside)

/-- Redirections that hold or are refused keep a discipline of the host. -/
theorem keeps_withRedirects
    {computation : Run α}
    (redirections : List Redirection)
    (keeps : Run.Keeps (lift relation) computation) :
    Run.Keeps (lift relation) (Guard.withRedirects redirections computation) := by
  intro before after result finished
  obtain ⟨holds, opened, pushed, started⟩ := Run.bind_eq_some_iff.mp finished
  rcases before with ⟨scope, trace, host, peer⟩
  cases host with
  | inert =>
      cases pushed
      obtain ⟨_, between, ran, ended⟩ := Run.bind_eq_some_iff.mp started
      obtain ⟨_, _, popped, returned⟩ := Run.bind_eq_some_iff.mp ended
      cases returned
      have related := keeps ran
      rcases between with ⟨laterScope, laterTrace, laterHost, laterPeer⟩
      cases related
      cases popped
      exact .inert
  | memory host =>
      rcases outcome : host.pushRedirects redirections with ⟨accepted, applied⟩
      simp only [Guard.pushRedirects, Run.onHost, Host.act, outcome] at pushed
      cases pushed
      cases holds with
      | true =>
          obtain ⟨_, between, ran, ended⟩ := Run.bind_eq_some_iff.mp started
          obtain ⟨_, _, popped, returned⟩ := Run.bind_eq_some_iff.mp ended
          cases returned
          have related := keeps ran
          rcases between with ⟨laterScope, laterTrace, laterHost, laterPeer⟩
          cases related with
          | memory inside =>
              cases popped
              exact .memory (discipline.redirects outcome inside)
      | false =>
          cases started
          exact .memory (discipline.refusal outcome)

/-- A named builtin and the flush behind it keep a discipline of the host. -/
theorem keeps_runBuiltin
    (name : String)
    (argv : List String) :
    Run.Keeps (lift relation)
      (Guard.withFlush (Host.runBuiltin name argv).run) := by
  intro before after result finished
  obtain ⟨_, between, ran, ended⟩ := Run.bind_eq_some_iff.mp finished
  obtain ⟨_, _, flushed, returned⟩ := Run.bind_eq_some_iff.mp ended
  cases returned
  rcases before with ⟨scope, trace, host, peer⟩
  cases host with
  | inert =>
      cases ran
      cases flushed
      exact .inert
  | memory host =>
      cases ran
      cases flushed
      exact .memory (discipline.runBuiltin host name argv)

/-- A discipline of the host is one of the machine, whatever becomes of the rest of it. -/
theorem toDiscipline :
    Discipline (lift relation) where
  toComposable := lift_composable discipline.refl discipline.trans
  update _ := lift_refl discipline.refl _
  trace _ _ := lift_refl discipline.refl _
  frame _ _ inside := inside
  isolation inside := inside
  peer inside := inside
  reentry reentrant :=
    keeps_onHost fun host => discipline.reentry host reentrant
  runSimple argv := keeps_onHost fun host => discipline.runSimple host argv
  runBuiltin := discipline.keeps_runBuiltin
  finishProcessSub status output span :=
    keeps_onHost fun host => discipline.finishProcessSub host status output span
  processSubs := discipline.keeps_withProcessSubs
  redirects := discipline.keeps_withRedirects
  capture := withCapture_of_inside discipline.capture

end HostDiscipline

end ShellCore
