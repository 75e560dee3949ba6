import ShellCore.Proofs.Evaluation.Discipline

namespace ShellCore

/-!
# Disciplines of sessions

What a host does is of no concern to a relation that leaves the host out, so only
what happens to the sessions is left to check: to that of the set that runs, and to
that of its peer. A relation between sessions that is kept by the steps of one set
holds between both sessions before and after every evaluation.
-/

/-- A relation between machines that leaves the host out. -/
structure HostFree
    (relation : Machine → Machine → Prop) : Prop
    extends Composable relation where
  host : ∀ (machine : Machine) (host : Host),
    relation machine { machine with host := host }

namespace HostFree

variable {relation : Machine → Machine → Prop}
variable (free : HostFree relation)

include free

theorem onHost
    (inertAnswer : α)
    (action : MemoryHost → α × MemoryHost) :
    Run.Keeps relation (Run.onHost inertAnswer action) := by
  intro before after result finished
  cases finished
  exact free.host before _

theorem withRedirects
    (redirections : List Redirection)
    {computation : Run α}
    (keeps : Run.Keeps relation computation) :
    Run.Keeps relation (Guard.withRedirects redirections computation) :=
  free.toComposable.withRedirects (free.onHost _ _) (free.onHost _ _) keeps

theorem withCapture
    {evaluation : Eval α}
    (keeps : Eval.Keeps relation evaluation) :
    Eval.Keeps relation (Host.withCapture evaluation) :=
  free.toComposable.withCapture (free.onHost _ _) (fun _ => free.onHost _ _) keeps

theorem runBuiltin
    (name : String)
    (argv : List String) :
    Run.Keeps relation (Guard.withFlush (Host.runBuiltin name argv).run) :=
  free.toComposable.withFlush (free.onHost _ _) (free.onHost _ _)

variable (collects : ∀ (machine : Machine) (statuses : StatusArray),
  relation machine (machine.mapScope fun scope => { scope with processSubStatus := statuses }))

include collects

/-- Of a frame for process substitutions, only the statuses are left in the machine. -/
theorem withProcessSubs
    (env : Env)
    {evaluation : Eval ControlFlow}
    (keeps : Eval.Keeps relation evaluation) :
    Eval.Keeps relation (Commands.withProcessSubs env evaluation) := by
  intro before after result finished
  rcases Commands.withProcessSubs_cases finished with
    rfl | ⟨opened, between, statuses, closed, pushed, ran, popped, rfl⟩
  · exact free.refl _
  have opens : relation before opened := free.onHost _ _ pushed
  have closes : relation between closed := free.onHost _ _ popped
  have inside : relation before closed := free.trans opens (free.trans (keeps ran) closes)
  exact free.trans inside (collects closed statuses)

/-- A relation that leaves the host out is kept if the steps in one set keep it. -/
theorem toLocalDiscipline
    (update : ∀ {machine : Machine} {change : Scope → Scope},
      Scope.Change change →
      relation machine (machine.mapScope change))
    (trace : ∀ {machine : Machine} (line : String),
      machine.scope.xtrace = true →
      relation machine { machine with trace := machine.trace ++ [line] })
    (frame : ∀ {machine after : Machine} (function : Function) (args : List Value),
      relation (machine.mapScope fun scope => scope.enterCall function args) after →
      relation machine (after.mapScope fun scope => scope.leaveCall machine.scope))
    (isolation : ∀ {machine after : Machine},
      relation machine after →
      relation machine (after.mapScope fun _ => machine.scope)) :
    LocalDiscipline relation where
  toComposable := free.toComposable
  update := update
  trace := trace
  frame := frame
  isolation := isolation
  reentry _ := .onHost (free.onHost _ _)
  runSimple _ := .onHost (free.onHost _ _)
  runBuiltin := free.runBuiltin
  finishProcessSub _ _ _ := .onHost (free.onHost _ _)
  processSubs := free.withProcessSubs collects
  redirects redirections keeps := free.withRedirects redirections keeps
  capture := free.withCapture

end HostFree

/-- A relation between sessions that every step of an evaluation keeps. -/
structure SessionDiscipline
    (relation : Session → Session → Prop) :
    Prop where
  refl : ∀ session, relation session session
  trans : ∀ {left middle right},
    relation left middle → relation middle right → relation left right
  update : ∀ (session : Session) {change : Scope → Scope},
    Scope.Change change →
    relation session { session with scope := change session.scope }
  /-- A command keeps the statuses of the frame that it runs in. -/
  collect : ∀ (session : Session) (statuses : StatusArray),
    relation session
      { session with scope := { session.scope with processSubStatus := statuses } }
  trace : ∀ (session : Session) (line : String),
    session.scope.xtrace = true →
    relation session { session with trace := session.trace ++ [line] }
  frame : ∀ {session after : Session} (function : Function) (args : List Value),
    relation { session with scope := session.scope.enterCall function args } after →
    relation session { after with scope := after.scope.leaveCall session.scope }
  isolation : ∀ {session after : Session},
    relation session after →
    relation session { after with scope := session.scope }

namespace SessionDiscipline

variable {relation : Session → Session → Prop}

/-- The relation between machines both of whose sessions are related. -/
def lift
    (relation : Session → Session → Prop)
    (before after : Machine) :
    Prop :=
  relation before.session after.session ∧ relation before.peer after.peer

variable (discipline : SessionDiscipline relation)

include discipline

theorem lift_hostFree :
    HostFree (lift relation) where
  refl machine := ⟨discipline.refl machine.session, discipline.refl machine.peer⟩
  trans earlier later :=
    ⟨discipline.trans earlier.1 later.1, discipline.trans earlier.2 later.2⟩
  host machine _ := ⟨discipline.refl machine.session, discipline.refl machine.peer⟩

/-- A discipline of sessions is one of the machine, whatever becomes of the host. -/
theorem toDiscipline :
    Discipline (lift relation) where
  toLocalDiscipline := by
    apply discipline.lift_hostFree.toLocalDiscipline
    · exact fun machine statuses =>
        ⟨discipline.collect machine.session statuses, discipline.refl _⟩
    · exact fun isChange => ⟨discipline.update _ isChange, discipline.refl _⟩
    · exact fun line isOn => ⟨discipline.trace _ line isOn, discipline.refl _⟩
    · intro machine after function args inside
      exact ⟨@discipline.frame machine.session after.session function args inside.1, inside.2⟩
    · exact fun inside => ⟨discipline.isolation inside.1, inside.2⟩
  peer inside := ⟨inside.2, inside.1⟩

end SessionDiscipline

end ShellCore
