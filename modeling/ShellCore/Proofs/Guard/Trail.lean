import ShellCore.Proofs.Guard.Tree
import ShellCore.Proofs.Host.Balance
import ShellCore.Proofs.Host.Recording

namespace ShellCore

/-!
# Trails of guards

A trail is the path of a machine through a log of guards: what each event does to the
host, and what happens to process substitutions on the way. At every point of a trail,
undoing the redirections that are held by guards leads to the same bindings, and the
calls that are open are those of the guards that are held.
-/

namespace GuardAction

/-- An action keeps a discipline, if builtins that are not flushed keep it. -/
theorem keeps
    {relation : Machine → Machine → Prop}
    (discipline : Discipline relation)
    (fuel : Nat)
    (env : Env)
    (action : GuardAction)
    (builtin : ∀ name argv,
      action = .builtin name argv →
      Eval.Keeps relation (Host.runBuiltin name argv)) :
    Eval.Keeps relation (action.evaluate (evaluator fuel) env) :=
  @GuardAction.related _ _ discipline.everywhere (evaluator fuel) (evaluator fuel)
    (discipline.related fuel) env env ⟨rfl, trivial⟩ action builtin

/-- An action goes along a trail of process substitutions. -/
theorem exists_trail
    {fuel : Nat}
    {env : Env}
    {action : GuardAction}
    {before after : Machine}
    {host : MemoryHost}
    {result : Except RuntimeError Unit}
    (inMemory : before.host = .memory host)
    (finished : (action.evaluate (evaluator fuel) env).run before = some (result, after)) :
    ∃ history, Trail before history after := by
  have collects : Collects before after :=
    action.keeps Collects.discipline fuel env
      (fun name argv _ =>
        Collects.keeps_evaluating fun host => .runBuiltin host name argv)
      finished
  cases collects with
  | inert isInert => exact nomatch isInert.symm.trans inMemory
  | memory _ _ trail => exact ⟨_, trail⟩

/-- An action holds nothing at its end, and its calls are well nested but for flushes. -/
theorem released
    {fuel : Nat}
    {env : Env}
    {action : GuardAction}
    {before after : Machine}
    {host : MemoryHost}
    {result : Except RuntimeError Unit}
    (inMemory : before.host = .memory host)
    (finished : (action.evaluate (evaluator fuel) env).run before = some (result, after)) :
    ∃ final word,
      after.host = .memory final ∧
        host.Released word final ∧
        HostCall.WellNested (word.filter fun call => !call.isFlushing) := by
  -- A builtin that is run on its own is not flushed, so its call alone is not balanced.
  by_cases unflushed : ∃ name argv, action = .builtin name argv
  · obtain ⟨name, argv, rfl⟩ := unflushed
    have keeps :
        Eval.Keeps (HostDiscipline.lift (MemoryHost.Released [.builtin argv]))
          (Host.runBuiltin name argv) :=
      HostDiscipline.keeps_onHost fun host => .runBuiltin host name argv
    have released : HostDiscipline.lift (MemoryHost.Released [.builtin argv]) before after := by
      rcases Eval.bind_eq_some_iff.mp finished with ⟨_, failed, _⟩ | ⟨_, _, ran, returned⟩
      · exact keeps failed
      · cases returned
        exact keeps ran
    obtain ⟨final, stillInMemory, released⟩ :=
      HostDiscipline.related_of_memory inMemory released
    exact ⟨final, _, stillInMemory, released, rfl⟩
  · have balanced : HostDiscipline.lift MemoryHost.Balanced before after :=
      action.keeps MemoryHost.balanced_discipline.toDiscipline fuel env
        (fun name argv same => absurd ⟨name, argv, same⟩ unflushed) finished
    obtain ⟨final, stillInMemory, word, closed, released⟩ :=
      HostDiscipline.related_of_memory inMemory balanced
    exact ⟨final, word, stillInMemory, released,
      HostCall.selection_unflushed.wellNested closed.wellNested⟩

end GuardAction

/-- What a machine does at an event, and what happens to process substitutions meanwhile. -/
inductive GuardStep
    (env : Env)
    (machine : Machine) :
    GuardEvent → List ProcessSubEvent → Machine → Prop where
  | redirected {host opened : MemoryHost} {redirections : List Redirection} :
      machine.host = .memory host →
      host.pushRedirects redirections = (true, opened) →
      GuardStep env machine (.acquired (.redirects redirections.length)) []
        { machine with host := .memory opened }
  | refused {host refused : MemoryHost} {redirections : List Redirection} :
      machine.host = .memory host →
      host.pushRedirects redirections = (false, refused) →
      GuardStep env machine .refused [] { machine with host := .memory refused }
  | opened {host : MemoryHost} :
      machine.host = .memory host →
      GuardStep env machine (.acquired .processSubs) [.opened]
        { machine with host := .memory host.pushProcessSub }
  /-- A flush is due from here on; nothing is done for it yet. -/
  | awaited :
      GuardStep env machine (.acquired .flush) [] machine
  | undone {host : MemoryHost} {count : Nat} :
      machine.host = .memory host →
      GuardStep env machine (.released (.redirects count) .empty) []
        { machine with host := .memory (host.popRedirects count) }
  /-- The statuses of the innermost frame are received. -/
  | collected {host : MemoryHost} {entries : List ProcessSubEntry}
      {outer : List (List ProcessSubEntry)} :
      machine.host = .memory host →
      host.frames = entries :: outer →
      GuardStep env machine (.released .processSubs (.ofList entries)) [.collected entries]
        { machine with host := .memory host.popProcessSub.2 }
  | flushed {host : MemoryHost} :
      machine.host = .memory host →
      GuardStep env machine (.released .flush .empty) []
        { machine with host := .memory host.flush.2 }
  | acted {fuel : Nat} {action : GuardAction} {history : List ProcessSubEvent}
      {result : Except RuntimeError Unit} {after : Machine} :
      (action.evaluate (evaluator fuel) env).run machine = some (result, after) →
      Trail machine history after →
      GuardStep env machine (.acted action) history after

/-- A step leaves the host in memory. -/
theorem GuardStep.inMemory
    {env : Env}
    {before after : Machine}
    {event : GuardEvent}
    {history : List ProcessSubEvent}
    {host : MemoryHost}
    (step : GuardStep env before event history after)
    (inMemory : before.host = .memory host) :
    ∃ final, after.host = .memory final := by
  cases step with
  | awaited => exact ⟨host, inMemory⟩
  | acted _ trail =>
      obtain ⟨final, finallyInMemory, _⟩ := trail.marked inMemory
      exact ⟨final, finallyInMemory⟩
  | _ => exact ⟨_, rfl⟩

/-- The path of a machine through a log of guards. -/
inductive GuardTrail
    (env : Env) :
    Machine → List GuardEvent → List ProcessSubEvent → Machine → Prop where
  | done (machine : Machine) :
      GuardTrail env machine [] [] machine
  | step {before between after : Machine} {event : GuardEvent} {log : List GuardEvent}
      {first rest : List ProcessSubEvent} :
      GuardStep env before event first between →
      GuardTrail env between log rest after →
      GuardTrail env before (event :: log) (first ++ rest) after

namespace GuardTrail

variable {env : Env}

theorem singleton
    {before after : Machine}
    {event : GuardEvent}
    {history : List ProcessSubEvent}
    (step : GuardStep env before event history after) :
    GuardTrail env before [event] history after := by
  simpa using GuardTrail.step step (.done after)

theorem trans
    {left middle right : Machine}
    {firstLog secondLog : List GuardEvent}
    {first second : List ProcessSubEvent}
    (earlier : GuardTrail env left firstLog first middle)
    (later : GuardTrail env middle secondLog second right) :
    GuardTrail env left (firstLog ++ secondLog) (first ++ second) right := by
  induction earlier with
  | done => exact later
  | step event _ inductionHypothesis =>
      rw [List.append_assoc]
      exact .step event (inductionHypothesis later)

theorem inMemory
    {before after : Machine}
    {log : List GuardEvent}
    {history : List ProcessSubEvent}
    {host : MemoryHost}
    (trail : GuardTrail env before log history after)
    (inMemory : before.host = .memory host) :
    ∃ final, after.host = .memory final := by
  induction trail generalizing host with
  | done => exact ⟨host, inMemory⟩
  | step event _ inductionHypothesis =>
      obtain ⟨next, stillInMemory⟩ := event.inMemory inMemory
      exact inductionHypothesis stillInMemory

/-- A trail through a log in two parts is one through the first, then one through the second. -/
theorem split
    {before after : Machine}
    {firstLog secondLog : List GuardEvent}
    {history : List ProcessSubEvent}
    (trail : GuardTrail env before (firstLog ++ secondLog) history after) :
    ∃ between first second,
      history = first ++ second ∧
        GuardTrail env before firstLog first between ∧
          GuardTrail env between secondLog second after := by
  induction firstLog generalizing before history with
  | nil => exact ⟨before, [], history, rfl, .done before, trail⟩
  | cons event rest inductionHypothesis =>
      cases trail with
      | step step remaining =>
          obtain ⟨between, first, second, rfl, earlier, later⟩ := inductionHypothesis remaining
          exact ⟨between, _, second, (List.append_assoc _ _ _).symm, .step step earlier, later⟩

end GuardTrail

namespace HeldGuard

/-- What a guard leaves open among the calls of the host. -/
def opening? :
    HeldGuard →
    Option Opening
  | .redirects count => some (.redirects count)
  | .processSubs => some .processSub
  | .flush => none

/-- The number of redirections that a guard has to undo. -/
def owed :
    HeldGuard →
    Nat
  | .redirects count => count
  | .processSubs => 0
  | .flush => 0

/-- The number of redirections that guards have to undo. -/
def allOwed :
    List HeldGuard →
    Nat
  | [] => 0
  | guard :: rest => guard.owed + allOwed rest

/-- What guards leave open among the calls of the host. -/
def openings
    (held : List HeldGuard) :
    List Opening :=
  held.filterMap opening?

variable (held : List HeldGuard)

@[simp]
theorem allOwed_redirects
    (count : Nat) :
    allOwed (.redirects count :: held) = count + allOwed held :=
  rfl

@[simp]
theorem allOwed_processSubs :
    allOwed (.processSubs :: held) = allOwed held :=
  Nat.zero_add _

@[simp]
theorem allOwed_flush :
    allOwed (.flush :: held) = allOwed held :=
  Nat.zero_add _

/-- No guard has a builtin run and leaves it without a flush. -/
theorem noFlushDue :
    (openings held).head? ≠ some .builtin := by
  intro due
  obtain ⟨guard, _, opens⟩ := List.mem_filterMap.mp (List.mem_of_mem_head? due)
  cases guard <;> cases opens

/-- A call that closes nothing has a place behind any guards, and may be that of one more. -/
theorem follow?_openings
    {guard : HeldGuard}
    {call : HostCall}
    (closesNothing : call.closes? = none)
    (opens : call.opens? = guard.opening?) :
    HostCall.follow? (openings held) call = some (openings (guard :: held)) := by
  have added : openings (guard :: held) = guard.opening?.toList ++ openings held := by
    cases guard <;> rfl
  unfold HostCall.follow?
  rw [closesNothing, opens, added]
  exact if_neg (noFlushDue held)

end HeldGuard

/--
Between two hosts, guards were acquired and released: some were held at the first,
some are at the second, and undoing what is held leads to the same bindings.
-/
structure MemoryHost.Guarded
    (held later : List HeldGuard)
    (history : List ProcessSubEvent)
    (word : List HostCall)
    (before after : MemoryHost) :
    Prop where
  calls : after.calls = before.calls ++ word
  nests :
    (word.filter fun call => !call.isFlushing).foldlM HostCall.follow?
      (HeldGuard.openings held) = some (HeldGuard.openings later)
  bindings :
    SameBindings (after.restoreDescriptors (HeldGuard.allOwed later))
      (before.restoreDescriptors (HeldGuard.allOwed held))
  marked : Marked history before after

namespace MemoryHost.Guarded

theorem refl
    (held : List HeldGuard)
    (host : MemoryHost) :
    Guarded held held [] [] host host where
  calls := (List.append_nil _).symm
  nests := rfl
  bindings := .refl _
  marked := .refl host

theorem trans
    {held between later : List HeldGuard}
    {firstHistory secondHistory : List ProcessSubEvent}
    {firstWord secondWord : List HostCall}
    {left middle right : MemoryHost}
    (earlier : Guarded held between firstHistory firstWord left middle)
    (behind : Guarded between later secondHistory secondWord middle right) :
    Guarded held later (firstHistory ++ secondHistory) (firstWord ++ secondWord) left right where
  calls := by
    rw [behind.calls, earlier.calls, List.append_assoc]
  nests := by
    rw [List.filter_append, List.foldlM_append, earlier.nests]
    exact behind.nests
  bindings := behind.bindings.trans earlier.bindings
  marked := earlier.marked.trans behind.marked

/-- What neither holds nor releases anything leaves the guards that are held. -/
theorem aside
    (held : List HeldGuard)
    {history : List ProcessSubEvent}
    {word : List HostCall}
    {before after : MemoryHost}
    (calls : after.calls = before.calls ++ word)
    (wellNested : HostCall.WellNested (word.filter fun call => !call.isFlushing))
    (same : SameBindings after before)
    (marked : Marked history before after) :
    Guarded held held history word before after where
  calls := calls
  nests := wellNested.closed _ (HeldGuard.noFlushDue held)
  bindings := same.restoreDescriptors _
  marked := marked

variable (held : List HeldGuard)

theorem redirected
    {host opened : MemoryHost}
    {redirections : List Redirection}
    (holds : host.pushRedirects redirections = (true, opened)) :
    Guarded held (.redirects redirections.length :: held) []
      [.pushRedirects redirections.length] host opened where
  calls := by
    obtain ⟨_, _, _, rfl⟩ := pushRedirects_accepted holds
    rfl
  nests := by
    simpa [HostCall.isFlushing] using HeldGuard.follow?_openings held rfl rfl
  bindings := by
    have undone := sameBindings_of_accepted holds
    rw [HeldGuard.allOwed_redirects, restoreDescriptors_add]
    exact undone.restoreDescriptors _
  marked := by
    have unconcerned := Unconcerned.pushRedirects host redirections
    rw [holds] at unconcerned
    exact .of_unconcerned unconcerned

theorem refused
    {host refused : MemoryHost}
    {redirections : List Redirection}
    (refusal : host.pushRedirects redirections = (false, refused)) :
    ∃ target, Guarded held held [] [.pushRedirectsFailed target] host refused := by
  have bindings := sameBindings_of_refused refusal
  have unconcerned := Unconcerned.pushRedirects host redirections
  rw [refusal] at unconcerned
  obtain ⟨target, _, _, _, rfl⟩ := pushRedirects_refused refusal
  exact ⟨target, aside held rfl rfl bindings (.of_unconcerned unconcerned)⟩

theorem opened
    (host : MemoryHost) :
    Guarded held (.processSubs :: held) [.opened] [.pushProcessSub] host
      host.pushProcessSub where
  calls := rfl
  nests := by
    simpa [HostCall.isFlushing] using HeldGuard.follow?_openings held rfl rfl
  bindings := by
    have same : SameBindings host.pushProcessSub host :=
      ⟨.refl _, rfl⟩
    rw [HeldGuard.allOwed_processSubs]
    exact same.restoreDescriptors _
  marked := ⟨rfl, rfl, [.pushProcessSub], rfl, rfl⟩

theorem awaited
    (host : MemoryHost) :
    Guarded held (.flush :: held) [] [] host host where
  calls := (List.append_nil _).symm
  nests := rfl
  bindings := by
    rw [HeldGuard.allOwed_flush]
    exact .refl _
  marked := .refl host

theorem undone
    (host : MemoryHost)
    (count : Nat) :
    Guarded (.redirects count :: held) held [] [.popRedirects count] host
      (host.popRedirects count) where
  calls := by
    obtain ⟨_, _, restored⟩ := host.restoreDescriptors_frame count
    unfold popRedirects
    rw [restored]
    rfl
  nests := by
    simp [HostCall.isFlushing, HostCall.follow?, HostCall.closes?, HeldGuard.openings,
      HeldGuard.opening?]
  bindings := by
    have recorded :
        SameBindings (host.popRedirects count) (host.restoreDescriptors count) :=
      ⟨.refl _, rfl⟩
    rw [HeldGuard.allOwed_redirects, restoreDescriptors_add]
    exact recorded.restoreDescriptors _
  marked := .of_unconcerned (.popRedirects host count)

theorem collected
    {host : MemoryHost}
    {entries : List ProcessSubEntry}
    {outer : List (List ProcessSubEntry)}
    (holds : host.frames = entries :: outer) :
    Guarded (.processSubs :: held) held [.collected entries] [.popProcessSub entries.length]
      host host.popProcessSub.2 where
  calls := by
    simp [popProcessSub, record, holds]
  nests := by
    simp [HostCall.isFlushing, HostCall.follow?, HostCall.closes?, HeldGuard.openings,
      HeldGuard.opening?]
  bindings := by
    have same : SameBindings host.popProcessSub.2 host :=
      ⟨.refl _, rfl⟩
    rw [HeldGuard.allOwed_processSubs]
    exact same.restoreDescriptors _
  marked := .collected holds

theorem flushed
    (host : MemoryHost) :
    Guarded (.flush :: held) held [] [.flush] host host.flush.2 where
  calls := rfl
  nests := rfl
  bindings := by
    have same : SameBindings host.flush.2 host :=
      ⟨.refl _, rfl⟩
    rw [HeldGuard.allOwed_flush]
    exact same.restoreDescriptors _
  marked := .of_unconcerned (.record host rfl)

end MemoryHost.Guarded

/-- A step takes the host from the guards that are held before it to those held after it. -/
theorem GuardStep.guarded
    {env : Env}
    {before after : Machine}
    {event : GuardEvent}
    {history : List ProcessSubEvent}
    {held later : List HeldGuard}
    {host : MemoryHost}
    (step : GuardStep env before event history after)
    (followed : GuardEvent.follow? held event = some later)
    (inMemory : before.host = .memory host) :
    ∃ final word,
      after.host = .memory final ∧ MemoryHost.Guarded held later history word host final := by
  cases step with
  | redirected found holds =>
      obtain rfl := Host.memory.inj (found.symm.trans inMemory)
      cases followed
      exact ⟨_, _, rfl, .redirected held holds⟩
  | refused found refusal =>
      obtain rfl := Host.memory.inj (found.symm.trans inMemory)
      obtain rfl : held = later := Option.some.inj followed
      obtain ⟨target, guarded⟩ := MemoryHost.Guarded.refused held refusal
      exact ⟨_, _, rfl, guarded⟩
  | opened found =>
      obtain rfl := Host.memory.inj (found.symm.trans inMemory)
      cases followed
      exact ⟨_, _, rfl, .opened held _⟩
  | awaited =>
      cases followed
      exact ⟨_, _, inMemory, .awaited held host⟩
  | undone found =>
      obtain rfl := Host.memory.inj (found.symm.trans inMemory)
      obtain rfl := GuardEvent.follow?_released_iff.mp followed
      exact ⟨_, _, rfl, .undone later _ _⟩
  | collected found holds =>
      obtain rfl := Host.memory.inj (found.symm.trans inMemory)
      obtain rfl := GuardEvent.follow?_released_iff.mp followed
      exact ⟨_, _, rfl, .collected later holds⟩
  | flushed found =>
      obtain rfl := Host.memory.inj (found.symm.trans inMemory)
      obtain rfl := GuardEvent.follow?_released_iff.mp followed
      exact ⟨_, _, rfl, .flushed later _⟩
  | acted finished trail =>
      obtain rfl : held = later := Option.some.inj followed
      obtain ⟨final, word, stillInMemory, released, wellNested⟩ :=
        GuardAction.released inMemory finished
      obtain ⟨sameFinal, found, marked⟩ := trail.marked inMemory
      obtain rfl := Host.memory.inj (found.symm.trans stillInMemory)
      exact ⟨_, word, stillInMemory,
        .aside held released.calls wellNested
          ⟨released.descriptors, released.savedDescriptors⟩ marked⟩

/-- A trail takes the host from the guards that are held before it to those held after it. -/
theorem GuardTrail.guarded
    {env : Env}
    {before after : Machine}
    {log : List GuardEvent}
    {history : List ProcessSubEvent}
    {held later : List HeldGuard}
    {host : MemoryHost}
    (trail : GuardTrail env before log history after)
    (followed : log.foldlM GuardEvent.follow? held = some later)
    (inMemory : before.host = .memory host) :
    ∃ final word,
      after.host = .memory final ∧ MemoryHost.Guarded held later history word host final := by
  induction trail generalizing held host with
  | done =>
      cases followed
      exact ⟨host, [], inMemory, .refl later host⟩
  | step event _ inductionHypothesis =>
      rw [List.foldlM_cons] at followed
      obtain ⟨between, first, others⟩ := Option.bind_eq_some_iff.mp followed
      obtain ⟨next, firstWord, stillInMemory, earlier⟩ := event.guarded first inMemory
      obtain ⟨final, word, finallyInMemory, behind⟩ := inductionHypothesis others stillInMemory
      exact ⟨final, _, finallyInMemory, earlier.trans behind⟩

end ShellCore
