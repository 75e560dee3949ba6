import ShellCore.Evaluation.Machine

namespace ShellCore

/-!
# Trails of process substitutions

A trail is the path of a machine through a run, seen by its process
substitutions: each one that is called, each one that ends with a status or is
refused, and each frame that is opened, or closed and its statuses kept. Steps in
between have no part in any of this: they leave the kept statuses as they are, which
only a command that runs isolated gives back with its scope. Replaying a trail against
the open frames tells which statuses a frame holds when it is closed, and in which
order.
-/

/-- The status of a finished process substitution and the token that started it. -/
abbrev ProcessSubEntry := Int32 × SpanId

/-- What can happen to process substitutions. -/
inductive ProcessSubEvent where
  | called
  | finished (entry : ProcessSubEntry)
  /-- No frame was open to take the status. -/
  | refused
  | opened
  | collected (entries : List ProcessSubEntry)
  deriving Repr, DecidableEq

namespace ProcessSubEvent

/-- The call of the host that records an event. -/
def call? :
    ProcessSubEvent →
    Option HostCall
  | .called => some .processSub
  | .finished _ => none
  | .refused => none
  | .opened => some .pushProcessSub
  | .collected entries => some (.popProcessSub entries.length)

/-- Whether a process substitution answered its call. -/
def isFinished :
    ProcessSubEvent →
    Bool
  | .finished _ => true
  | _ => false

/-- Whether a process substitution ran to its end. -/
def isDone :
    ProcessSubEvent →
    Bool
  | .finished _ => true
  | .refused => true
  | _ => false

/-- The statuses that an event takes out of a frame. -/
def taken :
    ProcessSubEvent →
    List ProcessSubEntry
  | .collected entries => entries
  | _ => []

/--
The open frames after an event, innermost first. A status goes to the end of the
innermost frame, and a frame is closed with the statuses that it holds.
-/
def follow? :
    List (List ProcessSubEntry) →
    ProcessSubEvent →
    Option (List (List ProcessSubEntry))
  | frames, .called => some frames
  | innermost :: outer, .finished entry => some ((innermost ++ [entry]) :: outer)
  | [], .refused => some []
  | frames, .opened => some ([] :: frames)
  | innermost :: outer, .collected entries =>
      if innermost = entries then some outer else none
  | _, _ => none

/-- The process substitutions of a history that answered their calls. -/
def finishedCount
    (history : List ProcessSubEvent) :
    Nat :=
  history.countP isFinished

/-- The statuses that were taken out of frames in a history. -/
def takenCount
    (history : List ProcessSubEvent) :
    Nat :=
  (history.flatMap taken).length

/-- The statuses that open frames hold. -/
def heldCount
    (frames : List (List ProcessSubEntry)) :
    Nat :=
  frames.flatten.length

/-- An event takes out of the frames what it does not leave there. -/
theorem heldCount_follow
    {frames later : List (List ProcessSubEntry)}
    {event : ProcessSubEvent}
    (followed : follow? frames event = some later) :
    heldCount later + event.taken.length =
      heldCount frames + if event.isFinished then 1 else 0 := by
  cases event with
  | called =>
      cases followed
      simp [taken, isFinished]
  | finished entry =>
      cases frames with
      | nil => cases followed
      | cons innermost outer =>
          cases followed
          simp only [heldCount, List.flatten_cons, List.length_append, List.length_singleton,
            List.length_nil, taken, isFinished, if_true]
          omega
  | refused =>
      cases frames with
      | nil =>
          cases followed
          simp [heldCount, taken, isFinished]
      | cons innermost outer => cases followed
  | opened =>
      cases followed
      simp [heldCount, taken, isFinished]
  | collected entries =>
      cases frames with
      | nil => cases followed
      | cons innermost outer =>
          simp only [follow?] at followed
          split at followed
          next holds =>
            cases followed
            simp only [heldCount, List.flatten_cons, List.length_append, holds, taken, isFinished]
            simp [Nat.add_comm]
          · cases followed

/-- Whatever finished was taken out of a frame or is held by one. -/
theorem finishedCount_add_heldCount
    {frames final : List (List ProcessSubEntry)}
    {history : List ProcessSubEvent}
    (replayed : history.foldlM follow? frames = some final) :
    finishedCount history + heldCount frames = takenCount history + heldCount final := by
  induction history generalizing frames with
  | nil =>
      cases replayed
      simp [finishedCount, takenCount]
  | cons event rest inductionHypothesis =>
      rw [List.foldlM_cons] at replayed
      obtain ⟨middle, followed, remaining⟩ := Option.bind_eq_some_iff.mp replayed
      have first := heldCount_follow followed
      have others := inductionHypothesis remaining
      simp only [finishedCount, takenCount, List.countP_cons, List.flatMap_cons,
        List.length_append] at others ⊢
      omega

end ProcessSubEvent

/-- Whether a call is recorded for an event of process substitutions. -/
def HostCall.isProcessSub :
    HostCall →
    Bool
  | .processSub => true
  | .pushProcessSub => true
  | .popProcessSub _ => true
  | _ => false

/-- A host went on without any part in process substitutions. -/
structure MemoryHost.Unconcerned
    (before after : MemoryHost) :
    Prop where
  frames : after.frames = before.frames
  nextDescriptor : after.nextDescriptor = before.nextDescriptor
  calls : ∃ word,
    after.calls = before.calls ++ word ∧ word.filter HostCall.isProcessSub = []

/-- The process substitution statuses that are kept in the two sets stay what they are. -/
structure Machine.KeepsStatuses
    (before after : Machine) :
    Prop where
  own : after.scope.processSubStatus = before.scope.processSubStatus
  peer : after.peer.scope.processSubStatus = before.peer.scope.processSubStatus

theorem Machine.KeepsStatuses.refl
    (machine : Machine) :
    machine.KeepsStatuses machine where
  own := rfl
  peer := rfl

/-- What a machine does at an event. -/
inductive ProcessSubStep (machine : Machine) : ProcessSubEvent → Machine → Prop where
  | called {host : MemoryHost} :
      machine.host = .memory host →
      ProcessSubStep machine .called
        { machine with host := .memory (host.record .processSub) }
  /-- The status went into a frame, and the call was answered with a path. -/
  | finished {host stored : MemoryHost} {status : Int32} {output path : String}
      {span : SpanId} :
      machine.host = .memory host →
      host.finishProcessSub status output span = (.ok path, stored) →
      ProcessSubStep machine (.finished (status, span)) { machine with host := .memory stored }
  | refused {host stored : MemoryHost} {status : Int32} {output : String} {span : SpanId}
      {error : RuntimeError} :
      machine.host = .memory host →
      host.finishProcessSub status output span = (.error error, stored) →
      ProcessSubStep machine .refused { machine with host := .memory stored }
  | opened {host : MemoryHost} :
      machine.host = .memory host →
      ProcessSubStep machine .opened { machine with host := .memory host.pushProcessSub }
  /-- The statuses of the innermost frame became those of the command that ran in it. -/
  | collected {host : MemoryHost} {entries : List ProcessSubEntry}
      {outer : List (List ProcessSubEntry)} :
      machine.host = .memory host →
      host.frames = entries :: outer →
      ProcessSubStep machine (.collected entries)
        { machine with
          host := .memory host.popProcessSub.2
          scope := { machine.scope with processSubStatus := .ofList entries } }

/-- The path of a machine over a host in memory, with what happened to process substitutions. -/
inductive Trail : Machine → List ProcessSubEvent → Machine → Prop where
  | done (machine : Machine) :
      Trail machine [] machine
  | aside {before between after : Machine} {host next : MemoryHost}
      {history : List ProcessSubEvent} :
      before.host = .memory host →
      between.host = .memory next →
      host.Unconcerned next →
      before.KeepsStatuses between →
      Trail between history after →
      Trail before history after
  /-- What runs isolated keeps statuses of its own, until its scope is given up. -/
  | isolated {before inside after : Machine} {inner history : List ProcessSubEvent} :
      Trail before inner inside →
      Trail (inside.mapScope fun _ => before.scope) history after →
      Trail before (inner ++ history) after
  /-- What the host calls back in another set keeps its statuses there. -/
  | inPeer {before inside after : Machine} {inner history : List ProcessSubEvent} :
      Trail before.swap inner inside →
      Trail inside.swap history after →
      Trail before (inner ++ history) after
  | event {before between after : Machine} {event : ProcessSubEvent}
      {history : List ProcessSubEvent} :
      ProcessSubStep before event between →
      Trail between history after →
      Trail before (event :: history) after

/-- A host bears the marks of a history of process substitutions. -/
structure MemoryHost.Marked
    (history : List ProcessSubEvent)
    (before after : MemoryHost) :
    Prop where
  frames : history.foldlM ProcessSubEvent.follow? before.frames = some after.frames
  /-- Each process substitution that ran to its end has a descriptor of its own. -/
  descriptors :
    after.nextDescriptor = before.nextDescriptor + history.countP ProcessSubEvent.isDone
  calls : ∃ word,
    after.calls = before.calls ++ word ∧
      word.filter HostCall.isProcessSub = history.filterMap ProcessSubEvent.call?

namespace MemoryHost.Marked

variable {before between after : MemoryHost}

theorem refl
    (host : MemoryHost) :
    Marked [] host host where
  frames := rfl
  descriptors := rfl
  calls := ⟨[], (List.append_nil _).symm, rfl⟩

theorem of_unconcerned
    (unconcerned : before.Unconcerned after) :
    Marked [] before after where
  frames := congrArg some unconcerned.frames.symm
  descriptors := unconcerned.nextDescriptor
  calls := unconcerned.calls

theorem trans
    {first second : List ProcessSubEvent}
    (earlier : Marked first before between)
    (later : Marked second between after) :
    Marked (first ++ second) before after where
  frames := by
    rw [List.foldlM_append, earlier.frames]
    exact later.frames
  descriptors := by
    rw [later.descriptors, earlier.descriptors, List.countP_append, Nat.add_assoc]
  calls := by
    obtain ⟨word, calls, events⟩ := earlier.calls
    obtain ⟨laterWord, laterCalls, laterEvents⟩ := later.calls
    refine ⟨word ++ laterWord, ?_, ?_⟩
    · rw [laterCalls, calls, List.append_assoc]
    · rw [List.filter_append, List.filterMap_append, events, laterEvents]

end MemoryHost.Marked

theorem MemoryHost.Marked.finished
    {host stored : MemoryHost}
    {status : Int32}
    {output path : String}
    {span : SpanId}
    (stores : host.finishProcessSub status output span = (.ok path, stored)) :
    Marked [.finished (status, span)] host stored := by
  unfold finishProcessSub at stores
  cases frames : host.frames with
  | nil =>
      simp only [frames] at stores
      cases stores
  | cons innermost outer =>
      simp only [frames] at stores
      cases stores
      exact {
        frames := by rw [frames]; rfl
        descriptors := rfl
        calls := ⟨[], (List.append_nil _).symm, rfl⟩
      }

theorem MemoryHost.Marked.refused
    {host stored : MemoryHost}
    {status : Int32}
    {output : String}
    {span : SpanId}
    {error : RuntimeError}
    (refuses : host.finishProcessSub status output span = (.error error, stored)) :
    Marked [.refused] host stored := by
  unfold finishProcessSub at refuses
  cases frames : host.frames with
  | nil =>
      simp only [frames] at refuses
      cases refuses
      exact {
        frames := by rw [frames]; rfl
        descriptors := rfl
        calls := ⟨[], (List.append_nil _).symm, rfl⟩
      }
  | cons innermost outer =>
      simp only [frames] at refuses
      cases refuses

theorem MemoryHost.Marked.collected
    {host : MemoryHost}
    {entries : List ProcessSubEntry}
    {outer : List (List ProcessSubEntry)}
    (holds : host.frames = entries :: outer) :
    Marked [.collected entries] host host.popProcessSub.2 where
  frames := by
    simp [ProcessSubEvent.follow?, holds, popProcessSub, record]
  descriptors := rfl
  calls := ⟨[.popProcessSub entries.length], by simp [popProcessSub, record, holds], rfl⟩

/-- Every event leaves its mark on the host. -/
theorem ProcessSubStep.marked
    {before after : Machine}
    {event : ProcessSubEvent}
    {host : MemoryHost}
    (step : ProcessSubStep before event after)
    (inMemory : before.host = .memory host) :
    ∃ next, after.host = .memory next ∧ MemoryHost.Marked [event] host next := by
  cases step with
  | called found =>
      obtain rfl := Host.memory.inj (found.symm.trans inMemory)
      exact ⟨_, rfl, ⟨rfl, rfl, [.processSub], rfl, rfl⟩⟩
  | finished found stores =>
      obtain rfl := Host.memory.inj (found.symm.trans inMemory)
      exact ⟨_, rfl, .finished stores⟩
  | refused found refuses =>
      obtain rfl := Host.memory.inj (found.symm.trans inMemory)
      exact ⟨_, rfl, .refused refuses⟩
  | opened found =>
      obtain rfl := Host.memory.inj (found.symm.trans inMemory)
      exact ⟨_, rfl, ⟨rfl, rfl, [.pushProcessSub], rfl, rfl⟩⟩
  | collected found holds =>
      obtain rfl := Host.memory.inj (found.symm.trans inMemory)
      exact ⟨_, rfl, .collected holds⟩

namespace Trail

theorem trans
    {first second : List ProcessSubEvent}
    {left middle right : Machine}
    (earlier : Trail left first middle)
    (later : Trail middle second right) :
    Trail left (first ++ second) right := by
  induction earlier with
  | done => exact later
  | aside inMemory stillInMemory unconcerned keeps _ inductionHypothesis =>
      exact .aside inMemory stillInMemory unconcerned keeps (inductionHypothesis later)
  | isolated inside _ _ inductionHypothesis =>
      rw [List.append_assoc]
      exact .isolated inside (inductionHypothesis later)
  | inPeer inside _ _ inductionHypothesis =>
      rw [List.append_assoc]
      exact .inPeer inside (inductionHypothesis later)
  | event step _ inductionHypothesis =>
      exact .event step (inductionHypothesis later)

/-- The trail of an isolated run ends where its scope is given up. -/
theorem keepingScope
    {history : List ProcessSubEvent}
    {before after : Machine}
    (inside : Trail before history after) :
    Trail before history (after.mapScope fun _ => before.scope) := by
  have whole := isolated inside (.done _)
  rwa [List.append_nil] at whole

/-- The trail of a run in the peer ends where the sets are exchanged again. -/
theorem exchanged
    {history : List ProcessSubEvent}
    {before after : Machine}
    (inside : Trail before.swap history after) :
    Trail before history after.swap := by
  have whole := inPeer inside (.done _)
  rwa [List.append_nil] at whole

/-- A host bears the marks of the trail that it went along. -/
theorem marked
    {history : List ProcessSubEvent}
    {before after : Machine}
    {host : MemoryHost}
    (trail : Trail before history after)
    (inMemory : before.host = .memory host) :
    ∃ final, after.host = .memory final ∧ MemoryHost.Marked history host final := by
  induction trail generalizing host with
  | done => exact ⟨host, inMemory, .refl host⟩
  | aside found stillInMemory unconcerned _ _ inductionHypothesis =>
      obtain rfl : _ = host := Host.memory.inj (found.symm.trans inMemory)
      obtain ⟨final, finallyInMemory, marked⟩ := inductionHypothesis stillInMemory
      exact ⟨final, finallyInMemory, (MemoryHost.Marked.of_unconcerned unconcerned).trans marked⟩
  | isolated _ _ insideHypothesis inductionHypothesis =>
      obtain ⟨middle, reached, inside⟩ := insideHypothesis inMemory
      obtain ⟨final, finallyInMemory, others⟩ := inductionHypothesis reached
      exact ⟨final, finallyInMemory, inside.trans others⟩
  | inPeer _ _ insideHypothesis inductionHypothesis =>
      obtain ⟨middle, reached, inside⟩ := insideHypothesis inMemory
      obtain ⟨final, finallyInMemory, others⟩ := inductionHypothesis reached
      exact ⟨final, finallyInMemory, inside.trans others⟩
  | event step _ inductionHypothesis =>
      obtain ⟨next, stillInMemory, first⟩ := step.marked inMemory
      obtain ⟨final, finallyInMemory, others⟩ := inductionHypothesis stillInMemory
      exact ⟨final, finallyInMemory, first.trans others⟩

end Trail

end ShellCore
