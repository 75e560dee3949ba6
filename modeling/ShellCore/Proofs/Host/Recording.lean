import ShellCore.Proofs.Host.Collection
import ShellCore.Proofs.Host.Nesting

namespace ShellCore

/-!
# Which frame a status is recorded in

A history of process substitutions is nested if it closes no frame but those that it
opened, and all of these. Seen from a frame that is innermost at its start, such a
history opens and closes frames on top of it. The frame takes exactly the statuses
that are recorded while nothing is open on top of it, in the order of the history.
-/

/-- What opens or closes a frame, and the calls of process substitutions. -/
theorem HostCall.selection_processSubs :
    Selection HostCall.isProcessSub (· = .processSub) where
  opens := by
    intro call opening opens
    cases call <;> cases opens <;> rfl
  closes := by
    intro call opening closes
    cases call <;> cases closes <;> rfl
  noBuiltin := rfl

namespace ProcessSubEvent

/-- A history opens and closes frames in a nested way. -/
def Nested
    (history : List ProcessSubEvent) :
    Prop :=
  HostCall.WellNested (history.filterMap call?)

/-- The number of frames on top of a frame after an event, from the number before it. -/
def depthAfter
    (depth : Nat) :
    ProcessSubEvent →
    Nat
  | .opened => depth + 1
  | .collected _ => depth - 1
  | _ => depth

/-- What a frame takes at an event, with so many frames on top of it. -/
def recorded?
    (depth : Nat) :
    ProcessSubEvent →
    Option ProcessSubEntry
  | .finished entry => if depth = 0 then some entry else none
  | _ => none

/-- What a frame takes along a history, with so many frames on top of it at the start. -/
def recordedUnder
    (depth : Nat) :
    List ProcessSubEvent →
    List ProcessSubEntry
  | [] => []
  | event :: rest => (event.recorded? depth).toList ++ recordedUnder (event.depthAfter depth) rest

/-- What the frame takes that is innermost at the start of a history. -/
def recorded
    (history : List ProcessSubEvent) :
    List ProcessSubEntry :=
  recordedUnder 0 history

/-- At an event with a place in the openings, only the frame below those takes what is recorded. -/
theorem follow?_recorded
    {above base frames : List (List ProcessSubEntry)}
    {openings next : List Opening}
    {event : ProcessSubEvent}
    (followed : follow? (above ++ base) event = some frames)
    (nests : event.call?.toList.foldlM HostCall.follow? openings = some next)
    (depth : above.length = openings.length) :
    next.length = event.depthAfter openings.length ∧
      (base = [] → event.recorded? openings.length = none) ∧
      ∃ stillAbove : List (List ProcessSubEntry),
        stillAbove.length = next.length ∧
          frames = stillAbove ++
            base.modifyHead (· ++ (event.recorded? openings.length).toList) := by
  have unchanged (frames : List (List ProcessSubEntry)) :
      frames.modifyHead (fun frame => frame) = frames := by
    cases frames <;> rfl
  cases event with
  | called =>
      cases followed
      simp only [call?, Option.toList_some, List.foldlM_cons, List.foldlM_nil, bind_pure,
        HostCall.follow?, HostCall.closes?] at nests
      split at nests
      · cases nests
      · cases nests
        exact ⟨rfl, fun _ => rfl, above, depth, by simp [recorded?, unchanged]⟩
  | finished entry =>
      cases nests
      refine ⟨rfl, ?_⟩
      cases above with
      | nil =>
          have bottom : openings.length = 0 := depth.symm
          cases base with
          | nil => cases followed
          | cons innermost outer =>
              cases followed
              exact ⟨by simp, [], depth, by simp [recorded?, bottom]⟩
      | cons innermost outer =>
          cases followed
          have covered : openings.length ≠ 0 := by
            rw [← depth]
            exact Nat.succ_ne_zero _
          refine ⟨fun _ => by simp [recorded?, covered],
            (innermost ++ [entry]) :: outer, depth, ?_⟩
          simp [recorded?, covered, unchanged]
  | refused =>
      cases nests
      cases above with
      | nil =>
          cases base with
          | nil =>
              cases followed
              exact ⟨rfl, fun _ => rfl, [], depth, rfl⟩
          | cons innermost outer => cases followed
      | cons innermost outer => cases followed
  | opened =>
      cases followed
      simp only [call?, Option.toList_some, List.foldlM_cons, List.foldlM_nil, bind_pure,
        HostCall.follow?, HostCall.closes?] at nests
      split at nests
      · cases nests
      · cases nests
        refine ⟨rfl, fun _ => rfl, [] :: above, congrArg Nat.succ depth, ?_⟩
        simp [recorded?, unchanged]
  | collected entries =>
      cases openings with
      | nil => cases nests
      | cons opening outer =>
          cases above with
          | nil => cases depth
          | cons innermost rest =>
              simp only [List.cons_append, follow?] at followed
              split at followed
              next holds =>
                cases followed
                obtain ⟨rfl, rfl⟩ : opening = .processSub ∧ outer = next := by
                  simpa [call?, HostCall.follow?, HostCall.closes?] using nests
                refine ⟨rfl, fun _ => rfl, rest, Nat.succ.inj depth, ?_⟩
                simp [recorded?, unchanged]
              · cases followed

/-- Along a history, the frame below its openings takes what is recorded while it is innermost. -/
theorem replay_recorded
    (above : List (List ProcessSubEntry))
    (openings : List Opening)
    {base final : List (List ProcessSubEntry)}
    {later : List Opening}
    {history : List ProcessSubEvent}
    (replayed : history.foldlM follow? (above ++ base) = some final)
    (nests : (history.filterMap call?).foldlM HostCall.follow? openings = some later)
    (depth : above.length = openings.length) :
    (base = [] → recordedUnder openings.length history = []) ∧
      ∃ stillAbove : List (List ProcessSubEntry),
        stillAbove.length = later.length ∧
          final = stillAbove ++
            base.modifyHead (· ++ recordedUnder openings.length history) := by
  -- At each event there are as many frames on top of the base as there are openings.
  induction history generalizing above base openings with
  | nil =>
      cases replayed
      cases nests
      refine ⟨fun _ => rfl, above, depth, ?_⟩
      cases base <;> simp [recordedUnder]
  | cons event rest inductionHypothesis =>
      have calls :
          (event :: rest).filterMap call? = event.call?.toList ++ rest.filterMap call? := by
        cases event <;> rfl
      rw [calls, List.foldlM_append] at nests
      rw [List.foldlM_cons] at replayed
      obtain ⟨next, nestsFirst, nestsRest⟩ := Option.bind_eq_some_iff.mp nests
      obtain ⟨frames, followed, remaining⟩ := Option.bind_eq_some_iff.mp replayed
      obtain ⟨deeper, noBase, stillAbove, sameDepth, rfl⟩ :=
        follow?_recorded followed nestsFirst depth
      obtain ⟨noBaseLater, finallyAbove, finalDepth, final⟩ :=
        inductionHypothesis _ _ remaining nestsRest sameDepth
      rw [deeper] at noBaseLater final
      refine ⟨fun none => ?_, finallyAbove, finalDepth, ?_⟩
      · rw [recordedUnder, noBase none, noBaseLater (by simp [none])]
        rfl
      · rw [final, recordedUnder]
        cases base <;> simp

/-- Along a nested history the innermost frame grows by what is recorded in it. -/
theorem Nested.replay
    {frames final : List (List ProcessSubEntry)}
    {history : List ProcessSubEvent}
    (nested : Nested history)
    (replayed : history.foldlM follow? frames = some final) :
    (frames = [] → recorded history = []) ∧
      final = frames.modifyHead (· ++ recorded history) := by
  obtain ⟨noFrame, stillAbove, none, grown⟩ :=
    replay_recorded [] [] replayed nested rfl
  obtain rfl := List.eq_nil_of_length_eq_zero none
  exact ⟨noFrame, grown⟩

end ProcessSubEvent

namespace MemoryHost.Marked

variable {history : List ProcessSubEvent}
variable {before after : MemoryHost}

/-- A host whose calls are well nested bears the marks of nested histories only. -/
theorem nested
    {word : List HostCall}
    (marked : Marked history before after)
    (calls : after.calls = before.calls ++ word)
    (wellNested : HostCall.WellNested (word.filter fun call => !call.isFlushing)) :
    ProcessSubEvent.Nested history := by
  obtain ⟨sameWord, sameCalls, events⟩ := marked.calls
  obtain rfl : word = sameWord := List.append_cancel_left (calls.symm.trans sameCalls)
  have subsumed :
      (word.filter fun call => !call.isFlushing).filter HostCall.isProcessSub =
        word.filter HostCall.isProcessSub := by
    rw [List.filter_filter]
    congr 1
    funext call
    cases call <;> rfl
  have kept := HostCall.selection_processSubs.wellNested wellNested
  rw [subsumed, events] at kept
  exact kept

/-- The innermost frame has taken what was recorded in it, and the others are as before. -/
theorem grown
    (marked : Marked history before after)
    (nested : ProcessSubEvent.Nested history) :
    before.Grown (ProcessSubEvent.recorded history) after where
  frames := (nested.replay marked.frames).2
  noFrame := (nested.replay marked.frames).1

end MemoryHost.Marked

end ShellCore
