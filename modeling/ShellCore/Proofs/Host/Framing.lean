import ShellCore.Proofs.Host.Frameless
import ShellCore.Proofs.Host.Trail

namespace ShellCore

/-!
# A frame below all others

With one more frame at the bottom, a host answers and does the same as without it,
except that a process substitution which finds no frame is refused, and the frame
at the bottom takes its status. How many were refused on a trail can be read off
the hosts at its ends.
-/

/-- The error of a process substitution that no frame takes. -/
def RuntimeError.unframed : RuntimeError :=
  .io "process substitution started outside a command"

/-- The host with one more frame open, below all others. -/
def MemoryHost.framed
    (host : MemoryHost) :
    MemoryHost :=
  { host with frames := host.frames ++ [[]] }

def Host.framed :
    Host →
    Host
  | .inert => .inert
  | .memory host => .memory host.framed

/-- The machine over the host with one more frame open. -/
def Machine.framed
    (machine : Machine) :
    Machine :=
  { machine with host := machine.host.framed }

theorem Machine.host_framed
    {machine : Machine}
    {host : MemoryHost}
    (inMemory : machine.host = .memory host) :
    machine.framed.host = .memory host.framed := by
  simp only [framed, inMemory, Host.framed]

namespace MemoryHost

/-- An action on the host does the same with one more frame open. -/
def Oblivious
    (action : MemoryHost → α × MemoryHost) :
    Prop :=
  ∀ host, action host.framed = ((action host).1, (action host).2.framed)

/-- What has no part in the frames does the same with one more. -/
theorem Frameless.oblivious
    {action : MemoryHost → α × MemoryHost}
    (frameless : Frameless action) :
    Oblivious action := by
  intro host
  refine (frameless host (host.frames ++ [[]])).trans ?_
  rw [framed, frameless.frames_eq]
  rfl

/-- A frame that is open takes a status, whether there is another one below it or not. -/
theorem finishProcessSub_framed
    {host : MemoryHost}
    (isFramed : host.frames ≠ [])
    (status : Int32)
    (output : String)
    (span : SpanId) :
    ∃ path stored,
      host.finishProcessSub status output span = (.ok path, stored) ∧
        host.framed.finishProcessSub status output span = (.ok path, stored.framed) := by
  cases frames : host.frames with
  | nil => exact absurd frames isFramed
  | cons innermost outer =>
      simp only [finishProcessSub, framed, frames, List.cons_append, Prod.mk.injEq]
      exact ⟨_, _, ⟨rfl, rfl⟩, rfl, rfl⟩

/-- Without a frame a status is refused, and with one more frame it is what that holds. -/
theorem finishProcessSub_unframed
    {host : MemoryHost}
    (noFrame : host.frames = [])
    (status : Int32)
    (output : String)
    (span : SpanId) :
    (∃ stored,
        host.finishProcessSub status output span = (.error .unframed, stored)) ∧
      (host.framed.finishProcessSub status output span).2.frames = [[(status, span)]] := by
  simp only [finishProcessSub, framed, noFrame, List.nil_append, Prod.mk.injEq]
  exact ⟨⟨_, rfl, rfl⟩, trivial⟩

end MemoryHost

namespace ProcessSubEvent

/-- The statuses that calls took out of frames. -/
def poppedCount :
    List HostCall →
    Nat
  | [] => 0
  | .popProcessSub count :: rest => count + poppedCount rest
  | _ :: rest => poppedCount rest

/-- The calls of a history tell how many statuses were taken. -/
theorem poppedCount_calls
    (history : List ProcessSubEvent) :
    poppedCount (history.filterMap call?) = takenCount history := by
  induction history with
  | nil => rfl
  | cons event rest inductionHypothesis =>
      unfold takenCount at inductionHypothesis ⊢
      rw [List.flatMap_cons, List.length_append, ← inductionHypothesis]
      cases event <;> simp [List.filterMap_cons, call?, taken, poppedCount]

/-- A process substitution that ran to its end finished or was refused. -/
theorem doneCount_eq
    (history : List ProcessSubEvent) :
    history.countP isDone = finishedCount history + history.count .refused := by
  induction history with
  | nil => rfl
  | cons event rest inductionHypothesis =>
      unfold finishedCount at inductionHypothesis ⊢
      rw [List.countP_cons, List.countP_cons, List.count_cons, inductionHypothesis]
      cases event <;> simp [isDone, isFinished] <;> omega

end ProcessSubEvent

/-- Histories that leave the same marks have refused as many process substitutions. -/
theorem MemoryHost.Marked.count_refused
    {before after : MemoryHost}
    {history other : List ProcessSubEvent}
    (marked : Marked history before after)
    (otherMarked : Marked other before after) :
    history.count .refused = other.count .refused := by
  have taken :
      ProcessSubEvent.takenCount history = ProcessSubEvent.takenCount other := by
    obtain ⟨word, calls, events⟩ := marked.calls
    obtain ⟨otherWord, otherCalls, otherEvents⟩ := otherMarked.calls
    obtain rfl : word = otherWord := List.append_cancel_left (calls.symm.trans otherCalls)
    rw [← ProcessSubEvent.poppedCount_calls, ← ProcessSubEvent.poppedCount_calls,
      ← events, otherEvents]
  have conserved := ProcessSubEvent.finishedCount_add_heldCount marked.frames
  have otherConserved := ProcessSubEvent.finishedCount_add_heldCount otherMarked.frames
  have done := marked.descriptors.symm.trans otherMarked.descriptors
  rw [ProcessSubEvent.doneCount_eq, ProcessSubEvent.doneCount_eq] at done
  omega

/-- The machine goes on along a trail on which nothing is refused. -/
def Machine.Unrefused
    (before after : Machine) :
    Prop :=
  ∃ history, Trail before history after ∧ .refused ∉ history

/-- The machine goes on along a trail on which nothing is refused but the last substitution. -/
def Machine.Refused
    (before after : Machine) :
    Prop :=
  ∃ history, Trail before (history ++ [.refused]) after ∧ .refused ∉ history

namespace Machine

theorem Unrefused.of_trail
    {before after : Machine}
    (trail : Trail before [] after) :
    before.Unrefused after :=
  ⟨[], trail, List.not_mem_nil⟩

theorem Unrefused.trans
    {left middle right : Machine}
    (earlier : left.Unrefused middle)
    (later : middle.Unrefused right) :
    left.Unrefused right := by
  obtain ⟨first, trail, unrefused⟩ := earlier
  obtain ⟨second, others, stillUnrefused⟩ := later
  exact ⟨first ++ second, trail.trans others, by simp [unrefused, stillUnrefused]⟩

theorem Refused.after
    {left middle right : Machine}
    (earlier : left.Unrefused middle)
    (later : middle.Refused right) :
    left.Refused right := by
  obtain ⟨first, trail, unrefused⟩ := earlier
  obtain ⟨second, others, stillUnrefused⟩ := later
  refine ⟨first ++ second, ?_, by simp [unrefused, stillUnrefused]⟩
  rw [List.append_assoc]
  exact trail.trans others

theorem Refused.aside
    {left middle right : Machine}
    (earlier : left.Refused middle)
    (later : Trail middle [] right) :
    left.Refused right := by
  obtain ⟨history, trail, unrefused⟩ := earlier
  refine ⟨history, ?_, unrefused⟩
  have whole := trail.trans later
  rwa [List.append_nil] at whole

theorem Unrefused.inMemory
    {before after : Machine}
    {host : MemoryHost}
    (unrefused : before.Unrefused after)
    (inMemory : before.host = .memory host) :
    ∃ final, after.host = .memory final := by
  obtain ⟨_, trail, _⟩ := unrefused
  obtain ⟨final, finallyInMemory, _⟩ := trail.marked inMemory
  exact ⟨final, finallyInMemory⟩

theorem Refused.inMemory
    {before after : Machine}
    {host : MemoryHost}
    (refused : before.Refused after)
    (inMemory : before.host = .memory host) :
    ∃ final, after.host = .memory final := by
  obtain ⟨_, trail, _⟩ := refused
  obtain ⟨final, finallyInMemory, _⟩ := trail.marked inMemory
  exact ⟨final, finallyInMemory⟩

/-- A substitution is refused on every way from one machine to another or on none. -/
theorem Unrefused.not_refused
    {before after : Machine}
    {host : MemoryHost}
    (inMemory : before.host = .memory host)
    (unrefused : before.Unrefused after) :
    ¬ before.Refused after := by
  rintro ⟨other, otherTrail, -⟩
  obtain ⟨history, trail, noneRefused⟩ := unrefused
  obtain ⟨final, finallyInMemory, marked⟩ := trail.marked inMemory
  obtain ⟨otherFinal, otherInMemory, otherMarked⟩ := otherTrail.marked inMemory
  obtain rfl := Host.memory.inj (finallyInMemory.symm.trans otherInMemory)
  have sameCount := marked.count_refused otherMarked
  rw [List.count_eq_zero.mpr noneRefused, List.count_append] at sameCount
  simp at sameCount

end Machine

end ShellCore
