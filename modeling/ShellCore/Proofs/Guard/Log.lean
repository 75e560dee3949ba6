import ShellCore.Status
import ShellCore.Syntax

namespace ShellCore

/-!
# Logs of guards

A log tells in which order guards were acquired and released, and what was done in
between. It is well nested if each release is that of the guard that was acquired
latest among those still held, with what this one holds, and if none is held at the
end. Then every guard is released once, after all that were acquired behind it.
-/

/-- What a guard holds of the host until it is released. -/
inductive HeldGuard where
  | redirects (count : Nat)
  | processSubs
  | flush
  deriving Repr, DecidableEq

/-- What may be done between guards. -/
inductive GuardAction where
  /-- A command is executed by the set that runs. -/
  | execute (command : Command)
  | expand (word : Word)
  | run (argv : List String)
  | builtin (name : String) (argv : List String)
  | background (body : Command)
  | pipeline (stages : List Command) (negated : Bool)
  | subshell (body : Command)
  | commandSub (body : Command)
  | processSub (body : Command) (span : SpanId)

/-- What can happen to guards and between them. -/
inductive GuardEvent where
  | acquired (guard : HeldGuard)
  /-- Redirections did not hold, so there is no guard. -/
  | refused
  /-- A guard was released; that of process substitutions received their statuses. -/
  | released (guard : HeldGuard) (received : StatusArray)
  | acted (action : GuardAction)

namespace GuardEvent

/-- Whether a guard is acquired. -/
def acquires
    (guard : HeldGuard) :
    GuardEvent →
    Bool
  | .acquired other => other = guard
  | _ => false

/-- Whether a guard is released. -/
def releases
    (guard : HeldGuard) :
    GuardEvent →
    Bool
  | .released other _ => other = guard
  | _ => false

/-- The guards that are held after an event, latest first; only the latest can be released. -/
def follow?
    (held : List HeldGuard) :
    GuardEvent →
    Option (List HeldGuard)
  | .acquired guard => some (guard :: held)
  | .refused => some held
  | .released guard _ => if held.head? = some guard then some held.tail else none
  | .acted _ => some held

/-- Every release is that of the guard acquired latest, and none is held at the end. -/
def WellNested
    (log : List GuardEvent) :
    Prop :=
  log.foldlM follow? [] = some []

/-- Only the latest guard can be released. -/
theorem follow?_released_iff
    {held later : List HeldGuard}
    {guard : HeldGuard}
    {received : StatusArray} :
    follow? held (.released guard received) = some later ↔ held = guard :: later := by
  cases held with
  | nil => simp [follow?]
  | cons latest rest => simp [follow?]

/-- A log that may stand behind any guards, and leaves them held. -/
def Closed
    (log : List GuardEvent) :
    Prop :=
  ∀ held : List HeldGuard, log.foldlM follow? held = some held

namespace Closed

theorem wellNested
    {log : List GuardEvent}
    (closed : Closed log) :
    WellNested log :=
  closed []

theorem nil :
    Closed [] :=
  fun _ => rfl

theorem append
    {left right : List GuardEvent}
    (leftClosed : Closed left)
    (rightClosed : Closed right) :
    Closed (left ++ right) := by
  intro held
  rw [List.foldlM_append, leftClosed held]
  exact rightClosed held

theorem refused :
    Closed [.refused] :=
  fun _ => rfl

theorem acted
    (action : GuardAction) :
    Closed [.acted action] :=
  fun _ => rfl

/-- A guard that is acquired and released around a closed log is closed with it. -/
theorem bracket
    (guard : HeldGuard)
    (received : StatusArray)
    {inside : List GuardEvent}
    (closed : Closed inside) :
    Closed (.acquired guard :: (inside ++ [.released guard received])) := by
  intro held
  have opened : follow? held (.acquired guard) = some (guard :: held) :=
    rfl
  have left : follow? (guard :: held) (.released guard received) = some held :=
    follow?_released_iff.mpr rfl
  simp [opened, closed (guard :: held), left]

end Closed

/-- Behind a guard, an event has its place without regard to this guard, unless it releases it. -/
theorem follow?_behind
    {inner held between : List HeldGuard}
    {guard : HeldGuard}
    {event : GuardEvent}
    (followed : follow? (inner ++ guard :: held) event = some between) :
    (inner = [] ∧ ∃ received, event = .released guard received) ∨
      ∃ next, follow? inner event = some next ∧ between = next ++ guard :: held := by
  cases event with
  | acquired other => exact .inr ⟨other :: inner, rfl, (Option.some.inj followed).symm⟩
  | refused => exact .inr ⟨inner, rfl, (Option.some.inj followed).symm⟩
  | acted action => exact .inr ⟨inner, rfl, (Option.some.inj followed).symm⟩
  | released other received =>
      have latest := follow?_released_iff.mp followed
      cases inner with
      | nil =>
          cases latest
          exact .inl ⟨rfl, received, rfl⟩
      | cons innermost outer =>
          cases latest
          exact .inr ⟨outer, follow?_released_iff.mpr rfl, rfl⟩

/-- A guard that is not held any more was released; those acquired behind it were before. -/
theorem exists_release
    (inner : List HeldGuard)
    {held later : List HeldGuard}
    {guard : HeldGuard}
    {log : List GuardEvent}
    (followed : log.foldlM follow? (inner ++ guard :: held) = some later)
    (fewer : later.length ≤ held.length) :
    ∃ inside received rest,
      log = inside ++ .released guard received :: rest ∧
        inside.foldlM follow? inner = some [] := by
  -- The inner guards were acquired behind this one, so the log has to release them first.
  induction log generalizing inner with
  | nil =>
      cases followed
      simp only [List.length_append, List.length_cons] at fewer
      omega
  | cons event rest inductionHypothesis =>
      rw [List.foldlM_cons] at followed
      obtain ⟨between, first, others⟩ := Option.bind_eq_some_iff.mp followed
      rcases follow?_behind first with ⟨rfl, received, rfl⟩ | ⟨next, within, rfl⟩
      · exact ⟨[], received, rest, rfl, rfl⟩
      · obtain ⟨inside, received, behind, rfl, closed⟩ := inductionHypothesis next others
        refine ⟨event :: inside, received, behind, rfl, ?_⟩
        rw [List.foldlM_cons, within]
        exact closed

/-- An event holds a guard more or less often. -/
theorem count_follow?
    (guard : HeldGuard)
    {held later : List HeldGuard}
    {event : GuardEvent}
    (followed : follow? held event = some later) :
    later.count guard + (if event.releases guard then 1 else 0) =
      held.count guard + if event.acquires guard then 1 else 0 := by
  cases event with
  | acquired other =>
      cases followed
      simp [releases, acquires, List.count_cons]
  | refused =>
      cases followed
      rfl
  | released other received =>
      obtain rfl := follow?_released_iff.mp followed
      simp [releases, acquires, List.count_cons]
  | acted action =>
      cases followed
      rfl

theorem count_foldlM
    (guard : HeldGuard)
    {held later : List HeldGuard}
    {log : List GuardEvent}
    (followed : log.foldlM follow? held = some later) :
    later.count guard + log.countP (releases guard) =
      held.count guard + log.countP (acquires guard) := by
  induction log generalizing held with
  | nil =>
      cases followed
      rfl
  | cons event rest inductionHypothesis =>
      rw [List.foldlM_cons] at followed
      obtain ⟨between, first, others⟩ := Option.bind_eq_some_iff.mp followed
      have counted := count_follow? guard first
      have remaining := inductionHypothesis others
      rw [List.countP_cons, List.countP_cons]
      omega

namespace WellNested

variable {log : List GuardEvent}

/-- Each guard that was acquired is released, and those acquired in between are before. -/
theorem paired
    (nested : WellNested log)
    {earlier later : List GuardEvent}
    {guard : HeldGuard}
    (acquired : log = earlier ++ .acquired guard :: later) :
    ∃ inside received rest,
      later = inside ++ .released guard received :: rest ∧ WellNested inside := by
  unfold WellNested at nested
  rw [acquired, List.foldlM_append] at nested
  obtain ⟨held, _, others⟩ := Option.bind_eq_some_iff.mp nested
  exact exists_release [] others (Nat.zero_le _)

/-- A guard is released as often as it is acquired. -/
theorem releases_eq
    (nested : WellNested log)
    (guard : HeldGuard) :
    log.countP (releases guard) = log.countP (acquires guard) := by
  simpa using count_foldlM guard nested

end WellNested

end GuardEvent

end ShellCore
