import ShellCore.Proofs.Guard.Logging

namespace ShellCore

/-!
# What guards acquire, they release

However the scopes of a tree are left, each guard that was acquired is released once,
after those that were acquired behind it and with what it holds; redirections that
were refused are not undone. So a tree leaves the bindings and the frames as it found
them, and the guard of a frame receives what was recorded while its frame was the
innermost.
-/

namespace GuardEvent

/-- The guard that is released at an event, and what it received. -/
def release? :
    GuardEvent →
    Option (HeldGuard × StatusArray)
  | .released guard received => some (guard, received)
  | _ => none

end GuardEvent

/--
A machine went along a log of guards, at whose end nothing is held that was acquired
in it, and no binding and no frame is other than before.
-/
structure GuardRelease
    (env : Env)
    (log : List GuardEvent)
    (history : List ProcessSubEvent)
    (word : List HostCall)
    (before after : Machine)
    (host final : MemoryHost) :
    Prop where
  /-- At each event of the log, the host did what the event says. -/
  trail : GuardTrail env before log history after
  /-- A release is that of the guard acquired latest, with what it holds, and none is left. -/
  nested : GuardEvent.WellNested log
  /-- Each guard that was acquired is released, and those acquired in between are before. -/
  paired : ∀ {earlier later : List GuardEvent} {guard : HeldGuard},
    log = earlier ++ .acquired guard :: later →
    ∃ inside received rest,
      later = inside ++ .released guard received :: rest ∧ GuardEvent.WellNested inside
  /-- No guard is released but those that were acquired. -/
  once : ∀ guard, log.countP (GuardEvent.releases guard) = log.countP (GuardEvent.acquires guard)
  calls : final.calls = host.calls ++ word
  /-- Redirections and frames are opened and closed in a nested way, by guards and by actions. -/
  nestedCalls : HostCall.WellNested (word.filter fun call => !call.isFlushing)
  bindings : MemoryHost.SameBindings final host
  /-- A frame from before takes what is recorded while no frame of the run is open. -/
  grown : host.Grown (ProcessSubEvent.recorded history) final
  frames : host.frames = [] ∨ ProcessSubEvent.recorded history = [] → final.frames = host.frames
  /-- The guard of a frame receives what is recorded while nothing is open on top of its frame. -/
  received : ∀ {earlier inside rest : List GuardEvent} {received : StatusArray},
    log = earlier ++ .acquired .processSubs :: (inside ++ .released .processSubs received :: rest) →
    GuardEvent.WellNested inside →
    ∃ opened closing earlierHistory within laterHistory,
      GuardTrail env before (earlier ++ [.acquired .processSubs]) earlierHistory opened ∧
        GuardTrail env opened inside within closing ∧
          GuardTrail env closing (.released .processSubs received :: rest) laterHistory after ∧
            history = earlierHistory ++ (within ++ laterHistory) ∧
              received = .ofList (ProcessSubEvent.recorded within)

namespace GuardTrail

variable {env : Env}

/-- From the opening of a frame to its closing, its guard receives what is recorded in it. -/
theorem received_eq
    {before opened closing after : Machine}
    {inside rest : List GuardEvent}
    {opening within laterHistory : List ProcessSubEvent}
    {received : StatusArray}
    (opens : GuardStep env before (.acquired .processSubs) opening opened)
    (trail : GuardTrail env opened inside within closing)
    (nested : GuardEvent.WellNested inside)
    (closes : GuardTrail env closing (.released .processSubs received :: rest) laterHistory after) :
    received = .ofList (ProcessSubEvent.recorded within) := by
  cases opens with
  | @opened found foundInMemory =>
      obtain ⟨last, _, stillInMemory, guarded⟩ := trail.guarded nested rfl
      have frames : last.frames = ProcessSubEvent.recorded within :: found.frames :=
        guarded.grown.frames
      cases closes with
      | step step _ =>
          cases step with
          | collected lastInMemory holds =>
              obtain rfl := Host.memory.inj (lastInMemory.symm.trans stillInMemory)
              rw [holds] at frames
              cases frames
              rfl

/-- Where no guard is held any more, everything is as it was but for what was recorded outside. -/
theorem release
    {before after : Machine}
    {log : List GuardEvent}
    {history : List ProcessSubEvent}
    {host : MemoryHost}
    (trail : GuardTrail env before log history after)
    (nested : GuardEvent.WellNested log)
    (inMemory : before.host = .memory host) :
    ∃ final word,
      after.host = .memory final ∧
        GuardRelease env log history word before after host final := by
  obtain ⟨final, word, finallyInMemory, guarded⟩ := trail.guarded nested inMemory
  refine ⟨final, word, finallyInMemory, ?_⟩
  exact {
    trail := trail
    nested := nested
    paired := nested.paired
    once := nested.releases_eq
    calls := guarded.calls
    nestedCalls := guarded.nests
    bindings := guarded.bindings
    grown := guarded.grown
    frames := by
      have grown := guarded.grown.frames
      rintro (none | unrecorded)
      · rw [grown, none]
        rfl
      · rw [grown, unrecorded]
        cases host.frames <;> simp
    received := by
      intro earlier inside rest received shape insideNested
      subst shape
      obtain ⟨between, first, behind, rfl, reached, remaining⟩ := trail.split
      unfold GuardEvent.WellNested at nested
      rw [List.foldlM_append] at nested
      obtain ⟨held, followed, _⟩ := Option.bind_eq_some_iff.mp nested
      cases remaining with
      | @step _ opened _ _ _ opening _ opens others =>
          obtain ⟨closing, within, later, rfl, ran, closes⟩ := others.split
          exact ⟨opened, closing, first ++ opening, within, later,
            reached.trans (.singleton opens), ran, closes, by simp,
            received_eq opens ran insideNested closes⟩
  }

end GuardTrail

/--
However the scopes of a tree are left, all that its guards acquired is released, and
the tree ends unless it gets to an action that does not.
-/
theorem guards_release_what_they_acquire
    {env : Env}
    {tree : GuardTree}
    {before : Machine}
    {host : MemoryHost}
    (inMemory : before.host = .memory host) :
    ((∃ exit log after, GuardTree.Runs env tree before exit log after) ∨
        GuardTrail.Stuck env tree.actions before) ∧
      ∀ {exit : ScopeExit} {log : List GuardEvent} {after : Machine},
        GuardTree.Runs env tree before exit log after →
        ∃ final history word,
          after.host = .memory final ∧
            GuardRelease env log history word before after host final := by
  constructor
  · rcases tree.endsUnlessStuck env inMemory with ⟨fuel, ⟨⟨exit, log⟩, after⟩, finished⟩ | stuck
    · exact .inl ⟨exit, log, after, fuel, finished⟩
    · exact .inr stuck
  · rintro exit log after ⟨fuel, finished⟩
    obtain ⟨closed, history, trail⟩ := tree.run_logs fuel env inMemory finished
    obtain ⟨final, word, finallyInMemory, release⟩ := trail.release closed.wellNested inMemory
    exact ⟨final, history, word, finallyInMemory, release⟩

/--
In a frame, a panic unwinds a builtin's flush and the redirections around it; behind
it redirections are refused, and an error leaves the scope that runs without them.
-/
def unwoundScopes : GuardTree :=
  .scope .processSubs
    (.act (.processSub (.simple [.literal "false"] ⟨1⟩) ⟨2⟩)
      (.scope (.redirects [⟨1, .write, "out", ⟨3⟩⟩, ⟨2, .duplicate, "1", ⟨4⟩⟩])
        (.scope .flush
          (.act (.builtin "echo" ["echo", "lost"])
            (.act (.processSub (.simple [.literal "true"] ⟨5⟩) ⟨6⟩)
              (.leave (.panic 1))))
          (.leave .normal)
          (.leave .normal))
        (.leave .normal)
        (.scope (.redirects [⟨1, .append, "log", ⟨7⟩⟩, ⟨0, .read, "missing", ⟨8⟩⟩])
          (.leave .normal)
          (.act (.run ["echo", "refused"]) (.leave (.error 1)))
          (.leave .normal))))
    (.leave .normal)
    (.leave .normal)

theorem unwoundScopes_release :
    ∃ log after final history word,
      GuardTree.Runs .connected unwoundScopes .fresh .normal log after ∧
        after.host = .memory final ∧
        log.filterMap GuardEvent.release? =
          [(.flush, .empty), (.redirects 2, .empty),
            (.processSubs, ⟨[1, 0], [⟨2⟩, ⟨6⟩]⟩)] ∧
        GuardRelease .connected log history word .fresh after .initial final := by
  have ran :
      (unwoundScopes.run (evaluator 6) .connected .fresh).map
          (fun ended => (ended.1.1, ended.1.2.filterMap GuardEvent.release?)) =
        some (.normal,
          [(.flush, .empty), (.redirects 2, .empty),
            (.processSubs, ⟨[1, 0], [⟨2⟩, ⟨6⟩]⟩)]) := by
    decide +kernel
  obtain ⟨⟨⟨exit, log⟩, after⟩, finished, shape⟩ := Option.map_eq_some_iff.mp ran
  obtain ⟨rfl, releases⟩ := Prod.mk.inj shape
  have runs : GuardTree.Runs .connected unwoundScopes .fresh .normal log after :=
    ⟨6, finished⟩
  obtain ⟨final, history, word, inMemory, release⟩ :=
    (guards_release_what_they_acquire rfl).2 runs
  exact ⟨log, after, final, history, word, runs, inMemory, releases, release⟩

end ShellCore
