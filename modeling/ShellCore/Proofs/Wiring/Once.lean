import ShellCore.Proofs.Wiring.Persistence
import ShellCore.Proofs.Wiring.Validation

namespace ShellCore.Registry

/-!
# Connecting happens once

An attempt succeeds for a set that was never tried over a host that calls back no
other set. One that fails leaves the hosts and all other sets as they are, so what
was connected stays connected; and a host whose set was dropped is lost for good.
-/

/-- No set was connected over the host yet, or it is inert and any set may be. -/
def IsFree
    (registry : Registry)
    (log : List Attempt)
    (host : HostId) :
    Prop :=
  registry.host? host = some .inert ∨ ∀ set, ¬ Connected log set host

/-- Between the registries, no host changed and no set but the given one. -/
structure SameExcept
    (set : SetId)
    (before after : Registry) :
    Prop where
  hosts : ∀ host, after.host? host = before.host? host
  sets : ∀ other, other ≠ set → after.find? other = before.find? other

theorem isFree_iff
    {registry : Registry}
    {log : List Attempt}
    {host : HostId}
    {held : Host}
    (known : registry.host? host = some held) :
    IsFree registry log host ↔ held = .inert ∨ ∀ set, ¬ Connected log set host := by
  rw [IsFree, known, Option.some_inj]

section Attempts

variable {registry : Registry} {log : List Attempt} {set : SetId} {host : HostId}
variable {found : EvaluatorSet} {held changed : Host} {answer : Except WiringError Unit}

/-- An attempt succeeds for an untried set over a free host. -/
theorem Ends.ok_iff
    (ends : Ends log set held answer changed)
    (record : HostRecord log host held) :
    answer = .ok () ↔
      ¬ Tried log set ∧ (held = .inert ∨ ∀ other, ¬ Connected log other host) := by
  cases ends with
  | again isTried => simp [isTried]
  | refused isUntried target =>
      cases record with
      | unwired _ unset _ =>
          rw [unset] at target
          cases target
      | wired _ _ owned => simp [owned]
  | inert isUntried => simp [isUntried]
  | wired isUntried unset =>
      cases record with
      | unwired _ _ unused =>
          have neverConnected : ∀ other, ¬ Connected log other host :=
            fun other connected => unused _ connected rfl
          simp [isUntried, neverConnected]
      | wired _ isSet _ =>
          rw [unset] at isSet
          cases isSet

/-- An attempt that fails meets a link that is set, and leaves the host as it is. -/
theorem Ends.of_error
    {error : WiringError}
    (ends : Ends log set held (.error error) changed) :
    changed = held ∧
      (error = .alreadyWired Connection.arithToWord.name ∧ Tried log set ∨
        error = .alreadyWired MemoryHost.callbackName ∧ ¬ Tried log set) := by
  cases ends with
  | again isTried => exact ⟨rfl, .inl ⟨rfl, isTried⟩⟩
  | refused isUntried _ => exact ⟨rfl, .inr ⟨rfl, isUntried⟩⟩

end Attempts

namespace SameExcept

variable {first second third registry : Registry} {set : SetId} {host : HostId}

theorem trans
    (earlier : SameExcept set first second)
    (later : SameExcept set second third) :
    SameExcept set first third where
  hosts host := (later.hosts host).trans (earlier.hosts host)
  sets other apart := (later.sets other apart).trans (earlier.sets other apart)

theorem addSet
    (ps4 : String) :
    SameExcept ⟨registry.sets.size⟩ registry (registry.addSet host ps4).2 where
  hosts _ := rfl
  sets other apart := by
    have isOlder : other.index ≠ registry.sets.size :=
      fun same => apart (congrArg SetId.mk same)
    rw [find?_addSet, if_neg isOlder]

theorem drop :
    SameExcept set registry (registry.drop set) where
  hosts _ := rfl
  sets other apart := by
    rw [find?_drop, if_neg apart]

theorem afterAttempt
    {held : Host}
    (known : registry.host? host = some held) :
    SameExcept set registry (registry.afterAttempt set host held) where
  hosts other := by
    rw [host?_afterAttempt known]
    split
    next same => rw [same, known]
    next => rfl
  sets other apart := by
    rw [find?_afterAttempt, if_neg apart]

end SameExcept

section Added

variable {registry after : Registry} {host : HostId} {ps4 : String}

/-- A set that is connected as it is added stays if that succeeds. -/
theorem addConnectedSet_ok
    (connects :
      (registry.addSet host ps4).2.connect ⟨registry.sets.size⟩ = some (.ok (), after)) :
    registry.addConnectedSet host ps4 = some (.ok ⟨registry.sets.size⟩, after) := by
  simp only [addConnectedSet, addSet_handle, connects]
  rfl

/-- It is dropped if that fails. -/
theorem addConnectedSet_error
    {error : WiringError}
    (connects :
      (registry.addSet host ps4).2.connect ⟨registry.sets.size⟩ = some (.error error, after)) :
    registry.addConnectedSet host ps4 =
      some (.error error, after.drop ⟨registry.sets.size⟩) := by
  simp only [addConnectedSet, addSet_handle, connects]
  rfl

end Added

/-- A host in memory that nothing can be connected over any more. -/
structure IsLost
    (registry : Registry)
    (host : HostId) :
    Prop where
  dangling :
    ∃ held,
      registry.host? host = some held ∧
        held.check registry.find? = .error (.dangling MemoryHost.callbackName)
  refuses : ∀ {set : SetId} {found : EvaluatorSet},
    registry.find? set = some found →
    found.host = host →
    ∃ name after, registry.connect set = some (.error (.alreadyWired name), after)
  refusesNew : ∀ ps4,
    ∃ after,
      registry.addConnectedSet host ps4 =
        some (.error (.alreadyWired MemoryHost.callbackName), after)

namespace Recorded

variable {registry : Registry} {log : List Attempt} {set : SetId} {host : HostId}
variable {found : EvaluatorSet} {held : Host}
variable (recorded : registry.Recorded log)

include recorded

/-- Whether connecting succeeds is told by the log; a failure changes no other set and no host. -/
theorem connect_once
    (alive : registry.find? set = some found) :
    ∃ answer after,
      registry.connect set = some (answer, after) ∧
        (answer = .ok () ↔ ¬ Tried log set ∧ IsFree registry log found.host) ∧
          ∀ error,
            answer = .error error →
            (∃ name, error = .alreadyWired name) ∧ SameExcept set registry after := by
  obtain ⟨held, changed, answer, known, ends, connects⟩ := recorded.connect alive
  refine ⟨answer, _, connects, ?_, ?_⟩
  · rw [isFree_iff known]
    exact ends.ok_iff (recorded.hosts known)
  · rintro error rfl
    obtain ⟨rfl, reason⟩ := ends.of_error
    refine ⟨?_, .afterAttempt known⟩
    rcases reason with ⟨rfl, _⟩ | ⟨rfl, _⟩
    · exact ⟨_, rfl⟩
    · exact ⟨_, rfl⟩

/-- A set that is connected as it is added is connected under the same condition. -/
theorem addConnectedSet_once
    (known : registry.host? host = some held)
    (ps4 : String) :
    ∃ answer after,
      registry.addConnectedSet host ps4 = some (answer, after) ∧
        History registry [⟨⟨registry.sets.size⟩, host, answer.map fun _ => ()⟩] after ∧
          ((∃ set, answer = .ok set) ↔ IsFree registry log host) ∧
            ∀ error,
              answer = .error error →
              error = .alreadyWired MemoryHost.callbackName ∧
                SameExcept ⟨registry.sets.size⟩ registry after ∧
                  after.find? ⟨registry.sets.size⟩ = none := by
  have added := recorded.addSet known ps4
  have isNew :
      (registry.addSet host ps4).2.find? ⟨registry.sets.size⟩ =
        some ⟨⟨[], ps4, .empty⟩, .initial, host⟩ := by
    rw [find?_addSet, if_pos rfl]
  have isUntried := recorded.new_untried
  obtain ⟨_, changed, answer, sameHost, ends, connects⟩ := added.connect isNew
  obtain rfl := Option.some.inj (sameHost.symm.trans known)
  have succeeds := ends.ok_iff (recorded.hosts known)
  rw [← isFree_iff known, and_iff_right isUntried] at succeeds
  have attempted :
      History registry [⟨⟨registry.sets.size⟩, host, answer⟩]
        ((registry.addSet host ps4).2.afterAttempt ⟨registry.sets.size⟩ host changed) :=
    (History.single (.addSet known)).step (.connect isNew connects)
  cases answer with
  | ok _ =>
      refine ⟨.ok ⟨registry.sets.size⟩, _, addConnectedSet_ok connects, attempted, ?_, ?_⟩
      · exact ⟨fun _ => succeeds.mp rfl, fun _ => ⟨_, rfl⟩⟩
      · rintro error isError
        cases isError
  | error error =>
      obtain ⟨rfl, reason⟩ := ends.of_error
      refine ⟨.error error, _, addConnectedSet_error connects,
        attempted.step (.drop ⟨registry.sets.size⟩), ?_, ?_⟩
      · constructor
        · rintro ⟨_, isOk⟩
          cases isOk
        · intro isFree
          cases succeeds.mpr isFree
      · rintro _ ⟨⟩
        refine ⟨?_, ?_, ?_⟩
        · rcases reason with ⟨_, isTried⟩ | ⟨same, _⟩
          · exact absurd isTried isUntried
          · exact same
        · exact ((SameExcept.addSet ps4).trans (.afterAttempt sameHost)).trans .drop
        · rw [find?_drop, if_pos rfl]

/-- A set that was connected passes in all its components as long as it is alive. -/
theorem connected_passes
    (connected : Connected log set host)
    (alive : registry.find? set = some found) :
    registry.check set = some (.ok ()) ∧
      ∀ component, registry.checkComponent set component = some (.ok ()) := by
  have isTried : Tried log set := ⟨_, connected, rfl⟩
  obtain rfl : found.host = host := recorded.sameHost _ connected alive
  obtain ⟨held, known⟩ := recorded.overHost alive
  have passes : held.check registry.find? = .ok () :=
    (recorded.hosts known).check_ok_iff.mpr (.inr ⟨set, found, connected, alive⟩)
  constructor
  · rw [recorded.check_tried alive known isTried, passes]
  · intro component
    simp only [checkComponent, alive, known, recorded.tried alive isTried,
      Assembly.checkComponent_all passes, Option.bind_eq_bind, Option.bind_some]

/-- A host in memory is lost once the set is dropped that was connected over it. -/
theorem isLost
    {memory : MemoryHost}
    (connected : Connected log set host)
    (known : registry.host? host = some (.memory memory))
    (dropped : registry.find? set = none) :
    registry.IsLost host := by
  have isTaken : ¬ IsFree registry log host := by
    rw [isFree_iff known]
    rintro (isInert | neverConnected)
    · cases isInert
    · exact neverConnected set connected
  refine ⟨⟨_, known, (recorded.hosts known).check_dangling connected dropped⟩, ?_, ?_⟩
  · rintro other found alive rfl
    obtain ⟨answer, after, connects, succeeds, fails⟩ := recorded.connect_once alive
    cases answer with
    | ok _ => exact absurd (succeeds.mp rfl).2 isTaken
    | error error =>
        obtain ⟨⟨name, rfl⟩, _⟩ := fails error rfl
        exact ⟨name, after, connects⟩
  · intro ps4
    obtain ⟨answer, after, connects, _, succeeds, fails⟩ :=
      recorded.addConnectedSet_once known ps4
    cases answer with
    | ok other => exact absurd (succeeds.mp ⟨other, rfl⟩) isTaken
    | error error =>
        obtain ⟨rfl, _⟩ := fails error rfl
        exact ⟨after, connects⟩

end Recorded

/--
After any history, connecting a set succeeds exactly if it was never tried and its
host is free, and likewise for a set that is connected as it is added; a failure
meets a link that is set, and changes no host and no other set. What was connected
passes in all its components as long as it is alive. Whatever comes later, what is
wired or dropped remains so; a host in memory whose set is dropped reports a link
that leads nowhere, and refuses every set.
-/
theorem connecting_happens_once
    {log : List Attempt}
    {registry : Registry}
    (history : History .empty log registry) :
    (∀ {set : SetId} {found : EvaluatorSet},
      registry.find? set = some found →
      ∃ answer after,
        registry.connect set = some (answer, after) ∧
          (answer = .ok () ↔ ¬ Tried log set ∧ IsFree registry log found.host) ∧
            ∀ error,
              answer = .error error →
              (∃ name, error = .alreadyWired name) ∧ SameExcept set registry after) ∧
    (∀ {host : HostId} {held : Host} (ps4 : String),
      registry.host? host = some held →
      ∃ answer after,
        registry.addConnectedSet host ps4 = some (answer, after) ∧
          History registry [⟨⟨registry.sets.size⟩, host, answer.map fun _ => ()⟩] after ∧
            ((∃ set, answer = .ok set) ↔ IsFree registry log host) ∧
              ∀ error,
                answer = .error error →
                error = .alreadyWired MemoryHost.callbackName ∧
                  SameExcept ⟨registry.sets.size⟩ registry after ∧
                    after.find? ⟨registry.sets.size⟩ = none) ∧
    (∀ {set : SetId} {host : HostId} {found : EvaluatorSet},
      Connected log set host →
      registry.find? set = some found →
      registry.check set = some (.ok ()) ∧
        ∀ component, registry.checkComponent set component = some (.ok ())) ∧
    ∀ {attempts : List Attempt} {later : Registry},
      History registry attempts later →
      Persists registry later ∧
        ∀ {set : SetId} {host : HostId} {memory : MemoryHost},
          Connected log set host →
          registry.host? host = some (.memory memory) →
          registry.find? set = none →
          later.find? set = none ∧ later.IsLost host := by
  have recorded := history.recorded
  refine ⟨recorded.connect_once, fun ps4 known => recorded.addConnectedSet_once known ps4,
    recorded.connected_passes, ?_⟩
  intro attempts later continued
  have persists := Persists.history recorded continued
  refine ⟨persists, ?_⟩
  intro set host memory connected known dropped
  have stillDropped := persists.dropped (recorded.given _ connected).1 dropped
  have target := (recorded.hosts known).target_of_connected connected
  obtain ⟨kept, stillKnown, _⟩ := persists.callback known target
  have stillConnected : Connected (log ++ attempts) set host :=
    List.mem_append_left attempts connected
  exact ⟨stillDropped, (recorded.history continued).isLost stillConnected stillKnown stillDropped⟩

/-- The host of the two sets is lost when the first of them is dropped. -/
theorem contested_host_is_connected_once :
    ∃ log,
      History .empty log contestedHost ∧
        contestedHost.checkComponent ⟨0⟩ .host = some (.ok ()) ∧
          (contestedHost.drop ⟨0⟩).IsLost ⟨0⟩ ∧
            ∃ found answer after,
              (contestedHost.drop ⟨0⟩).find? ⟨1⟩ = some found ∧
                (contestedHost.drop ⟨0⟩).connect ⟨1⟩ = some (answer, after) ∧
                  answer ≠ .ok () := by
  have history := contestedHost_history
  have dropped := history.step (.drop ⟨0⟩)
  rw [List.append_nil] at dropped
  obtain ⟨_, _, passes, _⟩ := connecting_happens_once history
  obtain ⟨once, _, _, forGood⟩ := connecting_happens_once dropped
  obtain ⟨_, lost⟩ := forGood .start
  have firstConnected :
      Connected
        [⟨⟨0⟩, ⟨0⟩, .ok ()⟩, ⟨⟨1⟩, ⟨0⟩, .error (.alreadyWired MemoryHost.callbackName)⟩]
        ⟨0⟩ ⟨0⟩ :=
    List.mem_cons_self
  have firstAlive : ∃ found, contestedHost.find? ⟨0⟩ = some found := ⟨_, rfl⟩
  have secondAlive : ∃ found, (contestedHost.drop ⟨0⟩).find? ⟨1⟩ = some found := ⟨_, rfl⟩
  obtain ⟨_, firstAlive⟩ := firstAlive
  obtain ⟨found, secondAlive⟩ := secondAlive
  obtain ⟨answer, after, connects, succeeds, _⟩ := once secondAlive
  refine ⟨_, history, (passes firstConnected firstAlive).2 .host,
    (lost firstConnected rfl rfl).2, found, answer, after, secondAlive, connects, ?_⟩
  rintro rfl
  exact (succeeds.mp rfl).1 ⟨_, List.mem_cons_of_mem _ List.mem_cons_self, rfl⟩

end ShellCore.Registry
