import ShellCore.Proofs.Wiring.Record

namespace ShellCore.Registry

/-!
# What passes the check

A set passes the check once it was tried and while its host finds the set that it
calls back. The check does not ask which set that is, so a set that could not be
connected passes as long as the set that took its host is alive.
-/

section Checks

variable {registry : Registry} {log : List Attempt} {set : SetId} {host : HostId}
variable {found : EvaluatorSet} {held : Host}

/-- A host passes if there is nothing to call back, or if that is alive. -/
theorem HostRecord.check_ok_iff
    (known : HostRecord log host held) :
    held.check registry.find? = .ok () ↔
      held = .inert ∨
        ∃ owner living, Connected log owner host ∧ registry.find? owner = some living := by
  cases known with
  | inert _ => exact ⟨fun _ => .inl rfl, fun _ => rfl⟩
  | unwired connects unset unused =>
      simp only [Host.check, MemoryHost.check, connects, unset, Link.check, Link.follow,
        Link.unset]
      constructor
      · intro passes
        cases passes
      · rintro (isInert | ⟨owner, _, connected, _⟩)
        · cases isInert
        · exact absurd rfl (unused _ connected)
  | @wired memory owner connects isSet owned =>
      cases isAlive : registry.find? owner with
      | none =>
          simp [Host.check, MemoryHost.check, connects, isSet, Link.check, Link.follow,
            Except.map, owned, isAlive]
      | some living =>
          simp [Host.check, MemoryHost.check, connects, isSet, Link.check, Link.follow,
            Except.map, owned, isAlive]

/-- A host whose set was dropped reports that its link leads nowhere. -/
theorem HostRecord.check_dangling
    {memory : MemoryHost}
    {owner : SetId}
    (known : HostRecord log host (.memory memory))
    (connected : Connected log owner host)
    (dropped : registry.find? owner = none) :
    (Host.memory memory).check registry.find? =
      .error (.dangling MemoryHost.callbackName) := by
  cases known with
  | unwired _ _ unused => exact absurd rfl (unused _ connected)
  | wired connects isSet owned =>
      obtain rfl := (owned owner).mp connected
      simp only [Host.check, MemoryHost.check, connects, isSet, Link.check, Link.follow,
        dropped]
      rfl

/-- The check of a set that was tried is the check of its host. -/
theorem Recorded.check_tried
    (recorded : registry.Recorded log)
    (alive : registry.find? set = some found)
    (known : registry.host? found.host = some held)
    (isTried : Tried log set) :
    registry.check set = some (held.check registry.find?) := by
  simp only [check, alive, known, recorded.tried alive isTried, Assembly.check_all,
    Option.bind_eq_bind, Option.bind_some]

/-- A set that was not tried misses its first connection. -/
theorem Recorded.check_untried
    (recorded : registry.Recorded log)
    (alive : registry.find? set = some found)
    (isUntried : ¬ Tried log set) :
    registry.check set = some (.error (.missing Connection.arithToWord.name)) := by
  obtain ⟨held, known⟩ := recorded.overHost alive
  simp only [check, alive, known, recorded.untried alive isUntried, Assembly.check_none,
    Option.bind_eq_bind, Option.bind_some]

/-- A set over an inert host is connected when it is tried. -/
theorem Recorded.connected_of_inert
    (recorded : registry.Recorded log)
    (alive : registry.find? set = some found)
    (isInert : registry.host? found.host = some .inert)
    (isTried : Tried log set) :
    Connected log set found.host := by
  obtain ⟨attempt, member, rfl⟩ := isTried
  cases recorded.hosts isInert with
  | inert connected =>
      exact connected attempt member (recorded.sameHost attempt member alive).symm

end Checks

/--
A set on which connecting never succeeded is answered by the check, and passes it
exactly if connecting was tried and the host calls back another set that is alive.
-/
theorem unconnected_set_passes_iff
    {log : List Attempt}
    {registry : Registry}
    {set : SetId}
    {found : EvaluatorSet}
    (history : History .empty log registry)
    (alive : registry.find? set = some found)
    (never : ∀ host, ¬ Connected log set host) :
    (∃ answer, registry.check set = some answer) ∧
      (registry.check set = some (.ok ()) ↔
        Tried log set ∧
          ∃ owner living,
            owner ≠ set ∧
              Connected log owner found.host ∧
                registry.find? owner = some living) := by
  have recorded := history.recorded
  obtain ⟨held, known⟩ := recorded.overHost alive
  by_cases isTried : Tried log set
  · have checked := recorded.check_tried alive known isTried
    refine ⟨⟨_, checked⟩, ?_⟩
    rw [checked, Option.some_inj, (recorded.hosts known).check_ok_iff]
    constructor
    · rintro (rfl | ⟨owner, living, connected, isAlive⟩)
      · exact absurd (recorded.connected_of_inert alive known isTried) (never found.host)
      · refine ⟨isTried, owner, living, ?_, connected, isAlive⟩
        rintro rfl
        exact never found.host connected
    · rintro ⟨_, owner, living, _, connected, isAlive⟩
      exact .inr ⟨owner, living, connected, isAlive⟩
  · have checked := recorded.check_untried alive isTried
    refine ⟨⟨_, checked⟩, ?_⟩
    rw [checked]
    constructor
    · intro passes
      cases passes
    · rintro ⟨isTried', _⟩
      exact absurd isTried' isTried

/-- Two sets over a new host in memory. -/
def sharedHost : Registry :=
  let (host, registry) := Registry.empty.addHost (.memory .initial)
  ((registry.addSet host "+ ").2.addSet host "+ ").2

/-- The host of the two sets once the first was connected over it. -/
def takenHost : Host :=
  .memory { MemoryHost.initial with callback := ⟨MemoryHost.callbackName, some ⟨0⟩⟩ }

/-- The two sets after both were tried, the first with success. -/
def contestedHost : Registry :=
  (sharedHost.afterAttempt ⟨0⟩ ⟨0⟩ takenHost).afterAttempt ⟨1⟩ ⟨0⟩ takenHost

theorem contestedHost_history :
    History .empty
      [⟨⟨0⟩, ⟨0⟩, .ok ()⟩, ⟨⟨1⟩, ⟨0⟩, .error (.alreadyWired MemoryHost.callbackName)⟩]
      contestedHost := by
  have isNew : (Host.memory .initial).IsNew := .memory rfl rfl
  have oneHost : History .empty [] (Registry.empty.addHost (.memory .initial)).2 :=
    .single (.addHost isNew)
  have twoSets : History .empty [] sharedHost :=
    (oneHost.step (.addSet rfl)).step (.addSet rfl)
  have firstAlive :
      sharedHost.find? ⟨0⟩ = some ⟨⟨[], "+ ", .empty⟩, .initial, ⟨0⟩⟩ :=
    rfl
  have first :
      Step sharedHost [⟨⟨0⟩, ⟨0⟩, .ok ()⟩] (sharedHost.afterAttempt ⟨0⟩ ⟨0⟩ takenHost) :=
    .connect firstAlive rfl
  have secondAlive :
      (sharedHost.afterAttempt ⟨0⟩ ⟨0⟩ takenHost).find? ⟨1⟩ =
        some ⟨⟨[], "+ ", .empty⟩, .initial, ⟨0⟩⟩ :=
    rfl
  have second :
      Step (sharedHost.afterAttempt ⟨0⟩ ⟨0⟩ takenHost)
        [⟨⟨1⟩, ⟨0⟩, .error (.alreadyWired MemoryHost.callbackName)⟩] contestedHost :=
    .connect secondAlive rfl
  exact (twoSets.step first).step second

/-- In the log of the two sets, the second was connected over no host. -/
theorem second_never_connected
    (host : HostId) :
    ¬ Connected
      [⟨⟨0⟩, ⟨0⟩, .ok ()⟩, ⟨⟨1⟩, ⟨0⟩, .error (.alreadyWired MemoryHost.callbackName)⟩]
      ⟨1⟩ host := by
  simp [Connected]

/-- The second set passes while the first one is alive, and fails once that is dropped. -/
theorem contested_set_passes_iff :
    ∃ log,
      History .empty log contestedHost ∧
        History .empty log (contestedHost.drop ⟨0⟩) ∧
          (∀ host, ¬ Connected log ⟨1⟩ host) ∧
            contestedHost.check ⟨1⟩ = some (.ok ()) ∧
              ∃ answer,
                (contestedHost.drop ⟨0⟩).check ⟨1⟩ = some answer ∧ answer ≠ .ok () := by
  have history := contestedHost_history
  have later := history.step (.drop ⟨0⟩)
  rw [List.append_nil] at later
  have alive :
      ∃ found,
        found.host = ⟨0⟩ ∧
          contestedHost.find? ⟨1⟩ = some found ∧
            (contestedHost.drop ⟨0⟩).find? ⟨1⟩ = some found :=
    ⟨_, rfl, rfl, rfl⟩
  obtain ⟨found, overHost, alive, stillAlive⟩ := alive
  obtain ⟨_, passes⟩ := unconnected_set_passes_iff history alive second_never_connected
  obtain ⟨⟨answer, answered⟩, stillPasses⟩ :=
    unconnected_set_passes_iff later stillAlive second_never_connected
  refine ⟨_, history, later, second_never_connected, passes.mpr ?_, answer, answered, ?_⟩
  · refine ⟨⟨_, List.mem_cons_of_mem _ List.mem_cons_self, rfl⟩, ⟨0⟩, _, by decide, ?_, rfl⟩
    rw [overHost]
    exact List.mem_cons_self
  · rintro rfl
    obtain ⟨_, owner, living, _, connected, isAlive⟩ := stillPasses.mp answered
    obtain ⟨rfl, -⟩ : owner = ⟨0⟩ ∧ found.host = ⟨0⟩ := by
      simpa [Connected] using connected
    cases isAlive

/-- The second set could not be connected, and passes the check. -/
theorem refused_set_passes_check :
    ∃ log registry found,
      History .empty log registry ∧
        registry.find? ⟨1⟩ = some found ∧
          (∀ host, ¬ Connected log ⟨1⟩ host) ∧
            registry.check ⟨1⟩ = some (.ok ()) :=
  ⟨_, contestedHost, _, contestedHost_history, rfl, second_never_connected, rfl⟩

end ShellCore.Registry
