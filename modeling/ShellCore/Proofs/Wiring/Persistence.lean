import ShellCore.Proofs.Wiring.Record

namespace ShellCore.Registry

/-!
# What no operation takes back

A set that was dropped stays dropped, whatever leads to it; a host that was wired
stays wired to the same set, be that alive or not; and a set keeps its host and the
connections that it has.
-/

/-- What was wired or dropped once is so for good. -/
structure Persists (before after : Registry) : Prop where
  handles : before.sets.size ≤ after.sets.size
  dropped : ∀ {set : SetId},
    set.index < before.sets.size →
    before.find? set = none →
    after.find? set = none
  inert : ∀ {host : HostId},
    before.host? host = some .inert →
    after.host? host = some .inert
  callback : ∀ {host : HostId} {memory : MemoryHost} {owner : SetId},
    before.host? host = some (.memory memory) →
    memory.callback.target = some owner →
    ∃ kept, after.host? host = some (.memory kept) ∧ kept.callback = memory.callback
  sets : ∀ {set : SetId} {found kept : EvaluatorSet},
    before.find? set = some found →
    after.find? set = some kept →
    kept.host = found.host ∧
      ∀ connection ∈ found.setup.connections, connection ∈ kept.setup.connections

namespace Persists

theorem refl
    (registry : Registry) :
    Persists registry registry where
  handles := Nat.le_refl _
  dropped _ isDropped := isDropped
  inert known := known
  callback known _ := ⟨_, known, rfl⟩
  sets alive kept := by
    rw [alive] at kept
    cases kept
    exact ⟨rfl, fun _ member => member⟩

theorem trans
    {first second third : Registry}
    (earlier : Persists first second)
    (later : Persists second third) :
    Persists first third where
  handles := Nat.le_trans earlier.handles later.handles
  dropped given isDropped :=
    later.dropped (Nat.lt_of_lt_of_le given earlier.handles) (earlier.dropped given isDropped)
  inert known := later.inert (earlier.inert known)
  callback known isSet := by
    obtain ⟨between, isKnown, same⟩ := earlier.callback known isSet
    obtain ⟨kept, stillKnown, stillSame⟩ :=
      later.callback isKnown ((congrArg Link.target same).trans isSet)
    exact ⟨kept, stillKnown, stillSame.trans same⟩
  sets {set found kept} alive isKept := by
    cases between : second.find? set with
    | none =>
        have given := Nat.lt_of_lt_of_le (index_lt_of_find? alive) earlier.handles
        rw [later.dropped given between] at isKept
        cases isKept
    | some middle =>
        obtain ⟨sameHost, connections⟩ := earlier.sets alive between
        obtain ⟨stillSame, stillConnected⟩ := later.sets between isKept
        exact ⟨stillSame.trans sameHost, fun connection member =>
          stillConnected connection (connections connection member)⟩

variable {registry : Registry}

theorem addHost
    (host : Host) :
    Persists registry (registry.addHost host).2 := by
  have isOlder :
      ∀ {place : HostId} {held : Host},
        registry.host? place = some held →
        (registry.addHost host).2.host? place = some held := by
    intro place held known
    have isBefore : place.index ≠ registry.hosts.size :=
      Nat.ne_of_lt (Array.getElem?_eq_some_iff.mp known).1
    rw [host?_addHost, if_neg isBefore]
    exact known
  exact { refl registry with
    inert := isOlder
    callback := fun known _ => ⟨_, isOlder known, rfl⟩ }

theorem addSet
    (host : HostId)
    (ps4 : String) :
    Persists registry (registry.addSet host ps4).2 := by
  have isOlder :
      ∀ {set : SetId},
        set.index < registry.sets.size →
        (registry.addSet host ps4).2.find? set = registry.find? set := by
    intro set given
    rw [find?_addSet, if_neg (Nat.ne_of_lt given)]
  exact { refl registry with
    handles := by
      simp only [Registry.addSet, Array.size_push]
      omega
    dropped := fun given isDropped => (isOlder given).trans isDropped
    sets := fun alive isKept =>
      (refl registry).sets alive ((isOlder (index_lt_of_find? alive)).symm.trans isKept) }

theorem drop
    (set : SetId) :
    Persists registry (registry.drop set) :=
  { refl registry with
    handles := by
      simp only [Registry.drop, Array.size_setIfInBounds]
      exact Nat.le_refl _
    dropped := fun _ isDropped => by
      rw [find?_drop, isDropped, ite_self]
    sets := fun alive isKept => (refl registry).sets alive (alive_before_drop isKept) }

/-- An attempt wires a host only if nothing was wired to it before. -/
theorem attempted
    {log : List Attempt}
    {set : SetId}
    {found : EvaluatorSet}
    {held changed : Host}
    {answer : Except WiringError Unit}
    (known : registry.host? found.host = some held)
    (ends : Ends log set held answer changed) :
    Persists registry (registry.afterAttempt set found.host changed) where
  handles := by
    simp only [afterAttempt, modifySet, setHost, Array.size_modify]
    exact Nat.le_refl _
  dropped {other} _ isDropped := by
    rw [find?_afterAttempt]
    split
    next same => rw [← same, isDropped, Option.map_none]
    next => exact isDropped
  inert {host} isKnown := by
    rw [host?_afterAttempt known]
    split
    next same =>
      rw [same, known] at isKnown
      cases isKnown
      cases ends <;> rfl
    next => exact isKnown
  callback {host memory owner} isKnown isSet := by
    rw [host?_afterAttempt known]
    split
    next same =>
      rw [same, known] at isKnown
      cases isKnown
      cases ends with
      | again => exact ⟨memory, rfl, rfl⟩
      | refused => exact ⟨memory, rfl, rfl⟩
      | wired _ unset =>
          rw [unset] at isSet
          cases isSet
    next => exact ⟨memory, isKnown, rfl⟩
  sets {other older kept} alive isKept := by
    rw [find?_afterAttempt] at isKept
    split at isKept
    next same =>
      rw [← same, alive] at isKept
      cases isKept
      exact ⟨rfl, fun connection _ => List.mem_reverse.mpr connection.mem_all⟩
    next => exact (refl registry).sets alive isKept

theorem step
    {log attempts : List Attempt}
    {after : Registry}
    (recorded : registry.Recorded log)
    (step : Step registry attempts after) :
    Persists registry after := by
  cases step with
  | addHost isNew => exact addHost _
  | addSet known => exact addSet _ _
  | connect alive connects =>
      obtain ⟨held, changed, given, known, ends, connected⟩ := recorded.connect alive
      rw [connected] at connects
      cases connects
      exact attempted known ends
  | drop set => exact drop set

theorem history
    {log attempts : List Attempt}
    {after : Registry}
    (recorded : registry.Recorded log)
    (history : History registry attempts after) :
    Persists registry after := by
  induction history with
  | start => exact refl registry
  | step earlier laterStep inductionHypothesis =>
      exact inductionHypothesis.trans (step (recorded.history earlier) laterStep)

end Persists

end ShellCore.Registry
