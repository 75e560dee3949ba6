import ShellCore.Proofs.Wiring.History

namespace ShellCore

/-!
# What the log tells of a registry

The first attempt to connect a set makes all its connections, whether the host lets
itself be wired or not; the first attempt over a host in memory wires that host.
So the log of a history tells which connections of a set are made and which set a
host calls back, and each new attempt can end in one of four ways only.
-/

namespace Registry

/-- What a log tells of a host. -/
inductive HostRecord (log : List Attempt) (host : HostId) : Host → Prop where
  | inert :
      (∀ attempt ∈ log, attempt.host = host → Connected log attempt.set host) →
      HostRecord log host .inert
  | unwired {memory : MemoryHost} :
      memory.connects = true →
      memory.callback = .unset MemoryHost.callbackName →
      (∀ attempt ∈ log, attempt.host ≠ host) →
      HostRecord log host (.memory memory)
  | wired {memory : MemoryHost} {owner : SetId} :
      memory.connects = true →
      memory.callback = ⟨MemoryHost.callbackName, some owner⟩ →
      (∀ set, Connected log set host ↔ set = owner) →
      HostRecord log host (.memory memory)

/-- What a log tells of the sets and the hosts of a registry. -/
structure Recorded
    (registry : Registry)
    (log : List Attempt) :
    Prop where
  hosts : ∀ {host : HostId} {held : Host},
    registry.host? host = some held →
    HostRecord log host held
  overHost : ∀ {set : SetId} {found : EvaluatorSet},
    registry.find? set = some found →
    ∃ held, registry.host? found.host = some held
  untried : ∀ {set : SetId} {found : EvaluatorSet},
    registry.find? set = some found →
    ¬ Tried log set →
    found.setup.connections = []
  tried : ∀ {set : SetId} {found : EvaluatorSet},
    registry.find? set = some found →
    Tried log set →
    found.setup.connections = Connection.all.reverse
  given : ∀ attempt ∈ log,
    attempt.set.index < registry.sets.size ∧ attempt.host.index < registry.hosts.size
  sameHost : ∀ attempt ∈ log, ∀ {found : EvaluatorSet},
    registry.find? attempt.set = some found →
    found.host = attempt.host

/-- The ways in which an attempt can end, and the host after it. -/
inductive Ends
    (log : List Attempt)
    (set : SetId) :
    Host → Except WiringError Unit → Host → Prop where
  /-- The set was tried before. -/
  | again {host : Host} :
      Tried log set →
      Ends log set host (.error (.alreadyWired Connection.arithToWord.name)) host
  /-- The host calls back a set already. -/
  | refused {memory : MemoryHost} {owner : SetId} :
      ¬ Tried log set →
      memory.callback.target = some owner →
      Ends log set (.memory memory) (.error (.alreadyWired MemoryHost.callbackName))
        (.memory memory)
  | inert :
      ¬ Tried log set →
      Ends log set .inert (.ok ()) .inert
  | wired {memory : MemoryHost} :
      ¬ Tried log set →
      memory.callback = .unset MemoryHost.callbackName →
      Ends log set (.memory memory) (.ok ())
        (.memory { memory with callback := ⟨MemoryHost.callbackName, some set⟩ })

/-- The registry after an attempt: the set has all its connections, its host may have changed. -/
def afterAttempt
    (registry : Registry)
    (set : SetId)
    (host : HostId)
    (changed : Host) :
    Registry :=
  (registry.setHost host changed).modifySet set fun found =>
    { found with setup := { found.setup with connections := Connection.all.reverse } }

/-- The answer to an attempt is that of the set's assembly over its host. -/
theorem connect_eq
    {registry : Registry}
    {set : SetId}
    {found : EvaluatorSet}
    {held changed : Host}
    {answer : Except WiringError Unit}
    (alive : registry.find? set = some found)
    (known : registry.host? found.host = some held)
    (connects :
      Assembly.connect registry.find? set found.setup.connections held =
        (answer, Connection.all.reverse, changed)) :
    registry.connect set = some (answer, registry.afterAttempt set found.host changed) := by
  simp only [connect, alive, known, connects, Option.bind_eq_bind, Option.bind_some]
  rfl

section Attempts

variable {registry : Registry} {log : List Attempt} {set : SetId} {host : HostId}

theorem tried_append_iff
    {attempt : Attempt} :
    Tried (log ++ [attempt]) set ↔ Tried log set ∨ attempt.set = set := by
  simp only [Tried, List.mem_append, List.mem_singleton, or_and_right, exists_or,
    exists_eq_left]

theorem connected_append_iff
    {attempt : Attempt} :
    Connected (log ++ [attempt]) set host ↔
      Connected log set host ∨ attempt = ⟨set, host, .ok ()⟩ := by
  simp only [Connected, List.mem_append, List.mem_singleton, eq_comm]

/-- An attempt that fails connects no set. -/
theorem connected_append_error_iff
    {tried : SetId}
    {onHost : HostId}
    {error : WiringError} :
    Connected (log ++ [⟨tried, onHost, .error error⟩]) set host ↔ Connected log set host := by
  simp [connected_append_iff]

/-- A host in memory calls back the set that was connected over it. -/
theorem HostRecord.target_of_connected
    {memory : MemoryHost}
    (known : HostRecord log host (.memory memory))
    (connected : Connected log set host) :
    memory.callback.target = some set := by
  cases known with
  | unwired _ _ unused => exact absurd rfl (unused _ connected)
  | wired _ isSet owned => rw [isSet, (owned set).mp connected]

theorem find?_afterAttempt
    (changed : Host)
    (other : SetId) :
    (registry.afterAttempt set host changed).find? other =
      if other = set then
        (registry.find? set).map fun found =>
          { found with setup := { found.setup with connections := Connection.all.reverse } }
      else
        registry.find? other :=
  find?_modifySet _ set other _

theorem host?_afterAttempt
    {held : Host}
    (known : registry.host? host = some held)
    (changed : Host)
    (other : HostId) :
    (registry.afterAttempt set host changed).host? other =
      if other = host then some changed else registry.host? other :=
  host?_setHost registry known changed other

/-- An attempt over one host tells nothing new of another. -/
theorem HostRecord.elsewhere
    {held : Host}
    {attempt : Attempt}
    (known : HostRecord log host held)
    (apart : attempt.host ≠ host) :
    HostRecord (log ++ [attempt]) host held := by
  have onlyOlder : ∀ other ∈ log ++ [attempt], other.host = host → other ∈ log := by
    intro other member same
    rcases List.mem_append.mp member with isOlder | isNew
    · exact isOlder
    · rw [List.mem_singleton.mp isNew] at same
      exact absurd same apart
  cases known with
  | inert connected =>
      refine .inert fun other member same => ?_
      exact connected_append_iff.mpr (.inl (connected other (onlyOlder other member same) same))
  | unwired connects unset unused =>
      refine .unwired connects unset fun other member same => ?_
      exact unused other (onlyOlder other member same) same
  | wired connects isSet owned =>
      refine .wired connects isSet fun set => ?_
      rw [connected_append_iff, ← owned]
      refine or_iff_left fun isNew => apart ?_
      rw [isNew]

/-- A set that is tried again tells nothing new of its host. -/
theorem HostRecord.triedAgain
    {held : Host}
    {error : WiringError}
    (known : HostRecord log host held)
    (sameHost : ∀ attempt ∈ log, attempt.set = set → attempt.host = host)
    (isTried : Tried log set) :
    HostRecord (log ++ [⟨set, host, .error error⟩]) host held := by
  obtain ⟨earlier, member, same⟩ := isTried
  have overHost := sameHost earlier member same
  cases known with
  | inert connected =>
      refine .inert fun attempt isMember onHost => ?_
      rw [connected_append_error_iff]
      rcases List.mem_append.mp isMember with isOlder | isNew
      · exact connected attempt isOlder onHost
      · rw [List.mem_singleton.mp isNew, ← same]
        exact connected earlier member overHost
  | unwired _ _ unused => exact absurd overHost (unused earlier member)
  | wired connects isSet owned =>
      exact .wired connects isSet fun set => connected_append_error_iff.trans (owned set)

/-- What the log tells of the host of an attempt, given how the attempt ended. -/
theorem HostRecord.attempted
    {held changed : Host}
    {answer : Except WiringError Unit}
    (known : HostRecord log host held)
    (sameHost : ∀ attempt ∈ log, attempt.set = set → attempt.host = host)
    (ends : Ends log set held answer changed) :
    HostRecord (log ++ [⟨set, host, answer⟩]) host changed := by
  cases ends with
  | again isTried => exact known.triedAgain sameHost isTried
  | refused _ target =>
      cases known with
      | unwired _ unset _ =>
          rw [unset] at target
          cases target
      | wired connects isSet owned =>
          exact .wired connects isSet fun set => connected_append_error_iff.trans (owned set)
  | inert _ =>
      cases known with
      | inert connected =>
          refine .inert fun attempt isMember onHost => ?_
          rw [connected_append_iff]
          rcases List.mem_append.mp isMember with isOlder | isNew
          · exact .inl (connected attempt isOlder onHost)
          · rw [List.mem_singleton.mp isNew]
            exact .inr rfl
  | wired _ unset =>
      cases known with
      | unwired connects _ unused =>
          refine .wired connects rfl fun other => ?_
          rw [connected_append_iff]
          constructor
          · rintro (isOlder | isNew)
            · exact absurd rfl (unused _ isOlder)
            · exact (congrArg Attempt.set isNew).symm
          · rintro rfl
            exact .inr rfl
      | wired _ isSet _ =>
          rw [unset] at isSet
          cases isSet

end Attempts

/-- A set that is alive after a drop was alive before it. -/
theorem alive_before_drop
    {registry : Registry}
    {dropped set : SetId}
    {found : EvaluatorSet}
    (alive : (registry.drop dropped).find? set = some found) :
    registry.find? set = some found := by
  rw [find?_drop] at alive
  split at alive
  · cases alive
  · exact alive

/-- A set that is alive after an attempt was alive before it, over the same host. -/
theorem alive_before_attempt
    {registry : Registry}
    {tried set : SetId}
    {host : HostId}
    {changed : Host}
    {found : EvaluatorSet}
    (alive : (registry.afterAttempt tried host changed).find? set = some found) :
    ∃ older, registry.find? set = some older ∧ found.host = older.host := by
  rw [find?_afterAttempt] at alive
  split at alive
  next same =>
    obtain ⟨older, aliveBefore, rfl⟩ := Option.map_eq_some_iff.mp alive
    exact ⟨older, same ▸ aliveBefore, rfl⟩
  next => exact ⟨found, alive, rfl⟩

namespace Recorded

variable {registry : Registry} {log : List Attempt} {set : SetId} {found : EvaluatorSet}

theorem empty :
    Recorded .empty [] where
  hosts known := by simp [host?, Registry.empty] at known
  overHost alive := by simp [find?, Registry.empty] at alive
  untried alive := by simp [find?, Registry.empty] at alive
  tried alive := by simp [find?, Registry.empty] at alive
  given attempt member := nomatch member
  sameHost attempt member := nomatch member

/-- An attempt ends in one of the ways listed, whatever happened before. -/
theorem connect
    (recorded : registry.Recorded log)
    (alive : registry.find? set = some found) :
    ∃ held changed answer,
      registry.host? found.host = some held ∧
        Ends log set held answer changed ∧
          registry.connect set = some (answer, registry.afterAttempt set found.host changed) := by
  obtain ⟨held, known⟩ := recorded.overHost alive
  by_cases isTried : Tried log set
  · refine ⟨held, held, _, known, .again isTried, connect_eq alive known ?_⟩
    rw [recorded.tried alive isTried]
    exact Assembly.connect_all_again
  · have fresh := recorded.untried alive isTried
    cases recorded.hosts known with
    | inert _ =>
        refine ⟨_, _, _, known, .inert isTried, connect_eq alive known ?_⟩
        rw [fresh]
        have wires : Host.inert.wire set = .ok .inert := rfl
        exact Assembly.connect_wired wires
    | @unwired memory connects unset _ =>
        refine ⟨_, _, _, known, .wired isTried unset, connect_eq alive known ?_⟩
        rw [fresh]
        have wires :
            (Host.memory memory).wire set =
              .ok (.memory
                { memory with callback := ⟨MemoryHost.callbackName, some set⟩ }) := by
          simp only [Host.wire, MemoryHost.wire, connects, unset]
          rfl
        rw [Assembly.connect_wired wires]
        simp only [Host.check, MemoryHost.check, connects, Link.check, Link.follow, alive]
        rfl
    | @wired memory owner connects isSet _ =>
        have target : memory.callback.target = some owner := congrArg Link.target isSet
        refine ⟨_, _, _, known, .refused isTried target, connect_eq alive known ?_⟩
        rw [fresh]
        refine Assembly.connect_refused ?_
        simp only [Host.wire, MemoryHost.wire, connects, isSet]
        rfl

section Steps

variable (recorded : registry.Recorded log)

include recorded

theorem addHost
    {host : Host}
    (isNew : host.IsNew) :
    Recorded (registry.addHost host).2 log where
  hosts {place held} known := by
    rw [host?_addHost] at known
    split at known
    next isLast =>
      obtain rfl : host = held := Option.some.inj known
      have unused : ∀ attempt ∈ log, attempt.host ≠ place := by
        intro attempt member same
        have bounded := (recorded.given attempt member).2
        rw [same, isLast] at bounded
        exact Nat.lt_irrefl _ bounded
      cases isNew with
      | inert => exact .inert fun attempt member same => absurd same (unused attempt member)
      | memory unset connects => exact .unwired connects unset unused
    next => exact recorded.hosts known
  overHost {set found} alive := by
    obtain ⟨held, known⟩ := recorded.overHost alive
    have isOlder : found.host.index ≠ registry.hosts.size :=
      Nat.ne_of_lt (Array.getElem?_eq_some_iff.mp known).1
    refine ⟨held, ?_⟩
    rw [host?_addHost, if_neg isOlder]
    exact known
  untried alive := recorded.untried alive
  tried alive := recorded.tried alive
  given attempt member := by
    obtain ⟨setGiven, hostGiven⟩ := recorded.given attempt member
    refine ⟨setGiven, ?_⟩
    simp only [Registry.addHost, Array.size_push]
    omega
  sameHost attempt member := recorded.sameHost attempt member

/-- The handle that is given out next was never tried. -/
theorem new_untried :
    ¬ Tried log ⟨registry.sets.size⟩ := by
  rintro ⟨attempt, member, same⟩
  have given := (recorded.given attempt member).1
  rw [same] at given
  exact Nat.lt_irrefl _ given

theorem addSet
    {host : HostId}
    {held : Host}
    (known : registry.host? host = some held)
    (ps4 : String) :
    Recorded (registry.addSet host ps4).2 log where
  hosts := recorded.hosts
  overHost {set found} alive := by
    rw [find?_addSet] at alive
    split at alive
    · cases alive
      exact ⟨held, known⟩
    · exact recorded.overHost alive
  untried {set found} alive isUntried := by
    rw [find?_addSet] at alive
    split at alive
    · cases alive
      rfl
    · exact recorded.untried alive isUntried
  tried {set found} alive isTried := by
    rw [find?_addSet] at alive
    split at alive
    next isLast =>
      have isNew : set = ⟨registry.sets.size⟩ := congrArg SetId.mk isLast
      rw [isNew] at isTried
      exact absurd isTried recorded.new_untried
    next => exact recorded.tried alive isTried
  given attempt member := by
    obtain ⟨setGiven, hostGiven⟩ := recorded.given attempt member
    refine ⟨?_, hostGiven⟩
    simp only [Registry.addSet, Array.size_push]
    omega
  sameHost attempt member {found} alive := by
    have isOlder : attempt.set.index ≠ registry.sets.size :=
      Nat.ne_of_lt (recorded.given attempt member).1
    rw [find?_addSet, if_neg isOlder] at alive
    exact recorded.sameHost attempt member alive

theorem drop
    (set : SetId) :
    Recorded (registry.drop set) log where
  hosts := recorded.hosts
  overHost alive := recorded.overHost (alive_before_drop alive)
  untried alive := recorded.untried (alive_before_drop alive)
  tried alive := recorded.tried (alive_before_drop alive)
  given attempt member := by
    obtain ⟨setGiven, hostGiven⟩ := recorded.given attempt member
    refine ⟨?_, hostGiven⟩
    simp only [Registry.drop, Array.size_setIfInBounds]
    exact setGiven
  sameHost attempt member _ alive :=
    recorded.sameHost attempt member (alive_before_drop alive)

theorem attempted
    {found : EvaluatorSet}
    {held changed : Host}
    {answer : Except WiringError Unit}
    (alive : registry.find? set = some found)
    (known : registry.host? found.host = some held)
    (ends : Ends log set held answer changed) :
    Recorded (registry.afterAttempt set found.host changed)
      (log ++ [⟨set, found.host, answer⟩]) where
  hosts {host other} isKnown := by
    rw [host?_afterAttempt known] at isKnown
    split at isKnown
    next same =>
      cases isKnown
      subst same
      refine (recorded.hosts known).attempted (fun attempt member same => ?_) ends
      subst same
      exact (recorded.sameHost attempt member alive).symm
    next apart =>
      exact (recorded.hosts isKnown).elsewhere (Ne.symm apart)
  overHost {other another} isAlive := by
    obtain ⟨older, aliveBefore, sameHost⟩ := alive_before_attempt isAlive
    obtain ⟨heldBefore, isKnown⟩ := recorded.overHost aliveBefore
    rw [sameHost, host?_afterAttempt known]
    split
    · exact ⟨changed, rfl⟩
    · exact ⟨heldBefore, isKnown⟩
  untried {other another} isAlive isUntried := by
    rw [tried_append_iff, not_or] at isUntried
    rw [find?_afterAttempt, if_neg (Ne.symm isUntried.2)] at isAlive
    exact recorded.untried isAlive isUntried.1
  tried {other another} isAlive isTried := by
    rw [find?_afterAttempt] at isAlive
    split at isAlive
    · obtain ⟨older, _, rfl⟩ := Option.map_eq_some_iff.mp isAlive
      rfl
    next apart =>
      refine recorded.tried isAlive ?_
      exact (tried_append_iff.mp isTried).resolve_right (Ne.symm apart)
  given attempt member := by
    have sameSets :
        (registry.afterAttempt set found.host changed).sets.size = registry.sets.size :=
      Array.size_modify
    have sameHosts :
        (registry.afterAttempt set found.host changed).hosts.size = registry.hosts.size :=
      Array.size_setIfInBounds
    rw [sameSets, sameHosts]
    rcases List.mem_append.mp member with isOlder | isNew
    · exact recorded.given attempt isOlder
    · rw [List.mem_singleton.mp isNew]
      exact ⟨index_lt_of_find? alive, (Array.getElem?_eq_some_iff.mp known).1⟩
  sameHost attempt member another isAlive := by
    obtain ⟨older, aliveBefore, sameHost⟩ := alive_before_attempt isAlive
    rw [sameHost]
    rcases List.mem_append.mp member with isOlder | isNew
    · exact recorded.sameHost attempt isOlder aliveBefore
    · rw [List.mem_singleton.mp isNew] at aliveBefore ⊢
      rw [alive] at aliveBefore
      cases aliveBefore
      rfl

/-- Every operation keeps the tables in step with the log. -/
theorem step
    {attempts : List Attempt}
    {after : Registry}
    (step : Step registry attempts after) :
    after.Recorded (log ++ attempts) := by
  cases step with
  | addHost isNew =>
      rw [List.append_nil]
      exact recorded.addHost isNew
  | addSet known =>
      rw [List.append_nil]
      exact recorded.addSet known _
  | @connect _ set found answer alive connects =>
      obtain ⟨held, changed, given, known, ends, connected⟩ := recorded.connect alive
      rw [connected] at connects
      cases connects
      exact recorded.attempted alive known ends
  | drop set =>
      rw [List.append_nil]
      exact recorded.drop set

/-- So a log that is in step with a registry stays in step with it. -/
theorem history
    {attempts : List Attempt}
    {after : Registry}
    (history : History registry attempts after) :
    after.Recorded (log ++ attempts) := by
  induction history with
  | start =>
      rw [List.append_nil]
      exact recorded
  | step _ step inductionHypothesis =>
      rw [← List.append_assoc]
      exact inductionHypothesis.step step

end Steps

end Recorded

/-- The log of a registry's whole history is in step with it. -/
theorem History.recorded
    {log : List Attempt}
    {registry : Registry}
    (history : History .empty log registry) :
    registry.Recorded log := by
  have inStep := Recorded.empty.history history
  rwa [List.nil_append] at inStep

end Registry

end ShellCore
