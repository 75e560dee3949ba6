import ShellCore.Proofs.Wiring.Assembly
import ShellCore.Wiring.Registry

namespace ShellCore

/-!
# Histories of a registry

A registry is what additions, attempts to connect and drops have made of the empty
one. A history keeps a log of the attempts, so that it can be asked afterwards
which sets were ever tried and which of them a host was wired to. Checking answers
without a change, so it leaves no trace in a history.
-/

/-- A host that was not wired: an inert one, or one in memory that lets itself be wired. -/
inductive Host.IsNew : Host → Prop where
  | inert : IsNew .inert
  | memory {host : MemoryHost} :
      host.callback = .unset MemoryHost.callbackName →
      host.connects = true →
      IsNew (.memory host)

namespace Registry

/-- An attempt to connect a set over its host, and what it was answered. -/
structure Attempt where
  set : SetId
  host : HostId
  answer : Except WiringError Unit

/-- The set was tried: an attempt to connect it was made, be it with success or not. -/
def Tried
    (log : List Attempt)
    (set : SetId) :
    Prop :=
  ∃ attempt ∈ log, attempt.set = set

/-- An attempt to connect the set over the host was successful. -/
def Connected
    (log : List Attempt)
    (set : SetId)
    (host : HostId) :
    Prop :=
  ⟨set, host, .ok ()⟩ ∈ log

/-- One operation on a registry, and the attempts to connect that it is. -/
inductive Step : Registry → List Attempt → Registry → Prop where
  | addHost {registry : Registry} {host : Host} :
      host.IsNew →
      Step registry [] (registry.addHost host).2
  | addSet {registry : Registry} {host : HostId} {held : Host} {ps4 : String} :
      registry.host? host = some held →
      Step registry [] (registry.addSet host ps4).2
  | connect {registry after : Registry} {set : SetId} {found : EvaluatorSet}
      {answer : Except WiringError Unit} :
      registry.find? set = some found →
      registry.connect set = some (answer, after) →
      Step registry [⟨set, found.host, answer⟩] after
  | drop {registry : Registry} (set : SetId) :
      Step registry [] (registry.drop set)

/-- What operations one after the other make of a registry, and the log of their attempts. -/
inductive History (before : Registry) : List Attempt → Registry → Prop where
  | start : History before [] before
  | step {log attempts : List Attempt} {between after : Registry} :
      History before log between →
      Step between attempts after →
      History before (log ++ attempts) after

namespace History

theorem single
    {before after : Registry}
    {attempts : List Attempt}
    (step : Step before attempts after) :
    History before attempts after :=
  .step .start step

end History

/-! ## What the operations do to the tables -/

section Tables

variable (registry : Registry)

theorem host?_addHost
    (held : Host)
    (host : HostId) :
    (registry.addHost held).2.host? host =
      if host.index = registry.hosts.size then some held else registry.host? host :=
  Array.getElem?_push

theorem addSet_handle
    (host : HostId)
    (ps4 : String) :
    (registry.addSet host ps4).1 = ⟨registry.sets.size⟩ :=
  rfl

theorem find?_addSet
    (host : HostId)
    (ps4 : String)
    (set : SetId) :
    (registry.addSet host ps4).2.find? set =
      if set.index = registry.sets.size then
        some ⟨⟨[], ps4, .empty⟩, .initial, host⟩
      else
        registry.find? set := by
  simp only [find?, addSet, Array.getElem?_push]
  split <;> rfl

theorem find?_drop
    (set other : SetId) :
    (registry.drop set).find? other = if other = set then none else registry.find? other := by
  simp only [find?, drop, Array.getElem?_setIfInBounds]
  by_cases same : other = set
  · subst same
    rw [if_pos rfl, if_pos rfl]
    split <;> rfl
  · have apart : set.index ≠ other.index := fun index => same (congrArg SetId.mk index.symm)
    rw [if_neg apart, if_neg same]

theorem find?_modifySet
    (set other : SetId)
    (change : EvaluatorSet → EvaluatorSet) :
    (registry.modifySet set change).find? other =
      if other = set then (registry.find? set).map change else registry.find? other := by
  simp only [find?, modifySet, Array.getElem?_modify]
  by_cases same : other = set
  · subst same
    rw [if_pos rfl, if_pos rfl]
    cases registry.sets[other.index]? <;> rfl
  · have apart : set.index ≠ other.index := fun index => same (congrArg SetId.mk index.symm)
    rw [if_neg apart, if_neg same]

theorem host?_setHost
    {host : HostId}
    {held : Host}
    (known : registry.host? host = some held)
    (changed : Host)
    (other : HostId) :
    (registry.setHost host changed).host? other =
      if other = host then some changed else registry.host? other := by
  obtain ⟨inBounds, _⟩ := Array.getElem?_eq_some_iff.mp known
  simp only [host?, setHost, Array.getElem?_setIfInBounds, inBounds, if_true]
  by_cases same : other = host
  · rw [if_pos same, if_pos (congrArg HostId.index same.symm)]
  · have apart : host.index ≠ other.index := fun index => same (congrArg HostId.mk index.symm)
    rw [if_neg apart, if_neg same]

end Tables

/-- The handle of a set that is alive was given out. -/
theorem index_lt_of_find?
    {registry : Registry}
    {set : SetId}
    {found : EvaluatorSet}
    (alive : registry.find? set = some found) :
    set.index < registry.sets.size := by
  obtain ⟨_, stands, _⟩ := Option.bind_eq_some_iff.mp alive
  exact (Array.getElem?_eq_some_iff.mp stands).1

end Registry

end ShellCore
