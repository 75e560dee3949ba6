import ShellCore.Evaluation.Machine
import ShellCore.Wiring.Assembly

namespace ShellCore

/-!
# Sets that share hosts

Several evaluator sets may share a host. The host calls back the set that it was
wired to, which need not be the one that runs. Handles of sets are given out in
order and never again, so a host whose set was dropped finds no other in its
place. A set is alive as long as it stands in the registry: its place there is the
only thing that owns it, as all other references to it are weak, so references
are not counted.
-/

/-- The handle of a host. -/
structure HostId where
  index : Nat
  deriving Repr, DecidableEq

/-- An evaluator set that is alive. -/
structure EvaluatorSet where
  setup : Setup
  session : Session
  host : HostId

/-- The hosts, and the sets at the places that their handles name. -/
structure Registry where
  hosts : Array Host
  sets : Array (Option EvaluatorSet)

namespace Registry

/-- The registry without hosts and sets. -/
def empty : Registry where
  hosts := #[]
  sets := #[]

instance : Inhabited Registry where
  default := empty

/-- A set that was not dropped. -/
def find?
    (registry : Registry)
    (set : SetId) :
    Option EvaluatorSet :=
  (registry.sets[set.index]?).join

/-- A host. -/
def host?
    (registry : Registry)
    (host : HostId) :
    Option Host :=
  registry.hosts[host.index]?

/-- Add a host. -/
def addHost
    (registry : Registry)
    (host : Host) :
    HostId × Registry :=
  (⟨registry.hosts.size⟩, { registry with hosts := registry.hosts.push host })

/-- Put a host in the place of another. -/
def setHost
    (registry : Registry)
    (host : HostId)
    (changed : Host) :
    Registry :=
  { registry with hosts := registry.hosts.setIfInBounds host.index changed }

/-- Add a set over a host, without connections. -/
def addSet
    (registry : Registry)
    (host : HostId)
    (ps4 : String) :
    SetId × Registry :=
  (⟨registry.sets.size⟩, { registry with
    sets := registry.sets.push (some {
      setup := ⟨[], ps4, .empty⟩
      session := .initial
      host := host }) })

/-- Drop a set. Its place is its only owner, so from here on it is not found. -/
def drop
    (registry : Registry)
    (set : SetId) :
    Registry :=
  { registry with sets := registry.sets.setIfInBounds set.index none }

/-- Change a set, unless it was dropped. -/
def modifySet
    (registry : Registry)
    (set : SetId)
    (change : EvaluatorSet → EvaluatorSet) :
    Registry :=
  { registry with
    sets := registry.sets.modify set.index fun held => held.map change }

/-- Connect a set; nothing is connected without the set and its host. -/
def connect
    (registry : Registry)
    (set : SetId) :
    Option (Except WiringError Unit × Registry) := do
  let found ← registry.find? set
  let host ← registry.host? found.host
  let (result, made, host) :=
    Assembly.connect registry.find? set found.setup.connections host
  some (result, (registry.setHost found.host host).modifySet set fun found =>
    { found with setup := { found.setup with connections := made } })

/-- Check a set. -/
def check
    (registry : Registry)
    (set : SetId) :
    Option (Except WiringError Unit) := do
  let found ← registry.find? set
  let host ← registry.host? found.host
  some (Assembly.check registry.find? found.setup.connections host)

/-- Check one component of a set. -/
def checkComponent
    (registry : Registry)
    (set : SetId)
    (component : Component) :
    Option (Except WiringError Unit) := do
  let found ← registry.find? set
  let host ← registry.host? found.host
  some (Assembly.checkComponent registry.find? found.setup.connections host component)

/-- Add a set and connect it; one that cannot be connected is dropped. -/
def addConnectedSet
    (registry : Registry)
    (host : HostId)
    (ps4 : String) :
    Option (Except WiringError SetId × Registry) := do
  let (set, registry) := registry.addSet host ps4
  match ← registry.connect set with
  | (.ok (), registry) => some (.ok set, registry)
  | (.error error, registry) => some (.error error, registry.drop set)

/-- The set other than the running one that a host calls back, if it is alive. -/
def peer?
    (registry : Registry)
    (host : Host)
    (running : SetId) :
    Option (SetId × EvaluatorSet) := do
  let set ← host.callback?
  if set = running then
    none
  else
    some (set, ← registry.find? set)

/-- Run a computation in a set. -/
def runIn
    (registry : Registry)
    (set : SetId)
    (computation : Env → Run α) :
    Option (α × Registry) := do
  let found ← registry.find? set
  let host ← registry.host? found.host
  let peer := registry.peer? host set
  let env := ⟨found.setup, .ofHost (fun other => (registry.find? other).map (·.setup)) set host⟩
  let machine := .ofSession found.session host ((peer.map (·.2.session)).getD .initial)
  let (result, machine) ← computation env machine
  let registry := registry.setHost found.host machine.host
  let registry := registry.modifySet set fun found => { found with session := machine.session }
  match peer with
  | none => some (result, registry)
  | some (other, _) =>
      some (result, registry.modifySet other fun found => { found with session := machine.peer })

/-- Run a computation on a host, in the set that it calls back. -/
def runOn
    (registry : Registry)
    (host : HostId)
    (computation : Env → Run α) :
    Option (α × Registry) := do
  let held ← registry.host? host
  match held.callback?.filter fun set => (registry.find? set).isSome with
  | some set => registry.runIn set computation
  | none =>
      let callback := if held.callback?.isSome then .dropped else .missing
      let (result, machine) ←
        computation ⟨⟨[], "", .empty⟩, callback⟩ (.ofSession .initial held .initial)
      some (result, registry.setHost host machine.host)

end Registry

end ShellCore
