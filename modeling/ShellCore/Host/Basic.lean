import ShellCore.Host.Memory

namespace ShellCore

/-!
# Hosts

A host is what commands act on. An inert host does nothing: every command
succeeds there without output.
-/

/-- A host. -/
inductive Host where
  | inert
  | memory (host : MemoryHost)

namespace Host

instance : Inhabited Host where
  default := .inert

/-- The host in memory, if it is one. -/
def memory? :
    Host →
    Option MemoryHost
  | .inert => none
  | .memory host => some host

/-- Act on a host in memory; an inert host yields a fixed answer and does not change. -/
def act
    (host : Host)
    (inertAnswer : α)
    (action : MemoryHost → α × MemoryHost) :
    α × Host :=
  match host with
  | .inert => (inertAnswer, .inert)
  | .memory host =>
      let (answer, after) := action host
      (answer, .memory after)

/-- The set that a host calls back, if it was ever wired. -/
def callback?
    (host : Host) :
    Option SetId :=
  host.memory?.bind fun memory => memory.callback.target

/-- Wire a host to call back a set. -/
def wire :
    Host →
    SetId →
    Except WiringError Host
  | .inert, _ => .ok .inert
  | .memory host, set => (host.wire set).map .memory

/-- Check that a host finds the set that it calls back. -/
def check
    (find : SetId → Option α) :
    Host →
    Except WiringError Unit
  | .inert => .ok ()
  | .memory host => host.check find

end Host

end ShellCore
