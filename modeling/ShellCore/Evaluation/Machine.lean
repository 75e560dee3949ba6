import ShellCore.Host.Basic
import ShellCore.Scope

namespace ShellCore

/-!
# The state of an evaluation

A set of evaluators has a setup, which stays as it is while something runs, and
a session, which evaluation changes. The host may call back another set than the
one that runs; that set is the peer, and its session is kept next to the other.

An evaluation ends with an answer or an error and leaves a machine behind either
way; it yields nothing if it runs out of fuel.
-/

/-- A function that expressions can call. -/
abbrev Callable := List Value → Except RuntimeError Value

/-- What an evaluator set is made of. -/
structure Setup where
  /-- The connections that have been made. -/
  connections : List Connection
  /-- The prompt template in front of traced lines. -/
  ps4 : String
  callables : Table String Callable

/-- What an evaluator set knows of its past. -/
structure Session where
  scope : Scope
  /-- The lines traced so far. -/
  trace : List String

namespace Session

/-- The session of a set that has not run anything. -/
def initial : Session where
  scope := .initial
  trace := []

instance : Inhabited Session where
  default := initial

end Session

/-- The set that the host of a running set calls back. -/
inductive Callback where
  /-- The host was never wired. -/
  | missing
  /-- The set was dropped. -/
  | dropped
  /-- The set that runs. -/
  | own
  /-- Another set. -/
  | peer (setup : Setup)

namespace Callback

/-- What the host of a running set calls back, where other sets are looked up. -/
def ofHost
    (find : SetId → Option Setup)
    (running : SetId)
    (host : Host) :
    Callback :=
  match host.callback? with
  | none => .missing
  | some set =>
      if set = running then
        .own
      else
        match find set with
        | none => .dropped
        | some setup => .peer setup

/-- Whether there is a set to call back and it is alive. -/
def isAlive :
    Callback →
    Bool
  | .missing => false
  | .dropped => false
  | .own => true
  | .peer _ => true

end Callback

/-- What stays fixed during an evaluation. -/
structure Env where
  setup : Setup
  callback : Callback

/-- What an evaluation changes. -/
structure Machine where
  scope : Scope
  trace : List String
  host : Host
  /-- The session of the peer that the host calls back, if there is one. -/
  peer : Session

namespace Machine

instance : Inhabited Machine where
  default := ⟨.initial, [], .inert, .initial⟩

/-- The session of the set that runs. -/
def session
    (machine : Machine) :
    Session where
  scope := machine.scope
  trace := machine.trace

/-- The machine with which a session goes on. -/
def ofSession
    (session : Session)
    (host : Host)
    (peer : Session) :
    Machine where
  scope := session.scope
  trace := session.trace
  host := host
  peer := peer

/-- Let the set that runs and its peer change places. -/
def swap
    (machine : Machine) :
    Machine :=
  ofSession machine.peer machine.host machine.session

@[simp] theorem swap_swap
    (machine : Machine) :
    machine.swap.swap = machine :=
  rfl

/-- Change the scope. -/
def mapScope
    (machine : Machine)
    (change : Scope → Scope) :
    Machine :=
  { machine with scope := change machine.scope }

end Machine

/-- A computation on a machine, which may run out of fuel. -/
abbrev Run (α : Type) := StateT Machine Option α

/-- An evaluation: a computation that ends with an answer or an error. -/
abbrev Eval (α : Type) := ExceptT RuntimeError (StateT Machine Option) α

namespace Run

/-- Act on the host; an inert host yields a fixed answer. -/
def onHost
    (inertAnswer : α)
    (action : MemoryHost → α × MemoryHost) :
    Run α :=
  fun machine =>
    let (answer, host) := machine.host.act inertAnswer action
    some (answer, { machine with host := host })

end Run

namespace Eval

/-- The computation that ran out of fuel. -/
def outOfFuel : Eval α :=
  ExceptT.mk fun _ => none

/-- An evaluation whose end is an answer of another computation. -/
def ofRun
    (computation : Run (Except RuntimeError α)) :
    Eval α :=
  ExceptT.mk computation

/-- Act on the host; an inert host yields a fixed answer. -/
def onHost
    (inertAnswer : α)
    (action : MemoryHost → Except RuntimeError α × MemoryHost) :
    Eval α :=
  ofRun (Run.onHost (.ok inertAnswer) action)

/-- The scope. -/
def scope : Eval Scope := do
  return (← get).scope

/-- Change the scope. -/
def mapScope
    (change : Scope → Scope) :
    Eval Unit :=
  modify fun machine => machine.mapScope change

/-- The answer of a pure computation. -/
def ofExcept
    (wrap : ε → RuntimeError) :
    Except ε α →
    Eval α
  | .ok answer => pure answer
  | .error error => throw (wrap error)

/-- Go on only if a connection has been made. -/
def require
    (env : Env)
    (connection : Connection) :
    Eval Unit :=
  if connection ∈ env.setup.connections then
    pure ()
  else
    throw (.wiring (.missing connection.name))

/-- Evaluate the items of a list in order, up to the first error. -/
def each
    (evaluate : α → Eval β) :
    List α →
    Eval (List β)
  | [] => pure []
  | item :: rest => do
      let answer ← evaluate item
      let answers ← each evaluate rest
      return answer :: answers

end Eval

end ShellCore
