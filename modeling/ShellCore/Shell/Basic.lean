import ShellCore.Evaluation.Answer
import ShellCore.Lexing.Line
import ShellCore.Shell.Config
import ShellCore.Wiring.Assembly

namespace ShellCore

/-!
# Shells

A shell owns an arena, a line lexer, an evaluator set and a host. It registers
the lines of its sources and executes programs statement by statement. Errors of
a program become diagnostics and the program goes on; faults of the shell itself
end the execution.
-/

/-- Why a shell cannot be built or go on. -/
inductive ShellError where
  /-- The evaluators could not be connected. -/
  | wiring (cause : WiringError)
  /-- A line of the root source could not be registered. -/
  | line (number : Nat) (cause : ArenaError)
  /-- A nested source could not be registered. -/
  | source (cause : ArenaError)
  /-- A statement met a fault of the shell. -/
  | statement (cause : RuntimeError)
  /-- A column counted from one does not fit a word of 32 bits. -/
  | columnOverflow
  deriving Repr

namespace ShellError

/-- The text of an error. -/
def message :
    ShellError →
    String
  | .wiring cause => "failed to wire evaluators: " ++ cause.message
  | .line number cause =>
      "failed to register line " ++ toString number ++ ": " ++ cause.message
  | .source cause => "failed to register source: " ++ cause.message
  | .statement cause => "internal error while executing statement: " ++ cause.message
  | .columnOverflow => "attempt to add with overflow"

end ShellError

/-- An error of a program, as a user is told of it. -/
structure Diagnostic where
  message : String
  /-- Source, line and column of the token, if it can be found. -/
  location : Option String
  token : Option SpanId
  deriving Repr, DecidableEq

namespace Diagnostic

/-- The text of a diagnostic. -/
def display
    (diagnostic : Diagnostic) :
    String :=
  match diagnostic.location with
  | some location => location ++ ": " ++ diagnostic.message
  | none => diagnostic.message

end Diagnostic

/-- What executing a program came to. -/
structure Outcome where
  /-- The status of the last statement. -/
  status : Int32
  diagnostics : List Diagnostic
  deriving Repr, DecidableEq

namespace Outcome

/-- The outcome of a program without statements. -/
def initial : Outcome where
  status := 0
  diagnostics := []

/-- The outcome after one more statement. -/
def extend
    (outcome : Outcome)
    (status : Int32)
    (diagnostic : Option Diagnostic) :
    Outcome where
  status := status
  diagnostics := outcome.diagnostics ++ diagnostic.toList

end Outcome

/-- A shell. -/
structure Shell where
  config : Config
  arena : Arena
  /-- The lexer of the root source. -/
  lexer : LineLexer
  /-- The number of lines of the root source that were offered so far. -/
  linesFed : Nat
  /-- The evaluator set, and what its host calls back. -/
  env : Env
  machine : Machine

/-- A computation of a shell, which may run out of fuel. -/
abbrev Execution (α : Type) := ExceptT ShellError (StateT Shell Option) α

namespace Shell

/-- The handle of a shell's own evaluator set. -/
def ownSet : SetId where
  index := 0

/-- The evaluator set of a shell, where it is alive. -/
def findOwn
    (set : SetId) :
    Option SetId :=
  if set = ownSet then some ownSet else none

/-- The environment of a shell's set once it was connected. -/
def connectedEnv
    (setup : Setup)
    (made : List Connection)
    (host : Host) :
    Env where
  setup := { setup with connections := made }
  callback := .ofHost (fun _ => none) ownSet host

/-- Build a shell over a host, with its root source open. -/
def new
    (config : Config)
    (host : Host) :
    Except ShellError Shell :=
  match Assembly.connect findOwn ownSet [] host with
  | (.error error, _) => .error (.wiring error)
  | (.ok (), made, host) =>
      .ok {
        config := config
        arena := (Arena.empty.openSource config.provenance).2
        lexer := .start
        linesFed := 0
        env := connectedEnv ⟨[], config.ps4, .empty⟩ made host
        machine :=
          .ofSession { Session.initial with
            scope := { Scope.initial with xtrace := config.xtrace } } host .initial }

/-- Connect the evaluators once more. -/
def reconnect
    (shell : Shell) :
    Except WiringError Unit × Shell :=
  let (result, made, host) :=
    Assembly.connect findOwn ownSet shell.env.setup.connections shell.machine.host
  (result, { shell with
    env := connectedEnv shell.env.setup made host
    machine := { shell.machine with host := host } })

/-- Check the evaluators and the host. -/
def check
    (shell : Shell) :
    Except WiringError Unit :=
  Assembly.check findOwn shell.env.setup.connections shell.machine.host

/-- Register a callable, replacing one of its name. -/
def register
    (shell : Shell)
    (name : String)
    (callable : Callable) :
    Shell :=
  let setup := shell.env.setup
  { shell with
    env := { shell.env with
      setup := { setup with callables := setup.callables.insert name callable } } }

/-- The last status. -/
def lastStatus
    (shell : Shell) :
    Int32 :=
  shell.machine.scope.lastStatus

/-- Register the next line of the root source. The line is counted even if that fails. -/
def feedLine
    (shell : Shell)
    (text : String) :
    Except ShellError LexedLine × Shell :=
  let number := shell.linesFed + 1
  let (result, lexer, arena) := shell.lexer.feedLine shell.arena text number
  (result.mapError (.line number), { shell with
    linesFed := number
    lexer := lexer
    arena := arena })

/-- Register a nested source, whose lines are numbered from one. -/
def lexSource
    (shell : Shell)
    (provenance : Provenance)
    (text : String) :
    Except ShellError (List LexedLine) × Shell :=
  let (result, _, arena) := LineLexer.start.lexSource shell.arena provenance text
  (result.mapError .source, { shell with arena := arena })

/-- The column of a token, counted from one. -/
def columnFromOne
    (token : Token) :
    Except ShellError Nat :=
  let column := token.column.toNat + 1
  if column < UInt32.size then .ok column else .error .columnOverflow

/-- Source, line and column of a token, if it can be found. -/
def locate
    (arena : Arena)
    (span : SpanId) :
    Except ShellError (Option String) :=
  match arena.token span with
  | .error _ => .ok none
  | .ok token =>
      match arena.lineNumber token.line, arena.lineSource token.line with
      | .ok number, .ok source =>
          (columnFromOne token).map fun column =>
            some (source.display ++ ":" ++ toString number.toNat ++ ":" ++ toString column)
      | _, _ => .ok none

/-- The status of a statement that failed. -/
def errorStatus : Int32 :=
  1

/-- The diagnostic of an error. -/
def diagnose
    (arena : Arena)
    (error : RuntimeError) :
    Except ShellError Diagnostic :=
  match error.token? with
  | none => .ok ⟨error.message, none, none⟩
  | some token => (locate arena token).map fun location => ⟨error.message, location, some token⟩

/-- Run an evaluation in the shell's set. -/
def evaluate
    (evaluation : Env → Eval α) :
    Execution (Except RuntimeError α) :=
  ExceptT.mk fun shell => do
    let (result, machine) ← (evaluation shell.env).run shell.machine
    some (.ok result, { shell with machine := machine })

/-- Status and diagnostic of a statement that ended so; a fault ends the execution. -/
def judge
    (arena : Arena) :
    Except RuntimeError ControlFlow →
    Except ShellError (Int32 × Option Diagnostic)
  | .ok (.normal status) => .ok (status, none)
  | .ok (.raise signal) =>
      (diagnose arena (.unmatchedControl signal.keyword signal.token)).map fun diagnostic =>
        (errorStatus, some diagnostic)
  | .error error =>
      if error.isFatal then
        .error (.statement error)
      else
        (diagnose arena error).map fun diagnostic => (errorStatus, some diagnostic)

/-- Leave the status of a statement behind, and clear the window if so configured. -/
def settle
    (status : Int32)
    (shell : Shell) :
    Shell :=
  { shell with
    machine := shell.machine.mapScope fun scope => { scope with lastStatus := status }
    arena := if shell.config.discardAfterStatement then shell.arena.discard else shell.arena }

/-- Execute one statement. -/
def executeStatement
    (fuel : Nat)
    (statement : Command) :
    Execution (Int32 × Option Diagnostic) := do
  let result ← evaluate fun env => Evaluator.command (evaluator fuel) env statement
  match judge (← get).arena result with
  | .error error => throw error
  | .ok (status, diagnostic) =>
      modify (settle status)
      return (status, diagnostic)

/-- Execute statements in order, on top of an outcome. -/
def executeFrom
    (fuel : Nat)
    (outcome : Outcome) :
    List Command →
    Execution Outcome
  | [] => pure outcome
  | statement :: rest => do
      let (status, diagnostic) ← executeStatement fuel statement
      executeFrom fuel (outcome.extend status diagnostic) rest

/-- Execute a program. -/
def execute
    (fuel : Nat)
    (program : List Command) :
    Execution Outcome :=
  executeFrom fuel .initial program

end Shell

end ShellCore
