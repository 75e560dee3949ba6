import ShellCore.Wiring.Link

namespace ShellCore

/-!
# The connections of an evaluator set

The components of a set call each other. The set is built first and connected
after, link by link in a fixed order. A connection leads to a component of the
same set or to the host that the set owns, so in a living set it never dangles:
it is either made or missing.
-/

/-- The handle of an evaluator set. -/
structure SetId where
  index : Nat
  deriving Repr, DecidableEq

/-- A component of an evaluator set; the host is shared, the others are not. -/
inductive Component where
  | arith
  | test
  | word
  | expr
  | command
  | prompt
  | tracer
  | host
  deriving Repr, DecidableEq

/-- A connection inside a set, named by what calls and what is called. -/
inductive Connection where
  | arithToWord
  | testToWord
  | wordToArith
  | wordToExpr
  | wordToPrompt
  | wordToHost
  | exprToHost
  | exprToCommand
  | exprToWord
  | exprToArith
  | commandToHost
  | commandToTest
  | commandToWord
  | commandToExpr
  | commandToTracer
  | promptToWord
  | promptToExpr
  | tracerToWord
  deriving Repr, DecidableEq

namespace Connection

/-- The name of the link that makes the connection. -/
def name :
    Connection →
    LinkName
  | .arithToWord => ⟨"ArithEvaluator", "word_ev"⟩
  | .testToWord => ⟨"BoolEvaluator", "word_ev"⟩
  | .wordToArith => ⟨"WordEvaluator", "arith_ev"⟩
  | .wordToExpr => ⟨"WordEvaluator", "expr_ev"⟩
  | .wordToPrompt => ⟨"WordEvaluator", "prompt_ev"⟩
  | .wordToHost => ⟨"WordEvaluator", "shell_ex"⟩
  | .exprToHost => ⟨"ExprEvaluator", "shell_ex"⟩
  | .exprToCommand => ⟨"ExprEvaluator", "cmd_ev"⟩
  | .exprToWord => ⟨"ExprEvaluator", "word_ev"⟩
  | .exprToArith => ⟨"ExprEvaluator", "arith_ev"⟩
  | .commandToHost => ⟨"CommandEvaluator", "shell_ex"⟩
  | .commandToTest => ⟨"CommandEvaluator", "bool_ev"⟩
  | .commandToWord => ⟨"CommandEvaluator", "word_ev"⟩
  | .commandToExpr => ⟨"CommandEvaluator", "expr_ev"⟩
  | .commandToTracer => ⟨"CommandEvaluator", "tracer"⟩
  | .promptToWord => ⟨"PromptEvaluator", "word_ev"⟩
  | .promptToExpr => ⟨"PromptEvaluator", "expr_ev"⟩
  | .tracerToWord => ⟨"Tracer", "word_ev"⟩

/-- The component that calls through the connection. -/
def component :
    Connection →
    Component
  | .arithToWord => .arith
  | .testToWord => .test
  | .wordToArith | .wordToExpr | .wordToPrompt | .wordToHost => .word
  | .exprToHost | .exprToCommand | .exprToWord | .exprToArith => .expr
  | .commandToHost | .commandToTest | .commandToWord | .commandToExpr | .commandToTracer =>
      .command
  | .promptToWord | .promptToExpr => .prompt
  | .tracerToWord => .tracer

/-- Every connection, in the order in which they are made and checked. -/
def all : List Connection :=
  [.arithToWord, .testToWord, .wordToArith, .wordToExpr, .wordToPrompt, .wordToHost,
    .exprToHost, .exprToCommand, .exprToWord, .exprToArith, .commandToHost, .commandToTest,
    .commandToWord, .commandToExpr, .commandToTracer, .promptToWord, .promptToExpr,
    .tracerToWord]

/-- The connections of a component, in the order in which they are checked. -/
def ofComponent
    (component : Component) :
    List Connection :=
  all.filter fun connection => connection.component = component

theorem mem_all
    (connection : Connection) :
    connection ∈ all := by
  cases connection <;> decide

/-- Make the listed connections in order, up to the first that is already made. -/
def make
    (made : List Connection) :
    List Connection →
    Except WiringError Unit × List Connection
  | [] => (.ok (), made)
  | connection :: rest =>
      if connection ∈ made then
        (.error (.alreadyWired connection.name), made)
      else
        make (connection :: made) rest

/-- Check that the listed connections are made; the first that is not is reported. -/
def check
    (made : List Connection) :
    List Connection →
    Except WiringError Unit
  | [] => .ok ()
  | connection :: rest =>
      if connection ∈ made then
        check made rest
      else
        .error (.missing connection.name)

end Connection

end ShellCore
