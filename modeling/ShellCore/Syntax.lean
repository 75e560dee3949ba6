import ShellCore.Source.Basic
import ShellCore.Value

namespace ShellCore

/-!
# Command trees

Commands, words and expressions refer to each other: words hold substituted
commands, commands hold words, and expressions hold both. Where a node comes
from is a token handle; nothing else in a tree refers to the source.
-/

/-- The operators of arithmetic. -/
inductive ArithOp where
  | add
  | sub
  | mul
  | div
  | rem
  deriving Repr, DecidableEq

namespace ArithOp

/-- The sign that writes an operator. -/
def sign :
    ArithOp →
    String
  | .add => "+"
  | .sub => "-"
  | .mul => "*"
  | .div => "/"
  | .rem => "%"

end ArithOp

/-- The comparisons of tests: of texts, and of the integers that texts write. -/
inductive Comparison where
  | textEqual
  | textDiffers
  | intEqual
  | intDiffers
  | intLess
  | intAtMost
  | intGreater
  | intAtLeast
  deriving Repr, DecidableEq

/-- What a redirection does with its target. -/
inductive RedirectOp where
  | read
  | write
  | append
  /-- Bind the descriptor to what another descriptor is bound to. -/
  | duplicate
  deriving Repr, DecidableEq

mutual

/-- A command. -/
inductive Command where
  /-- A name and arguments; `span` is the token of the name. -/
  | simple (words : List Word) (span : SpanId)
  /-- Set a variable, in the innermost frame if it is local. -/
  | assign (name : String) (value : Word) (isLocal : Bool)
  /-- Commands one after the other. -/
  | sequence (commands : List Command)
  /-- The right command runs if the left one succeeds. -/
  | andThen (left right : Command)
  /-- The right command runs if the left one fails. -/
  | orElse (left right : Command)
  | pipeline (stages : List Command) (negated : Bool)
  | subshell (body : Command)
  | background (body : Command)
  | branch (arms : List BranchArm) (otherwise : Option (List Command))
  /-- Run the body once for each item; an item is not split. -/
  | forEach (name : String) (items : List Word) (body : List Command)
  | loop (statement : LoopStatement)
  | define (function : Function)
  /-- Raise a control signal; `token` is the keyword. -/
  | control (keyword : ControlKeyword) (argument : Option ControlArgument) (token : SpanId)
  | redirected (body : Command) (redirects : List Redirect)

/-- A condition, and what runs if it is the first that holds. -/
structure BranchArm where
  condition : Condition
  body : List Command

/-- Run the body as long as a condition holds, or as long as it does not. -/
structure LoopStatement where
  condition : Condition
  body : List Command
  untilHolds : Bool

/-- A function: a procedure that returns a status, or a typed one that returns a value. -/
structure Function where
  name : String
  params : List String
  body : List Command
  typed : Bool
  span : SpanId

/-- The argument of a control keyword. -/
inductive ControlArgument where
  /-- A loop level or an exit status. -/
  | status (word : Word)
  /-- A typed value, which only `return` in a typed function may carry. -/
  | value (expr : Expr)

/-- A test, or the success of a command. -/
inductive Condition where
  | test (test : BoolExpr)
  | run (command : Command)

/-- A word, which evaluates to one text. -/
inductive Word where
  | literal (text : String)
  | var (name : String)
  | arith (expr : ArithExpr)
  | commandSub (body : Command)
  /-- The path of a descriptor that holds the output of a command. -/
  | processSub (body : Command) (span : SpanId)
  /-- The expansion of a prompt template. -/
  | prompt (template : String)
  | expr (expr : Expr)
  | concat (parts : List Word)

/-- An arithmetic expression. -/
inductive ArithExpr where
  | number (value : Int64)
  | word (word : Word)
  | negate (operand : ArithExpr)
  | binary (op : ArithOp) (left right : ArithExpr)

/-- A test. -/
inductive BoolExpr where
  | compare (op : Comparison) (left right : Word)
  | isEmpty (word : Word)
  | isNonempty (word : Word)
  | not (test : BoolExpr)
  | and (left right : BoolExpr)
  | or (left right : BoolExpr)

/-- A typed expression. -/
inductive Expr where
  | literal (value : Value)
  | word (word : Word)
  | arith (expr : ArithExpr)
  | list (items : List Expr)
  | commandSub (body : Command)
  | call (name : String) (args : List Expr) (span : SpanId)

/-- A redirection of a descriptor; `span` is the operator. -/
structure Redirect where
  fd : Int32
  op : RedirectOp
  target : Word
  span : SpanId

end

namespace Command

instance : Inhabited Command where
  default := .sequence []

/-- The name of a command's kind. -/
def kindName :
    Command →
    String
  | .simple _ _ => "simple"
  | .assign _ _ _ => "assignment"
  | .sequence _ => "sequence"
  | .andThen _ _ => "and_chain"
  | .orElse _ _ => "or_chain"
  | .pipeline _ _ => "pipeline"
  | .subshell _ => "subshell"
  | .background _ => "background"
  | .branch _ _ => "if"
  | .forEach _ _ _ => "for"
  | .loop statement => if statement.untilHolds then "until" else "while"
  | .define _ => "func_def"
  | .control _ _ _ => "control"
  | .redirected _ _ => "redirected"

end Command

/-- A redirection whose target has been evaluated. -/
structure Redirection where
  fd : Int32
  op : RedirectOp
  target : String
  span : SpanId
  deriving Repr, DecidableEq

end ShellCore
