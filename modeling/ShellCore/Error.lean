import ShellCore.Control
import ShellCore.Source.Arena
import ShellCore.Syntax
import ShellCore.Wiring.Link

namespace ShellCore

/-!
# Errors of evaluation

An error names its cause. Errors of the program that runs are reported and
survived; errors of the arena and of the wiring are faults of the shell itself
and stop it.
-/

/-- Why arithmetic has no result. -/
inductive ArithError where
  | divisionByZero (dividend : Int64) (op : ArithOp)
  /-- An operand that is neither a numeral nor a name. -/
  | invalidOperand (text : String)
  /-- A variable whose text is no numeral. -/
  | invalidVariable (name text : String)
  deriving Repr, DecidableEq

namespace ArithError

/-- The text of an error. -/
def message :
    ArithError →
    String
  | .divisionByZero dividend op =>
      "division by zero (" ++ toString dividend.toInt ++ " " ++ op.sign ++ " 0)"
  | .invalidOperand text => "invalid integer '" ++ text ++ "'"
  | .invalidVariable name text => name ++ ": invalid integer '" ++ text ++ "'"

end ArithError

/-- What was found in the place of something of another type. -/
inductive TypeError where
  /-- A text compared as an integer. -/
  | notInteger (text : String)
  /-- A typed argument of a keyword that takes a loop count. -/
  | typedLoopCount (keyword : ControlKeyword)
  /-- A typed function called as a command. -/
  | typedFunctionAsProc (name : String)
  /-- A procedure called in an expression. -/
  | procAsTypedFunction (name : String)
  /-- A prompt hook whose value is no text. -/
  | promptNotText (typeName : String)
  deriving Repr, DecidableEq

namespace TypeError

/-- What is needed. -/
def expected :
    TypeError →
    String
  | .notInteger _ => "integer"
  | .typedLoopCount _ => "a loop count"
  | .typedFunctionAsProc _ => "proc"
  | .procAsTypedFunction _ => "func"
  | .promptNotText _ => "Str"

/-- What was found. -/
def found :
    TypeError →
    String
  | .notInteger text => "'" ++ text ++ "'"
  | .typedLoopCount keyword => "a typed argument to '" ++ keyword.word ++ "'"
  | .typedFunctionAsProc name => "func '" ++ name ++ "'"
  | .procAsTypedFunction name => "proc '" ++ name ++ "'"
  | .promptNotText typeName => typeName

/-- The text of an error. -/
def message
    (error : TypeError) :
    String :=
  "expected " ++ error.expected ++ ", got " ++ error.found

end TypeError

/-- Why an evaluation failed. -/
inductive RuntimeError where
  /-- A signal reached a frame that cannot take it. -/
  | unmatchedControl (keyword : ControlKeyword) (token : SpanId)
  | numericArgRequired (keyword : ControlKeyword) (text : String) (token : SpanId)
  | badLoopLevel (keyword : ControlKeyword) (level : Int64) (token : SpanId)
  | typedReturnInProc (name : String) (token : SpanId)
  | undefinedFunction (name : String) (token : SpanId)
  | arithmetic (error : ArithError)
  | type (error : TypeError)
  | io (text : String)
  | arena (error : ArenaError)
  | wiring (error : WiringError)
  deriving Repr, DecidableEq

namespace RuntimeError

/-- The text of an error. -/
def message :
    RuntimeError →
    String
  | .unmatchedControl keyword _ =>
      "'" ++ keyword.word ++ "' cannot be used outside " ++ keyword.frameName
  | .numericArgRequired keyword text _ =>
      keyword.word ++ ": numeric argument required, got '" ++ text ++ "'"
  | .badLoopLevel keyword level _ =>
      keyword.word ++ ": loop count out of range: " ++ toString level.toInt
  | .typedReturnInProc name _ => "proc '" ++ name ++ "' cannot return a typed value"
  | .undefinedFunction name _ => "undefined function: " ++ name
  | .arithmetic error => "arithmetic error: " ++ error.message
  | .type error => "type error: " ++ error.message
  | .io text => "i/o error: " ++ text
  | .arena error => error.message
  | .wiring error => error.message

/-- Whether the error is a fault of the shell, which stops it. -/
def isFatal :
    RuntimeError →
    Bool
  | .arena _ => true
  | .wiring _ => true
  | _ => false

/-- The token that the error is about. -/
def token? :
    RuntimeError →
    Option SpanId
  | .unmatchedControl _ token => some token
  | .numericArgRequired _ _ token => some token
  | .badLoopLevel _ _ token => some token
  | .typedReturnInProc _ token => some token
  | .undefinedFunction _ token => some token
  | _ => none

end RuntimeError

end ShellCore
