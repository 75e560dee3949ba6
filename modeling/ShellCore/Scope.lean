import ShellCore.Status
import ShellCore.Syntax
import ShellCore.Table
import ShellCore.Text.Numeral

namespace ShellCore

/-!
# Scopes

A scope holds a stack of frames of variables over a root frame, the functions,
the positional parameters, the statuses of what ran last and the trace option.
Names resolve from the innermost frame outward. There is always a root frame.
-/

/-- The variables of one frame. -/
abbrev Frame := Table String Value

/-- Variables, functions, parameters and statuses. -/
structure Scope where
  /-- The frames above the root frame, innermost first. -/
  inner : List Frame
  root : Frame
  functions : Table String Function
  lastStatus : Int32
  pipeStatus : List Int32
  processSubStatus : StatusArray
  /-- The name of the script or function that runs. -/
  scriptName : String
  positional : List String
  /-- Whether commands are traced. -/
  xtrace : Bool

namespace Scope

/-- The scope of a shell that has not run anything. -/
def initial : Scope where
  inner := []
  root := .empty
  functions := .empty
  lastStatus := 0
  pipeStatus := []
  processSubStatus := .empty
  scriptName := ""
  positional := []
  xtrace := false

instance : Inhabited Scope where
  default := initial

/-- The frames, innermost first. -/
def frames
    (scope : Scope) :
    List Frame :=
  scope.inner ++ [scope.root]

/-- The number of frames. -/
def depth
    (scope : Scope) :
    Nat :=
  scope.inner.length + 1

/-- Enter a frame without variables. -/
def pushFrame
    (scope : Scope) :
    Scope :=
  { scope with inner := .empty :: scope.inner }

/-- The text of the fault of leaving the root frame. -/
def rootFrameFault : String :=
  "cannot pop the root scope frame"

/-- Leave the innermost frame; the root frame cannot be left. -/
def popFrame?
    (scope : Scope) :
    Option Scope :=
  match scope.inner with
  | [] => none
  | _ :: outer => some { scope with inner := outer }

/-- Bind a variable in the innermost frame. -/
def set
    (scope : Scope)
    (name : String)
    (value : Value) :
    Scope :=
  match scope.inner with
  | [] => { scope with root := scope.root.insert name value }
  | frame :: outer => { scope with inner := frame.insert name value :: outer }

/-- Bind a name again in the first of some frames that binds it, if one does. -/
def rebind?
    (name : String)
    (value : Value) :
    List Frame →
    Option (List Frame)
  | [] => none
  | frame :: outer =>
      if frame.contains name then
        some (frame.insert name value :: outer)
      else
        (rebind? name value outer).map (frame :: ·)

/-- Bind a variable in the innermost frame that binds it, else in the root frame. -/
def setGlobal
    (scope : Scope)
    (name : String)
    (value : Value) :
    Scope :=
  match rebind? name value scope.inner with
  | some inner => { scope with inner := inner }
  | none => { scope with root := scope.root.insert name value }

/-- The value of a variable in the innermost frame that binds it. -/
def get?
    (scope : Scope)
    (name : String) :
    Option Value :=
  scope.frames.findSome? fun frame => frame.get? name

/-- Whether a frame binds a variable. -/
def contains
    (scope : Scope)
    (name : String) :
    Bool :=
  (scope.get? name).isSome

/-- Remove a name from the first of some frames that binds it, if one does. -/
def unbind?
    (name : String) :
    List Frame →
    Option (Value × List Frame)
  | [] => none
  | frame :: outer =>
      match frame.get? name with
      | some value => some (value, frame.erase name :: outer)
      | none => (unbind? name outer).map fun (value, rest) => (value, frame :: rest)

/-- Remove the innermost binding of a variable, and yield its value. -/
def remove
    (scope : Scope)
    (name : String) :
    Option Value × Scope :=
  match unbind? name scope.inner with
  | some (value, inner) => (some value, { scope with inner := inner })
  | none => (scope.root.get? name, { scope with root := scope.root.erase name })

/-- Define a function, replacing one of its name. -/
def define
    (scope : Scope)
    (function : Function) :
    Scope :=
  { scope with functions := scope.functions.insert function.name function }

/-- The function of a name. -/
def function?
    (scope : Scope)
    (name : String) :
    Option Function :=
  scope.functions.get? name

/-- Set the script name and the positional parameters. -/
def setPositional
    (scope : Scope)
    (scriptName : String)
    (positional : List String) :
    Scope :=
  { scope with
    scriptName := scriptName
    positional := positional }

/-- A positional parameter; the parameter zero is the script name, if there is one. -/
def positional?
    (scope : Scope) :
    Nat →
    Option String
  | 0 => if scope.scriptName.isEmpty then none else some scope.scriptName
  | place + 1 => scope.positional[place]?

/-- The list of the values of statuses. -/
def statusList
    (codes : List Int32) :
    Value :=
  .list (codes.map fun code => .int code.toInt64)

/-- The value of a name in words: a special parameter, a positional one or a variable. -/
def lookup?
    (scope : Scope)
    (name : String) :
    Option Value :=
  if name = "?" then some (.int scope.lastStatus.toInt64)
  else if name = "#" then some (.int (Int64.ofNat scope.positional.length))
  else if name = "@" then some (.str (" ".intercalate scope.positional))
  else if name = "PIPESTATUS" then some (statusList scope.pipeStatus)
  else if name = "_process_sub_status" then some (statusList scope.processSubStatus.codes)
  else
    match Text.readPosition? name with
    | some place => (scope.positional? place).map .str
    | none => scope.get? name

/-- The text of a name in words; nothing for a name without value. -/
def expand
    (scope : Scope)
    (name : String) :
    String :=
  match scope.lookup? name with
  | some value => value.display
  | none => ""

/-- Bind parameters to arguments in the innermost frame, as far as both go. -/
def bindParams
    (scope : Scope) :
    List String →
    List Value →
    Scope
  | param :: params, arg :: args => bindParams (scope.set param arg) params args
  | _, _ => scope

/-- Enter the frame of a function call. -/
def enterCall
    (scope : Scope)
    (function : Function)
    (args : List Value) :
    Scope :=
  (scope.pushFrame.setPositional function.name (args.map Value.display)).bindParams
    function.params args

/-- Leave the frame of a function call, back to the parameters of its caller. -/
def leaveCall
    (scope caller : Scope) :
    Scope :=
  (scope.popFrame?.getD scope).setPositional caller.scriptName caller.positional

end Scope

end ShellCore
