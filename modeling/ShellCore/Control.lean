import ShellCore.Status
import ShellCore.Value

namespace ShellCore

/-!
# Control signals

Every command ends with a status or raises a signal. A signal travels outward
from frame to frame: a loop takes a signal whose level it brings to zero, a
function takes a return, and each other frame hands it on.
-/

/-- What a return carries. -/
inductive ReturnPayload where
  | status (code : UInt8)
  | value (value : Value)
  deriving Repr

/-- What a signal asks for; a level counts the loops that it concerns. -/
inductive SignalKind where
  | breakLoop (level : UInt32)
  | continueLoop (level : UInt32)
  | returnCall (payload : ReturnPayload)
  deriving Repr

/-- A transfer of control, and the keyword that raised it. -/
structure ControlSignal where
  kind : SignalKind
  token : SpanId
  deriving Repr

/-- How a command ends. -/
inductive ControlFlow where
  | normal (status : Int32)
  | raise (signal : ControlSignal)
  deriving Repr

/-- What a loop does with a signal. -/
inductive LoopAction where
  /-- Leave the loop. -/
  | leave
  /-- Go on with the next round of the loop. -/
  | resume
  /-- Hand the signal on to the next frame. -/
  | propagate
  deriving Repr, DecidableEq

namespace ControlSignal

/-- Leave some loops. -/
def breakLoops
    (levels : UInt32)
    (token : SpanId) :
    ControlSignal where
  kind := .breakLoop levels
  token := token

/-- Go on with a loop some levels out. -/
def continueLoops
    (levels : UInt32)
    (token : SpanId) :
    ControlSignal where
  kind := .continueLoop levels
  token := token

/-- Return the low eight bits of a status. -/
def returnStatus
    (status : Int64)
    (token : SpanId) :
    ControlSignal where
  kind := .returnCall (.status (truncateStatus status))
  token := token

/-- Return a value. -/
def returnValue
    (value : Value)
    (token : SpanId) :
    ControlSignal where
  kind := .returnCall (.value value)
  token := token

/-- The keyword that raises signals of this kind. -/
def keyword
    (signal : ControlSignal) :
    ControlKeyword :=
  match signal.kind with
  | .breakLoop _ => .breakLoop
  | .continueLoop _ => .continueLoop
  | .returnCall _ => .returnCall

/-- Whether the signal is a return. -/
def isReturn
    (signal : ControlSignal) :
    Bool :=
  match signal.kind with
  | .returnCall _ => true
  | _ => false

/-- The status that a return carries. -/
def statusCode?
    (signal : ControlSignal) :
    Option UInt8 :=
  match signal.kind with
  | .returnCall (.status code) => some code
  | _ => none

/-- One level less, but never below zero. -/
def lowerLevel
    (level : UInt32) :
    UInt32 :=
  if level = 0 then 0 else level - 1

/--
Pass a signal through a loop: its level falls by one, and at zero the loop is
the one it concerns. A return passes through unchanged.
-/
def throughLoop
    (signal : ControlSignal) :
    LoopAction × ControlSignal :=
  match signal.kind with
  | .breakLoop level =>
      let lowered := lowerLevel level
      (if lowered = 0 then .leave else .propagate, { signal with kind := .breakLoop lowered })
  | .continueLoop level =>
      let lowered := lowerLevel level
      (if lowered = 0 then .resume else .propagate, { signal with kind := .continueLoop lowered })
  | .returnCall _ => (.propagate, signal)

/-- The text of a signal in traces. -/
def display
    (signal : ControlSignal) :
    String :=
  match signal.kind with
  | .breakLoop level => "break " ++ toString level.toNat
  | .continueLoop level => "continue " ++ toString level.toNat
  | .returnCall (.status code) => "return " ++ toString code.toNat
  | .returnCall (.value value) => "return (" ++ value.display ++ ")"

end ControlSignal

namespace ControlFlow

/-- Success. -/
def ok : ControlFlow :=
  .normal 0

end ControlFlow

/-- What a loop does after one round of its body or its condition. -/
inductive LoopStep where
  | next (status : Int32)
  | exit (status : Int32)
  | raise (signal : ControlSignal)
  deriving Repr

namespace LoopStep

/-- The step of a loop after a command in it ended. -/
def ofFlow :
    ControlFlow →
    LoopStep
  | .normal status => .next status
  | .raise signal =>
      match signal.throughLoop with
      | (.leave, _) => .exit 0
      | (.resume, _) => .next 0
      | (.propagate, passed) => .raise passed

end LoopStep

end ShellCore
