import ShellCore.Source.Basic

namespace ShellCore

/-!
# Exit statuses

Statuses are signed words of 32 bits; zero means success.
-/

/-- The statuses of a group of processes, with the token that started each. -/
structure StatusArray where
  codes : List Int32
  locations : List SpanId
  deriving Repr, DecidableEq

namespace StatusArray

/-- No statuses. -/
def empty : StatusArray where
  codes := []
  locations := []

instance : Inhabited StatusArray where
  default := empty

/-- Add the status of a process. -/
def push
    (statuses : StatusArray)
    (code : Int32)
    (location : SpanId) :
    StatusArray where
  codes := statuses.codes ++ [code]
  locations := statuses.locations ++ [location]

/-- The statuses of processes in the order they are listed. -/
def ofList
    (entries : List (Int32 × SpanId)) :
    StatusArray where
  codes := entries.map (·.1)
  locations := entries.map (·.2)

/-- The number of statuses. -/
def size
    (statuses : StatusArray) :
    Nat :=
  statuses.codes.length

/-- Whether there are no statuses. -/
def isEmpty
    (statuses : StatusArray) :
    Bool :=
  statuses.codes.isEmpty

/-- The first status that is no success, or success. -/
def firstFailure
    (statuses : StatusArray) :
    Int32 :=
  (statuses.codes.find? (· ≠ 0)).getD 0

end StatusArray

/-- The statuses of the stages of a command, and whether its outcome is inverted. -/
structure CommandStatus where
  stages : List Int32
  negated : Bool
  deriving Repr, DecidableEq

namespace CommandStatus

/-- The status of the last stage; if negated, success and failure are exchanged. -/
def status
    (statuses : CommandStatus) :
    Int32 :=
  let last := statuses.stages.getLast?.getD 0
  if statuses.negated then
    if last = 0 then 1 else 0
  else
    last

end CommandStatus

/-- The low eight bits of a status, which are all that a caller is told. -/
def truncateStatus
    (status : Int64) :
    UInt8 :=
  status.toUInt64.toUInt8

end ShellCore
