import ShellCore.Text.Utf8

namespace ShellCore

/-!
# Builtin commands

A builtin is given its name and arguments. It writes bytes and ends with a
status, or it fails with a text and nothing that it wrote is kept.
-/

/-- What a builtin wrote, and its status. -/
structure BuiltinResult where
  output : List UInt8
  status : Int32
  deriving Repr, DecidableEq

/-- A command that the shell runs itself, from its name and arguments. -/
abbrev Builtin := List String → Except String BuiltinResult

namespace Builtin

/-- Write the arguments on a line, separated by spaces. -/
def echo : Builtin :=
  fun argv => .ok ⟨Text.toUtf8 (" ".intercalate (argv.drop 1) ++ "\n"), 0⟩

/-- Write nothing and end with a fixed status. -/
def constant
    (status : Int32) :
    Builtin :=
  fun _ => .ok ⟨[], status⟩

/-- Write the number of words of the command, and end with it as the status. -/
def wordCount : Builtin :=
  fun argv => .ok ⟨Text.toUtf8 (toString argv.length), Int32.ofNat argv.length⟩

/-- Write fixed bytes and end with a fixed status. -/
def emit
    (output : List UInt8)
    (status : Int32) :
    Builtin :=
  fun _ => .ok ⟨output, status⟩

/-- Fail with a fixed text. -/
def failing
    (text : String) :
    Builtin :=
  fun _ => .error text

end Builtin

end ShellCore
