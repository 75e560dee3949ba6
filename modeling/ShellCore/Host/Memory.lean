import ShellCore.Error
import ShellCore.Host.Builtin
import ShellCore.Table
import ShellCore.Text.Numeral
import ShellCore.Wiring.Connection

namespace ShellCore

/-!
# A host in memory

The host keeps files as texts, runs builtins only, and records every call made
to it. A descriptor that is bound leads to a file; otherwise the second leads to
the error text, and any other to the innermost capture, or to the output.
-/

/-- A call made to a host. -/
inductive HostCall where
  | run (argv : List String)
  | builtin (argv : List String)
  | background (kindName : String)
  | pipeline (stages : Nat)
  | subshell
  | commandSub
  | processSub
  | pushRedirects (count : Nat)
  /-- A redirection to this target could not be applied. -/
  | pushRedirectsFailed (target : String)
  | popRedirects (count : Nat)
  | pushProcessSub
  /-- A frame was closed that held this many statuses. -/
  | popProcessSub (count : Nat)
  | flush
  deriving Repr, DecidableEq

namespace HostCall

/-- The text of a call. -/
def text :
    HostCall →
    String
  | .run argv => "run " ++ " ".intercalate argv
  | .builtin argv => "builtin " ++ " ".intercalate argv
  | .background kindName => "background " ++ kindName
  | .pipeline stages => "pipeline " ++ toString stages
  | .subshell => "subshell"
  | .commandSub => "command_sub"
  | .processSub => "process_sub"
  | .pushRedirects count => "push_redirects " ++ toString count
  | .pushRedirectsFailed target => "push_redirects failed at " ++ target
  | .popRedirects count => "pop_redirects " ++ toString count
  | .pushProcessSub => "push_process_sub"
  | .popProcessSub count => "pop_process_sub " ++ toString count
  | .flush => "flush"

end HostCall

/-- A host in memory. -/
structure MemoryHost where
  /-- The calls made so far. -/
  calls : List HostCall
  /-- What was written to the output. -/
  output : String
  /-- What was written to the error text. -/
  errors : String
  /-- The captures that are open, innermost first. -/
  captures : List String
  files : Table String String
  /-- The files that descriptors are bound to. -/
  descriptors : Table Int32 String
  /-- What the redirected descriptors were bound to before, innermost first. -/
  savedDescriptors : List (Int32 × Option String)
  /-- The files that no redirection can open. -/
  unopenable : List String
  /-- The statuses of finished process substitutions by open frame, innermost first. -/
  frames : List (List (Int32 × SpanId))
  /-- The number of the next descriptor for a process substitution. -/
  nextDescriptor : Nat
  builtins : Table String Builtin
  /-- The set whose command evaluator the host calls back. -/
  callback : Link SetId
  /-- Whether the host lets itself be wired. -/
  connects : Bool
  /-- Whether flushing fails. -/
  flushFails : Bool

namespace MemoryHost

/-- The status of a command that is not found. -/
def notFound : Int32 :=
  127

/-- The name of the link that leads back to a command evaluator. -/
def callbackName : LinkName :=
  ⟨"ScriptedContext", "cmd_ev"⟩

/-- A host without files, with the builtins `echo`, `true` and `false`. -/
def initial : MemoryHost where
  calls := []
  output := ""
  errors := ""
  captures := []
  files := .empty
  descriptors := .empty
  savedDescriptors := []
  unopenable := []
  frames := []
  nextDescriptor := 63
  builtins := .ofList
    [("echo", Builtin.echo), ("true", Builtin.constant 0), ("false", Builtin.constant 1)]
  callback := .unset callbackName
  connects := true
  flushFails := false

instance : Inhabited MemoryHost where
  default := initial

/-- Register a builtin, replacing one of its name. -/
def register
    (host : MemoryHost)
    (name : String)
    (builtin : Builtin) :
    MemoryHost :=
  { host with builtins := host.builtins.insert name builtin }

/-- Create a file, replacing one of its path. -/
def addFile
    (host : MemoryHost)
    (path text : String) :
    MemoryHost :=
  { host with files := host.files.insert path text }

/-- Let no redirection open a path. -/
def refuse
    (host : MemoryHost)
    (path : String) :
    MemoryHost :=
  { host with unopenable := path :: host.unopenable }

/-- The text of a file. -/
def file?
    (host : MemoryHost)
    (path : String) :
    Option String :=
  host.files.get? path

/-- The texts of the calls made so far. -/
def callTexts
    (host : MemoryHost) :
    List String :=
  host.calls.map HostCall.text

/-- The texts of the calls that begin in a given way. -/
def callsBeginning
    (host : MemoryHost)
    (beginning : String) :
    List String :=
  host.callTexts.filter fun text => beginning.toList.isPrefixOf text.toList

/-- The number of redirections that are in place. -/
def redirectDepth
    (host : MemoryHost) :
    Nat :=
  host.savedDescriptors.length

/-- The number of open process substitution frames. -/
def frameDepth
    (host : MemoryHost) :
    Nat :=
  host.frames.length

/-- Record a call. -/
def record
    (host : MemoryHost)
    (call : HostCall) :
    MemoryHost :=
  { host with calls := host.calls ++ [call] }

/-- Write a text to a descriptor. -/
def write
    (host : MemoryHost)
    (fd : Int32)
    (text : String) :
    MemoryHost :=
  match host.descriptors.get? fd with
  | some path =>
      { host with files := host.files.insert path ((host.files.get? path).getD "" ++ text) }
  | none =>
      if fd = 2 then
        { host with errors := host.errors ++ text }
      else
        match host.captures with
        | innermost :: outer => { host with captures := (innermost ++ text) :: outer }
        | [] => { host with output := host.output ++ text }

/-- Run a builtin; what it writes goes to the first descriptor. -/
def runInProcess
    (host : MemoryHost)
    (builtin : Builtin)
    (argv : List String) :
    Except RuntimeError Int32 × MemoryHost :=
  match builtin argv with
  | .error text => (.error (.io text), host)
  | .ok result => (.ok result.status, host.write 1 (Text.ofUtf8 result.output))

/-- Run a command by its name and arguments. -/
def runSimple
    (host : MemoryHost)
    (argv : List String) :
    Except RuntimeError Int32 × MemoryHost :=
  let host := host.record (.run argv)
  match argv with
  | [] => (.ok 0, host)
  | name :: _ =>
      match host.builtins.get? name with
      | some builtin => host.runInProcess builtin argv
      | none => (.ok notFound, host.write 2 ("brash: " ++ name ++ ": command not found\n"))

/-- Run a command that must be a builtin. -/
def runBuiltin
    (host : MemoryHost)
    (name : String)
    (argv : List String) :
    Except RuntimeError Int32 × MemoryHost :=
  let host := host.record (.builtin argv)
  match host.builtins.get? name with
  | some builtin => host.runInProcess builtin argv
  | none => (.ok 1, host.write 2 ("brash: builtin: " ++ name ++ ": not a shell builtin\n"))

/-- The file that a redirection binds its descriptor to, and the files after opening it. -/
def openTarget?
    (host : MemoryHost)
    (redirection : Redirection) :
    Option (String × Table String String) :=
  match redirection.op with
  | .duplicate =>
      (Text.readInt32? redirection.target).map fun fd =>
        ((host.descriptors.get? fd).getD ("/dev/fd/" ++ toString fd.toInt), host.files)
  | .read =>
      if redirection.target ∈ host.unopenable then none
      else if host.files.contains redirection.target then some (redirection.target, host.files)
      else none
  | .write =>
      if redirection.target ∈ host.unopenable then none
      else some (redirection.target, host.files.insert redirection.target "")
  | .append =>
      if redirection.target ∈ host.unopenable then none
      else if host.files.contains redirection.target then some (redirection.target, host.files)
      else some (redirection.target, host.files.insert redirection.target "")

/-- Apply a redirection and remember what its descriptor was bound to. -/
def applyRedirection?
    (host : MemoryHost)
    (redirection : Redirection) :
    Option MemoryHost :=
  (host.openTarget? redirection).map fun (target, files) =>
    { host with
      files := files
      descriptors := host.descriptors.insert redirection.fd target
      savedDescriptors :=
        (redirection.fd, host.descriptors.get? redirection.fd) :: host.savedDescriptors }

/-- Apply redirections in order, and yield those from the first that fails on. -/
def applyRedirections
    (host : MemoryHost) :
    List Redirection →
    MemoryHost × List Redirection
  | [] => (host, [])
  | redirection :: rest =>
      match host.applyRedirection? redirection with
      | some applied => applyRedirections applied rest
      | none => (host, redirection :: rest)

/-- Undo the latest redirections, as far as there are any. -/
def restoreDescriptors
    (host : MemoryHost) :
    Nat →
    MemoryHost
  | 0 => host
  | count + 1 =>
      match host.savedDescriptors with
      | [] => host
      | (fd, previous) :: rest =>
          restoreDescriptors
            { host with
              descriptors := host.descriptors.set fd previous
              savedDescriptors := rest }
            count

/-- Apply redirections, all of them or, if one fails, none. -/
def pushRedirects
    (host : MemoryHost)
    (redirections : List Redirection) :
    Bool × MemoryHost :=
  match host.applyRedirections redirections with
  | (applied, []) => (true, applied.record (.pushRedirects redirections.length))
  | (applied, failed :: rest) =>
      let restored := applied.restoreDescriptors (redirections.length - (rest.length + 1))
      (false, restored.record (.pushRedirectsFailed failed.target))

/-- Undo the latest redirections. -/
def popRedirects
    (host : MemoryHost)
    (count : Nat) :
    MemoryHost :=
  (host.restoreDescriptors count).record (.popRedirects count)

/-- Open a frame for the process substitutions of a command. -/
def pushProcessSub
    (host : MemoryHost) :
    MemoryHost :=
  { host with frames := [] :: host.frames }.record .pushProcessSub

/-- Close the innermost frame and yield the statuses that it holds. -/
def popProcessSub
    (host : MemoryHost) :
    StatusArray × MemoryHost :=
  let frame := host.frames.head?.getD []
  (.ofList frame,
    { host with frames := host.frames.tail }.record (.popProcessSub frame.length))

/-- Open a capture of the first descriptor, and yield what that was bound to. -/
def beginCapture
    (host : MemoryHost) :
    Option String × MemoryHost :=
  (host.descriptors.get? 1,
    { host with
      captures := "" :: host.captures
      descriptors := host.descriptors.erase 1 })

/-- Close the innermost capture, bind the first descriptor again and yield the text. -/
def endCapture
    (host : MemoryHost)
    (bound : Option String) :
    String × MemoryHost :=
  (host.captures.head?.getD "",
    { host with
      captures := host.captures.tail
      descriptors :=
        match bound with
        | some path => host.descriptors.insert 1 path
        | none => host.descriptors })

/--
Put the output of a process substitution into a file of a descriptor of its own,
and its status into the innermost frame.
-/
def finishProcessSub
    (host : MemoryHost)
    (status : Int32)
    (output : String)
    (span : SpanId) :
    Except RuntimeError String × MemoryHost :=
  let path := "/dev/fd/" ++ toString host.nextDescriptor
  let stored :=
    { host with
      nextDescriptor := host.nextDescriptor + 1
      files := host.files.insert path output }
  match host.frames with
  | [] => (.error (.io "process substitution started outside a command"), stored)
  | frame :: outer => (.ok path, { stored with frames := (frame ++ [(status, span)]) :: outer })

/-- Flush the output, and tell whether that succeeded. -/
def flush
    (host : MemoryHost) :
    Bool × MemoryHost :=
  (!host.flushFails, host.record .flush)

/-- Wire the host to call back a set, unless it declines to be wired. -/
def wire
    (host : MemoryHost)
    (set : SetId) :
    Except WiringError MemoryHost :=
  if host.connects then
    (host.callback.set set).map fun link => { host with callback := link }
  else
    .ok host

/-- Check that the set to call back is there, unless the host declines to be wired. -/
def check
    (host : MemoryHost)
    (find : SetId → Option α) :
    Except WiringError Unit :=
  if host.connects then
    host.callback.check find
  else
    .ok ()

end MemoryHost

end ShellCore
