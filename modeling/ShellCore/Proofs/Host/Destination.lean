import ShellCore.Host.Memory

namespace ShellCore

/-!
# Where output goes

What is written to a descriptor goes to the file that the descriptor is bound to.
The output of a descriptor that is not bound goes to one of the streams of the
host. A duplicated descriptor takes over the binding of another one, so the two
lead to the same place if there is a binding to take over. If there is none, the
new descriptor leads to a file that is named after the other descriptor, while
that one leads to a stream.
-/

/-- Where what is written to a descriptor goes. -/
inductive Destination where
  | file (path : String)
  | errors
  /-- The innermost of the captures that are open. -/
  | capture
  | output
  deriving Repr, DecidableEq

namespace Destination

/-- Whether a destination is a stream of the host. -/
def isStream :
    Destination →
    Bool
  | .file _ => false
  | .errors => true
  | .capture => true
  | .output => true

end Destination

namespace MemoryHost

/-- Where what is written to a descriptor goes. -/
def destination
    (host : MemoryHost)
    (fd : Int32) :
    Destination :=
  match host.descriptors.get? fd with
  | some path => .file path
  | none =>
      if fd = 2 then .errors
      else if host.captures.isEmpty then .output
      else .capture

/-- Append a text at a destination. -/
def deliver
    (host : MemoryHost)
    (text : String) :
    Destination →
    MemoryHost
  | .file path =>
      { host with files := host.files.insert path ((host.files.get? path).getD "" ++ text) }
  | .errors => { host with errors := host.errors ++ text }
  | .capture => { host with captures := host.captures.modifyHead (· ++ text) }
  | .output => { host with output := host.output ++ text }

/-- Writing to a descriptor appends at its destination, and does nothing else. -/
theorem write_eq_deliver
    (host : MemoryHost)
    (fd : Int32)
    (text : String) :
    host.write fd text = host.deliver text (host.destination fd) := by
  unfold write destination
  cases host.descriptors.get? fd with
  | some path => rfl
  | none =>
      by_cases isErrors : fd = 2
      · simp [isErrors, deliver]
      · cases isOpen : host.captures with
        | nil => simp [isErrors, deliver, isOpen]
        | cons innermost outer => simp [isErrors, deliver, isOpen]

theorem destination_of_bound
    {host : MemoryHost}
    {fd : Int32}
    {path : String}
    (bound : host.descriptors.get? fd = some path) :
    host.destination fd = .file path := by
  simp [destination, bound]

/-- A descriptor leads to a stream if and only if it is not bound. -/
theorem isStream_destination_iff
    (host : MemoryHost)
    (fd : Int32) :
    (host.destination fd).isStream = true ↔ host.descriptors.contains fd = false := by
  cases bound : host.descriptors.get? fd with
  | some path => simp [destination_of_bound bound, Destination.isStream, Table.contains, bound]
  | none =>
      simp only [destination, Table.contains, bound, Option.isSome_none, iff_true]
      split
      · rfl
      · split <;> rfl

/-- The path under which a file stands for a descriptor. -/
def descriptorPath
    (fd : Int32) :
    String :=
  "/dev/fd/" ++ toString fd.toInt

/-- Duplicating a descriptor succeeds, and binds the new one to what the other is bound to. -/
theorem pushRedirects_duplicate
    (host : MemoryHost)
    (fd : Int32)
    {target : String}
    {source : Int32}
    (names : Text.readInt32? target = some source)
    (span : SpanId) :
    ∃ opened,
      host.pushRedirects [⟨fd, .duplicate, target, span⟩] = (true, opened) ∧
        opened.destination fd =
          .file ((host.descriptors.get? source).getD (descriptorPath source)) := by
  have applied :
      host.openTarget? ⟨fd, .duplicate, target, span⟩ =
        some ((host.descriptors.get? source).getD (descriptorPath source), host.files) := by
    simp [openTarget?, names, descriptorPath]
  have pushed :
      (host.pushRedirects [⟨fd, .duplicate, target, span⟩]).1 = true ∧
        (host.pushRedirects [⟨fd, .duplicate, target, span⟩]).2.descriptors =
          host.descriptors.insert fd
            ((host.descriptors.get? source).getD (descriptorPath source)) := by
    simp [pushRedirects, applyRedirections, applyRedirection?, applied, record]
  refine ⟨_, Prod.ext pushed.1 rfl, ?_⟩
  apply destination_of_bound
  rw [pushed.2, Table.get?_insert_self]

/--
Duplicating a descriptor always succeeds. What is written to the new descriptor
then goes where the output of the other one went if and only if that one was
bound. If it was not, its output went to a stream, and the new descriptor leads to
a file instead.
-/
theorem duplicate_joins_iff
    (host : MemoryHost)
    (fd : Int32)
    {target : String}
    {source : Int32}
    (names : Text.readInt32? target = some source)
    (span : SpanId) :
    ∃ opened,
      host.pushRedirects [⟨fd, .duplicate, target, span⟩] = (true, opened) ∧
        (opened.destination fd = host.destination source ↔
          host.descriptors.contains source = true) ∧
        (host.descriptors.contains source = false →
          (host.destination source).isStream = true ∧
            opened.destination fd = .file (descriptorPath source)) := by
  obtain ⟨opened, pushed, leads⟩ := host.pushRedirects_duplicate fd names span
  refine ⟨opened, pushed, ?_⟩
  have streams := host.isStream_destination_iff source
  cases bound : host.descriptors.get? source with
  | some path => simp [leads, destination_of_bound bound, Table.contains, bound]
  | none =>
      have unbound : host.descriptors.contains source = false := by
        simp [Table.contains, bound]
      have toStream : (host.destination source).isStream = true := streams.mpr unbound
      have toFile : opened.destination fd = .file (descriptorPath source) := by
        rw [leads, bound]
        rfl
      refine ⟨?_, fun _ => ⟨toStream, toFile⟩⟩
      rw [toFile, unbound]
      constructor
      · intro same
        rw [← same] at toStream
        cases toStream
      · intro isBound
        cases isBound

/-- A host whose error text goes to a file. -/
def logging : MemoryHost :=
  (initial.pushRedirects [⟨2, .write, "err.log", ⟨0⟩⟩]).2

theorem duplicate_of_log_is_joined :
    Text.readInt32? "2" = some 2 ∧
      ∃ opened,
        logging.pushRedirects [⟨1, .duplicate, "2", ⟨1⟩⟩] = (true, opened) ∧
          opened.destination 1 = logging.destination 2 := by
  have names : Text.readInt32? "2" = some 2 := by decide
  obtain ⟨opened, pushed, joins, _⟩ := logging.duplicate_joins_iff 1 names ⟨1⟩
  have isBound : logging.descriptors.contains 2 = true := by decide
  exact ⟨names, opened, pushed, joins.mpr isBound⟩

/-- The error text does not join the output: it goes to a file that nothing else leads to. -/
theorem duplicate_of_output_is_lost :
    ∃ opened,
      initial.pushRedirects [⟨2, .duplicate, "1", ⟨0⟩⟩] = (true, opened) ∧
        initial.destination 1 = .output ∧
        opened.destination 2 = .file "/dev/fd/1" ∧
        (initial.write 1 "text").output = "text" ∧
        (opened.write 2 "text").output = "" := by
  refine ⟨(initial.pushRedirects [⟨2, .duplicate, "1", ⟨0⟩⟩]).2, ?_, ?_⟩
  · exact Prod.ext (by decide) rfl
  · decide

end MemoryHost

end ShellCore
