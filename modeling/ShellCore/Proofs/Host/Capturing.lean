import ShellCore.Proofs.Evaluation.Execution
import ShellCore.Proofs.Evaluation.Sessions
import ShellCore.Proofs.Host.Discipline
import ShellCore.Proofs.Host.Output
import ShellCore.Proofs.Host.Redirection

namespace ShellCore

/-!
# What commands add to the streams

Nothing that was written is ever taken back. A command adds its output to the
innermost of the captures that are open, or to the output of the host if none is,
and leaves the other captures alone. A substitution opens a capture of its own
and closes it, so it leaves everything that was open before as it was.
-/

/-- A text goes on where another one ends. -/
def Text.Extends
    (before after : String) :
    Prop :=
  ∃ added, after = before ++ added

namespace Text.Extends

theorem refl
    (text : String) :
    Extends text text :=
  ⟨"", by simp⟩

theorem trans
    {left middle right : String}
    (earlier : Extends left middle)
    (later : Extends middle right) :
    Extends left right := by
  obtain ⟨first, rfl⟩ := earlier
  obtain ⟨second, rfl⟩ := later
  exact ⟨first ++ second, by simp [String.append_assoc]⟩

end Text.Extends

namespace MemoryHost

/-- The output and the captures are what they were. -/
structure SameStreams
    (before after : MemoryHost) :
    Prop where
  output : after.output = before.output
  captures : after.captures = before.captures

/-- Calls and texts were only added, and output only to where it goes. -/
structure Appended
    (before after : MemoryHost) :
    Prop where
  calls : before.calls <+: after.calls
  errors : Text.Extends before.errors after.errors
  /-- Without captures, only the output grows, and no capture stays open. -/
  output : before.captures = [] →
    after.captures = [] ∧ Text.Extends before.output after.output
  /-- Of the captures that are open, only the innermost grows, and the output does not. -/
  captured : ∀ innermost outer,
    before.captures = innermost :: outer →
    after.output = before.output ∧
      ∃ grown, after.captures = grown :: outer ∧ Text.Extends innermost grown

namespace SameStreams

theorem refl
    (host : MemoryHost) :
    SameStreams host host :=
  ⟨rfl, rfl⟩

theorem trans
    {left middle right : MemoryHost}
    (earlier : SameStreams left middle)
    (later : SameStreams middle right) :
    SameStreams left right :=
  ⟨later.output.trans earlier.output, later.captures.trans earlier.captures⟩

theorem composable :
    Composable (HostDiscipline.lift SameStreams) :=
  HostDiscipline.lift_composable refl trans

theorem finishProcessSub
    (host : MemoryHost)
    (status : Int32)
    (output : String)
    (span : SpanId) :
    SameStreams host (host.finishProcessSub status output span).2 := by
  unfold MemoryHost.finishProcessSub
  dsimp only
  split <;> exact ⟨rfl, rfl⟩

end SameStreams

namespace Appended

theorem of_sameStreams
    {before after : MemoryHost}
    (calls : before.calls <+: after.calls)
    (errors : Text.Extends before.errors after.errors)
    (same : SameStreams before after) :
    Appended before after where
  calls := calls
  errors := errors
  output noCapture := by
    rw [same.captures, same.output]
    exact ⟨noCapture, .refl _⟩
  captured innermost outer isOpen := by
    rw [same.captures, same.output]
    exact ⟨rfl, innermost, isOpen, .refl _⟩

theorem refl
    (host : MemoryHost) :
    Appended host host :=
  of_sameStreams (List.prefix_refl _) (.refl _) (.refl host)

theorem trans
    {left middle right : MemoryHost}
    (earlier : Appended left middle)
    (later : Appended middle right) :
    Appended left right where
  calls := earlier.calls.trans later.calls
  errors := earlier.errors.trans later.errors
  output noCapture := by
    obtain ⟨stillNone, first⟩ := earlier.output noCapture
    obtain ⟨finallyNone, second⟩ := later.output stillNone
    exact ⟨finallyNone, first.trans second⟩
  captured innermost outer isOpen := by
    obtain ⟨sameOutput, between, stillOpen, first⟩ := earlier.captured innermost outer isOpen
    obtain ⟨finallySame, grown, finallyOpen, second⟩ := later.captured between outer stillOpen
    exact ⟨finallySame.trans sameOutput, grown, finallyOpen, first.trans second⟩

theorem record
    (host : MemoryHost)
    (call : HostCall) :
    Appended host (host.record call) :=
  of_sameStreams (List.prefix_append _ _) (.refl _) ⟨rfl, rfl⟩

/-- What is written to a descriptor that is not bound to a file goes to one stream. -/
theorem write
    (host : MemoryHost)
    (fd : Int32)
    (text : String) :
    Appended host (host.write fd text) := by
  unfold MemoryHost.write
  split
  · exact of_sameStreams (List.prefix_refl _) (.refl _) ⟨rfl, rfl⟩
  · by_cases isErrors : fd = 2
    · simp only [isErrors, if_true]
      exact of_sameStreams (List.prefix_refl _) ⟨text, rfl⟩ ⟨rfl, rfl⟩
    · simp only [isErrors, if_false]
      split
      next innermost outer isOpen =>
        refine { refl host with output := ?_, captured := ?_ }
        · intro noCapture
          simp [isOpen] at noCapture
        · intro first rest same
          obtain ⟨rfl, rfl⟩ := List.cons.inj (isOpen.symm.trans same)
          exact ⟨rfl, _, rfl, text, rfl⟩
      next noCapture =>
        refine { refl host with output := ?_, captured := ?_ }
        · intro _
          exact ⟨noCapture, text, rfl⟩
        · intro first rest isOpen
          simp [noCapture] at isOpen

theorem of_written
    {before after : MemoryHost}
    (written : before.Written after) :
    Appended before after := by
  cases written with
  | nothing => exact refl before
  | text fd text => exact write before fd text

theorem runSimple
    (host : MemoryHost)
    (argv : List String) :
    Appended host (host.runSimple argv).2 :=
  (record host (.run argv)).trans (of_written (host.written_runSimple argv))

/-- A builtin that is named as one is flushed after. -/
theorem runBuiltin
    (host : MemoryHost)
    (name : String)
    (argv : List String) :
    Appended host (host.runBuiltin name argv).2.flush.2 := by
  have ran : Appended host (host.runBuiltin name argv).2 :=
    (record host (.builtin argv)).trans (of_written (host.written_runBuiltin name argv))
  exact ran.trans (record _ .flush)

theorem finishProcessSub
    (host : MemoryHost)
    (status : Int32)
    (output : String)
    (span : SpanId) :
    Appended host (host.finishProcessSub status output span).2 := by
  unfold MemoryHost.finishProcessSub
  dsimp only
  split <;> exact of_sameStreams (List.prefix_refl _) (.refl _) ⟨rfl, rfl⟩

theorem pushProcessSub
    (host : MemoryHost) :
    Appended host host.pushProcessSub :=
  of_sameStreams (List.prefix_append _ _) (.refl _) ⟨rfl, rfl⟩

theorem popProcessSub
    (host : MemoryHost) :
    Appended host host.popProcessSub.2 :=
  of_sameStreams (List.prefix_append _ _) (.refl _) ⟨rfl, rfl⟩

theorem pushRedirects
    {host opened : MemoryHost}
    {redirections : List Redirection}
    (holds : host.pushRedirects redirections = (true, opened)) :
    Appended host opened := by
  obtain ⟨files, descriptors, saved, rfl⟩ := pushRedirects_accepted holds
  exact of_sameStreams (List.prefix_append _ _) (.refl _) ⟨rfl, rfl⟩

theorem refusal
    {host refused : MemoryHost}
    {redirections : List Redirection}
    (refusal : host.pushRedirects redirections = (false, refused)) :
    Appended host refused := by
  obtain ⟨target, files, descriptors, saved, rfl⟩ := pushRedirects_refused refusal
  exact of_sameStreams (List.prefix_append _ _) (.refl _) ⟨rfl, rfl⟩

theorem popRedirects
    (host : MemoryHost)
    (count : Nat) :
    Appended host (host.popRedirects count) := by
  obtain ⟨descriptors, saved, restored⟩ := host.restoreDescriptors_frame count
  have undone : Appended host (host.restoreDescriptors count) := by
    rw [restored]
    exact of_sameStreams (List.prefix_refl _) (.refl _) ⟨rfl, rfl⟩
  exact undone.trans (record _ (.popRedirects count))

/-- Around a capture nothing is written, whatever was written inside of it. -/
theorem around_capture
    {host after : MemoryHost}
    (inside : Appended host.beginCapture.2 after) :
    SameStreams host (after.endCapture host.beginCapture.1).2 := by
  obtain ⟨sameOutput, grown, stillOpen, _⟩ := inside.captured "" host.captures rfl
  refine ⟨sameOutput, ?_⟩
  change after.captures.tail = host.captures
  rw [stillOpen]
  rfl

theorem discipline :
    HostDiscipline Appended where
  refl := refl
  trans := trans
  reentry host _ := record host _
  runSimple := runSimple
  runBuiltin := runBuiltin
  finishProcessSub := finishProcessSub
  processSubs inside := (pushProcessSub _).trans (inside.trans (popProcessSub _))
  redirects holds inside := (pushRedirects holds).trans (inside.trans (popRedirects _ _))
  refusal := refusal
  capture inside := of_sameStreams inside.calls inside.errors (around_capture inside)

end Appended

/-- A command that runs for a substitution leaves the streams as they were. -/
theorem capture_keeps_streams
    (fuel : Nat)
    (env : Env)
    (body : Command) :
    Eval.Keeps (HostDiscipline.lift SameStreams) (Host.capture (evaluator fuel) env body) := by
  refine SameStreams.composable.callBack (fun inside => inside) env fun env => ?_
  apply HostDiscipline.withCapture_of_inside Appended.around_capture
  exact Appended.discipline.toDiscipline.isolated fuel env body

theorem runCommandSub_keeps_streams
    (fuel : Nat)
    (env : Env)
    (body : Command) :
    Eval.Keeps (HostDiscipline.lift SameStreams)
      (Host.runCommandSub (evaluator fuel) env body) := by
  refine SameStreams.composable.recorded ?_ "" ?_
  · exact HostDiscipline.keeps_onHost fun host => ⟨rfl, rfl⟩
  · exact SameStreams.composable.bind (capture_keeps_streams fuel env body) fun _ =>
      SameStreams.composable.pure _

theorem runProcessSub_keeps_streams
    (fuel : Nat)
    (env : Env)
    (body : Command)
    (span : SpanId) :
    Eval.Keeps (HostDiscipline.lift SameStreams)
      (Host.runProcessSub (evaluator fuel) env body span) := by
  refine SameStreams.composable.recorded ?_ "/dev/null" ?_
  · exact HostDiscipline.keeps_onHost fun host => ⟨rfl, rfl⟩
  · refine SameStreams.composable.bind (capture_keeps_streams fuel env body) fun ended => ?_
    exact HostDiscipline.keeps_onHost fun host =>
      .finishProcessSub host ended.1 ended.2 span

end MemoryHost

/-- Lines were only added to a trace. -/
def Session.TraceGrown
    (before after : Session) :
    Prop :=
  before.trace <+: after.trace

theorem Session.TraceGrown.discipline :
    SessionDiscipline Session.TraceGrown where
  refl _ := List.prefix_refl _
  trans earlier later := List.IsPrefix.trans earlier later
  update _ _ _ := List.prefix_refl _
  collect _ _ := List.prefix_refl _
  trace _ _ _ := List.prefix_append _ _
  frame _ _ inside := inside
  isolation inside := inside

/--
A command adds its output to the innermost of the captures that are open, or to the
output of the host if none is; calls, error texts and traced lines are only added
to. A substitution, however it ends, leaves the output and every capture that was
open as they were.
-/
theorem output_goes_to_innermost_capture
    {env : Env}
    {before : Machine}
    {host : MemoryHost}
    (inMemory : before.host = .memory host) :
    (∀ command result after,
      Executes env command before result after →
      ∃ final,
        after.host = .memory final ∧
          host.Appended final ∧
          before.trace <+: after.trace ∧
          before.peer.trace <+: after.peer.trace) ∧
    (∀ fuel body result after,
      (Host.runCommandSub (evaluator fuel) env body).run before = some (result, after) →
      ∃ final, after.host = .memory final ∧ host.SameStreams final) ∧
    (∀ fuel body span result after,
      (Host.runProcessSub (evaluator fuel) env body span).run before = some (result, after) →
      ∃ final, after.host = .memory final ∧ host.SameStreams final) := by
  refine ⟨?_, ?_, ?_⟩
  · rintro command result after ⟨fuel, finished⟩
    have appended := MemoryHost.Appended.discipline.toDiscipline.evaluator fuel env
      (.command command) finished
    obtain ⟨own, peer⟩ := Session.TraceGrown.discipline.toDiscipline.evaluator fuel env
      (.command command) finished
    obtain ⟨final, finallyInMemory, added⟩ :=
      HostDiscipline.related_of_memory inMemory appended
    exact ⟨final, finallyInMemory, added, own, peer⟩
  · intro fuel body result after finished
    exact HostDiscipline.related_of_memory inMemory
      (MemoryHost.runCommandSub_keeps_streams fuel env body finished)
  · intro fuel body span result after finished
    exact HostDiscipline.related_of_memory inMemory
      (MemoryHost.runProcessSub_keeps_streams fuel env body span finished)

/-- A machine in whose host a capture is open. -/
def Machine.capturing : Machine :=
  .ofSession .initial (.memory MemoryHost.initial.beginCapture.2) .initial

/-- A substitution whose output is redirected, and behind that a command that is not. -/
def redirectedSubstitution : Command :=
  .sequence
    [.redirected
      (.simple [.literal "echo", .commandSub (.simple [.literal "echo", .literal "a"] ⟨1⟩)] ⟨2⟩)
      [⟨1, .write, .literal "out", ⟨3⟩⟩],
    .simple [.literal "echo", .literal "b"] ⟨4⟩]

theorem redirectedSubstitution_adds_to_capture :
    (∃ result after final,
      Executes .connected redirectedSubstitution .capturing result after ∧
        after.host = .memory final ∧
        MemoryHost.initial.beginCapture.2.Appended final ∧
        final.captures = ["b\n"]) ∧
    ∃ after final,
      (Host.runCommandSub (evaluator 8) .connected redirectedSubstitution).run .capturing =
          some (.ok "b\n", after) ∧
        after.host = .memory final ∧
        MemoryHost.initial.beginCapture.2.SameStreams final := by
  have executes :
      ((Evaluator.command (evaluator 8) .connected redirectedSubstitution).run
          .capturing).map (fun ended => ended.2.host.memory?.map MemoryHost.captures) =
        some (some ["b\n"]) := by
    decide +kernel
  have answers :
      ((Host.runCommandSub (evaluator 8) .connected redirectedSubstitution).run
          .capturing).map (fun ended => ended.1.toOption) = some (some "b\n") := by
    decide +kernel
  obtain ⟨⟨result, after⟩, executed, captures⟩ := Option.map_eq_some_iff.mp executes
  obtain ⟨⟨output, later⟩, answered, isText⟩ := Option.map_eq_some_iff.mp answers
  obtain ⟨appends, substitutes, _⟩ :=
    @output_goes_to_innermost_capture .connected .capturing _ rfl
  obtain ⟨final, inMemory, appended, _⟩ := appends _ _ _ ⟨8, executed⟩
  obtain ⟨closed, stillInMemory, same⟩ := substitutes _ _ _ _ answered
  refine ⟨⟨result, after, final, ⟨8, executed⟩, inMemory, appended, ?_⟩, ?_⟩
  · simpa [inMemory, Host.memory?] using captures
  · cases output with
    | error error => cases isText
    | ok text =>
        cases isText
        exact ⟨later, closed, answered, stillInMemory, same⟩

end ShellCore
