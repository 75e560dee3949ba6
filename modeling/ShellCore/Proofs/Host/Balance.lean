import ShellCore.Proofs.Evaluation.Execution
import ShellCore.Proofs.Host.Discipline
import ShellCore.Proofs.Host.Nesting
import ShellCore.Proofs.Host.Output
import ShellCore.Proofs.Host.Redirection

namespace ShellCore

/-!
# What a command holds of its host

However a command ends, it has given back what it took: descriptors are bound as
before, the same redirections are in place, and as many captures and process
substitution frames are open. Only the innermost of those frames may have grown.
The calls that it made are well nested.
-/

namespace MemoryHost

/-- One host has made some more calls than another, and holds what that held. -/
structure Released
    (word : List HostCall)
    (before after : MemoryHost) :
    Prop where
  calls : after.calls = before.calls ++ word
  descriptors : Table.Agrees after.descriptors before.descriptors
  savedDescriptors : after.savedDescriptors = before.savedDescriptors
  captures : after.captures.length = before.captures.length
  frames : after.frames.length = before.frames.length
  /-- The frames below the innermost one hold the same statuses. -/
  outerFrames : after.frames.tail = before.frames.tail

namespace Released

theorem refl
    (host : MemoryHost) :
    Released [] host host where
  calls := (List.append_nil _).symm
  descriptors := .refl _
  savedDescriptors := rfl
  captures := rfl
  frames := rfl
  outerFrames := rfl

theorem trans
    {first second : List HostCall}
    {left middle right : MemoryHost}
    (earlier : Released first left middle)
    (later : Released second middle right) :
    Released (first ++ second) left right where
  calls := by
    rw [later.calls, earlier.calls, List.append_assoc]
  descriptors := later.descriptors.trans earlier.descriptors
  savedDescriptors := later.savedDescriptors.trans earlier.savedDescriptors
  captures := later.captures.trans earlier.captures
  frames := later.frames.trans earlier.frames
  outerFrames := later.outerFrames.trans earlier.outerFrames

theorem record
    (host : MemoryHost)
    (call : HostCall) :
    Released [call] host (host.record call) where
  calls := rfl
  descriptors := .refl _
  savedDescriptors := rfl
  captures := rfl
  frames := rfl
  outerFrames := rfl

theorem of_wrote
    {before after : MemoryHost}
    (wrote : before.Wrote after) :
    Released [] before after := by
  obtain ⟨_, _, _, captures, sameLength, rfl⟩ := wrote
  exact { refl before with captures := sameLength }

theorem runSimple
    (host : MemoryHost)
    (argv : List String) :
    Released [.run argv] host (host.runSimple argv).2 :=
  (record host (.run argv)).trans (of_wrote (host.wrote_runSimple argv))

theorem runBuiltin
    (host : MemoryHost)
    (name : String)
    (argv : List String) :
    Released [.builtin argv] host (host.runBuiltin name argv).2 :=
  (record host (.builtin argv)).trans (of_wrote (host.wrote_runBuiltin name argv))

/-- A finished process substitution adds to the innermost frame at most. -/
theorem finishProcessSub
    (host : MemoryHost)
    (status : Int32)
    (output : String)
    (span : SpanId) :
    Released [] host (host.finishProcessSub status output span).2 := by
  unfold MemoryHost.finishProcessSub
  dsimp only
  split
  next none => exact { refl host with }
  next frame outer frames =>
    exact { refl host with
      frames := by simp [frames]
      outerFrames := by simp [frames] }

/-- A frame that is opened and closed leaves every frame below it alone. -/
theorem processSubs
    {word : List HostCall}
    {host after : MemoryHost}
    (inside : Released word host.pushProcessSub after) :
    ∃ count,
      Released (.pushProcessSub :: (word ++ [.popProcessSub count])) host
        after.popProcessSub.2 := by
  have remaining : after.frames.tail = host.frames :=
    inside.outerFrames
  refine ⟨(after.frames.head?.getD []).length, ?_⟩
  exact {
    calls := by
      change after.calls ++ _ = _
      rw [inside.calls]
      simp [MemoryHost.pushProcessSub, MemoryHost.record]
    descriptors := inside.descriptors
    savedDescriptors := inside.savedDescriptors
    captures := inside.captures
    frames := congrArg List.length remaining
    outerFrames := congrArg List.tail remaining
  }

/-- Redirections that hold are all undone at the end of what they are around. -/
theorem redirects
    {word : List HostCall}
    {host opened after : MemoryHost}
    {redirections : List Redirection}
    (holds : host.pushRedirects redirections = (true, opened))
    (inside : Released word opened after) :
    Released
      (.pushRedirects redirections.length ::
        (word ++ [.popRedirects redirections.length]))
      host (after.popRedirects redirections.length) := by
  have bindings :
      SameBindings (after.restoreDescriptors redirections.length) host :=
    (SameBindings.restoreDescriptors
      ⟨inside.descriptors, inside.savedDescriptors⟩ _).trans
      (sameBindings_of_accepted holds)
  obtain ⟨_, _, _, rfl⟩ := pushRedirects_accepted holds
  obtain ⟨descriptors, saved, restored⟩ :=
    after.restoreDescriptors_frame redirections.length
  unfold MemoryHost.popRedirects
  rw [restored] at bindings ⊢
  exact {
    calls := by
      change after.calls ++ _ = _
      rw [inside.calls]
      simp
    descriptors := bindings.descriptors
    savedDescriptors := bindings.savedDescriptors
    captures := inside.captures
    frames := inside.frames
    outerFrames := inside.outerFrames
  }

/-- Redirections that are refused are recorded and hold nothing. -/
theorem refusal
    {host refused : MemoryHost}
    {redirections : List Redirection}
    (refusal : host.pushRedirects redirections = (false, refused)) :
    ∃ target, Released [.pushRedirectsFailed target] host refused := by
  have bindings := sameBindings_of_refused refusal
  obtain ⟨target, _, _, _, rfl⟩ := pushRedirects_refused refusal
  exact ⟨target, {
    calls := rfl
    descriptors := bindings.descriptors
    savedDescriptors := bindings.savedDescriptors
    captures := rfl
    frames := rfl
    outerFrames := rfl
  }⟩

/-- A capture that is closed binds the first descriptor again as before. -/
theorem capture
    {word : List HostCall}
    {host after : MemoryHost}
    (inside : Released word host.beginCapture.2 after) :
    Released word host (after.endCapture host.beginCapture.1).2 where
  calls := inside.calls
  descriptors := by
    have erased : Table.Agrees after.descriptors (host.descriptors.set 1 none) :=
      inside.descriptors
    change Table.Agrees (after.endCapture (host.descriptors.get? 1)).2.descriptors _
    intro fd
    cases bound : host.descriptors.get? 1 with
    | some path =>
        have inserted := (erased.set 1 (some path)).trans
          (bound ▸ host.descriptors.agrees_set_get? 1 none)
        exact inserted fd
    | none =>
        change after.descriptors.get? fd = _
        rw [erased fd, Table.get?_set]
        split
        next same => rw [same, bound]
        next => rfl
  savedDescriptors := inside.savedDescriptors
  captures := by
    change after.captures.tail.length = host.captures.length
    rw [List.length_tail, inside.captures]
    rfl
  frames := inside.frames
  outerFrames := inside.outerFrames

end Released

/-- One host holds what another held, and its calls since then are closed. -/
def Balanced
    (before after : MemoryHost) :
    Prop :=
  ∃ word, HostCall.Closed word ∧ Released word before after

/-- Every operation of an evaluation gives back what it took of the host. -/
theorem balanced_discipline :
    HostDiscipline Balanced where
  refl host := ⟨[], .nil, .refl host⟩
  trans := by
    rintro left middle right ⟨first, firstClosed, earlier⟩ ⟨second, secondClosed, later⟩
    exact ⟨first ++ second, firstClosed.append secondClosed, earlier.trans later⟩
  reentry host reentrant := by
    refine ⟨_, .singleton ?_ ?_, .record host _⟩
    · cases reentrant <;> rfl
    · cases reentrant <;> rfl
  runSimple host argv :=
    ⟨_, .singleton rfl rfl, .runSimple host argv⟩
  runBuiltin host name argv :=
    ⟨_, .builtin argv, (Released.runBuiltin host name argv).trans (.record _ .flush)⟩
  finishProcessSub host status output span :=
    ⟨[], .nil, .finishProcessSub host status output span⟩
  processSubs := by
    rintro host after ⟨word, closed, inside⟩
    obtain ⟨count, released⟩ := inside.processSubs
    exact ⟨_, closed.bracket rfl rfl rfl (by decide), released⟩
  redirects := by
    rintro host opened after redirections holds ⟨word, closed, inside⟩
    exact ⟨_, closed.bracket rfl rfl rfl (by simp), inside.redirects holds⟩
  refusal := by
    intro host refused redirections refusal
    obtain ⟨target, released⟩ := Released.refusal refusal
    exact ⟨_, .singleton rfl rfl, released⟩
  capture := by
    rintro host after ⟨word, closed, inside⟩
    exact ⟨word, closed, inside.capture⟩

end MemoryHost

/--
However a command ends, its host is bound as before, holds as many redirections,
captures and frames, all frames but the innermost unchanged, and the calls that
the command made are well nested.
-/
theorem execution_releases_host
    {env : Env}
    {command : Command}
    {before after : Machine}
    {result : Except RuntimeError ControlFlow}
    {host : MemoryHost}
    (inMemory : before.host = .memory host)
    (executed : Executes env command before result after) :
    ∃ final word,
      after.host = .memory final ∧
        HostCall.WellNested word ∧
        host.Released word final := by
  obtain ⟨fuel, finished⟩ := executed
  have balanced :=
    MemoryHost.balanced_discipline.toDiscipline.evaluator fuel env
      (.command command) finished
  obtain ⟨final, finallyInMemory, word, closed, released⟩ :=
    HostDiscipline.related_of_memory inMemory balanced
  exact ⟨final, word, finallyInMemory, closed.wellNested, released⟩

/-- A loop under a redirection, which a break of two levels leaves early. -/
theorem redirected_break_releases_host :
    ∃ signal after final word,
      Executes .connected
          (.redirected
            (.forEach "x" [.literal "a"]
              [.control .breakLoop (some (.status (.literal "2"))) ⟨4⟩])
            [⟨1, .write, .literal "out", ⟨9⟩⟩])
          .fresh (.ok (.raise signal)) after ∧
        after.host = .memory final ∧
        HostCall.WellNested word ∧
        MemoryHost.initial.Released word final := by
  have executed :
      ∃ signal after,
        Executes .connected
          (.redirected
            (.forEach "x" [.literal "a"]
              [.control .breakLoop (some (.status (.literal "2"))) ⟨4⟩])
            [⟨1, .write, .literal "out", ⟨9⟩⟩])
          .fresh (.ok (.raise signal)) after :=
    ⟨_, _, 8, rfl⟩
  obtain ⟨signal, after, executed⟩ := executed
  obtain ⟨final, word, inMemory, nested, released⟩ :=
    execution_releases_host rfl executed
  exact ⟨signal, after, final, word, executed, inMemory, nested, released⟩

end ShellCore
