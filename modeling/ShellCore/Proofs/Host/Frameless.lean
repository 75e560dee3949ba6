import ShellCore.Host.Basic

namespace ShellCore.MemoryHost

/-!
# Actions that have no part in process substitutions

Frames collect the statuses of process substitutions. Whatever else a host does, it does
alike with any frames, and leaves them as they are.
-/

/-- The host with other frames. -/
def withFrames
    (host : MemoryHost)
    (frames : List (List (Int32 × SpanId))) :
    MemoryHost :=
  { host with frames := frames }

/-- An action on the host has no part in the frames. -/
def Frameless
    (action : MemoryHost → α × MemoryHost) :
    Prop :=
  ∀ host frames,
    action (host.withFrames frames) = ((action host).1, (action host).2.withFrames frames)

/-- What has no part in the frames leaves them as they are. -/
theorem Frameless.frames_eq
    {action : MemoryHost → α × MemoryHost}
    (frameless : Frameless action)
    (host : MemoryHost) :
    (action host).2.frames = host.frames :=
  congrArg (fun ended => ended.2.frames) (frameless host host.frames)

theorem frameless_record
    (answer : α)
    (call : HostCall) :
    Frameless fun host => (answer, host.record call) :=
  fun _ _ => rfl

theorem frameless_write
    (answer : α)
    (fd : Int32)
    (text : String) :
    Frameless fun host => (answer, host.write fd text) := by
  intro host frames
  rcases host with ⟨calls, output, errors, captures, files, descriptors⟩
  unfold write withFrames
  dsimp only
  cases descriptors.get? fd with
  | some path => rfl
  | none =>
      by_cases toErrors : fd = 2
      · simp only [toErrors, if_true]
      · cases captures <;> simp only [toErrors, if_false]

theorem frameless_runInProcess
    (builtin : Builtin)
    (argv : List String) :
    Frameless fun host => host.runInProcess builtin argv := by
  intro host frames
  unfold runInProcess
  cases builtin argv with
  | error text => rfl
  | ok result => exact frameless_write _ 1 _ host frames

theorem frameless_runSimple
    (argv : List String) :
    Frameless fun host => host.runSimple argv := by
  intro host frames
  cases argv with
  | nil => rfl
  | cons name args =>
      let call : HostCall := .run (name :: args)
      have sameBuiltins :
          ((host.withFrames frames).record call).builtins = (host.record call).builtins :=
        rfl
      simp only [runSimple, call, sameBuiltins]
      cases (host.record call).builtins.get? name with
      | some builtin => exact frameless_runInProcess builtin _ (host.record call) frames
      | none => exact frameless_write _ 2 _ (host.record call) frames

theorem frameless_runBuiltin
    (name : String)
    (argv : List String) :
    Frameless fun host => host.runBuiltin name argv := by
  intro host frames
  have sameBuiltins :
      ((host.withFrames frames).record (.builtin argv)).builtins =
        (host.record (.builtin argv)).builtins :=
    rfl
  simp only [runBuiltin, sameBuiltins]
  cases (host.record (.builtin argv)).builtins.get? name with
  | some builtin => exact frameless_runInProcess builtin _ (host.record _) frames
  | none => exact frameless_write _ 2 _ (host.record _) frames

section Redirections

variable (host : MemoryHost) (frames : List (List (Int32 × SpanId)))

theorem applyRedirection?_withFrames
    (redirection : Redirection) :
    (host.withFrames frames).applyRedirection? redirection =
      (host.applyRedirection? redirection).map (·.withFrames frames) := by
  unfold applyRedirection?
  rw [Option.map_map]
  rfl

theorem applyRedirections_withFrames
    (redirections : List Redirection) :
    (host.withFrames frames).applyRedirections redirections =
      ((host.applyRedirections redirections).1.withFrames frames,
        (host.applyRedirections redirections).2) := by
  induction redirections generalizing host with
  | nil => rfl
  | cons redirection rest inductionHypothesis =>
      unfold applyRedirections
      rw [applyRedirection?_withFrames]
      cases host.applyRedirection? redirection with
      | some applied => exact inductionHypothesis applied
      | none => rfl

theorem restoreDescriptors_withFrames
    (count : Nat) :
    (host.withFrames frames).restoreDescriptors count =
      (host.restoreDescriptors count).withFrames frames := by
  induction count generalizing host with
  | zero => rfl
  | succ count inductionHypothesis =>
      have sameSaved : (host.withFrames frames).savedDescriptors = host.savedDescriptors := rfl
      simp only [restoreDescriptors, sameSaved]
      cases host.savedDescriptors with
      | nil => rfl
      | cons latest rest =>
          exact inductionHypothesis
            { host with
              descriptors := host.descriptors.set latest.1 latest.2
              savedDescriptors := rest }

end Redirections

theorem frameless_pushRedirects
    (redirections : List Redirection) :
    Frameless fun host => host.pushRedirects redirections := by
  intro host frames
  simp only [pushRedirects, applyRedirections_withFrames]
  rcases host.applyRedirections redirections with ⟨applied, _ | ⟨failed, rest⟩⟩
  · rfl
  · simp only [restoreDescriptors_withFrames]
    rfl

theorem frameless_popRedirects
    (count : Nat) :
    Frameless fun host => ((), host.popRedirects count) := by
  intro host frames
  simp only [popRedirects, restoreDescriptors_withFrames]
  rfl

theorem frameless_flush :
    Frameless fun host => host.flush :=
  fun _ _ => rfl

theorem frameless_beginCapture :
    Frameless fun host => host.beginCapture :=
  fun _ _ => rfl

theorem frameless_endCapture
    (bound : Option String) :
    Frameless fun host => host.endCapture bound :=
  fun _ _ => rfl

end ShellCore.MemoryHost
