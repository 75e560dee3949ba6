import ShellCore.Proofs.Host.Discipline
import ShellCore.Proofs.Host.Output
import ShellCore.Proofs.Host.Redirection

namespace ShellCore

/-!
# The wiring of a host stays

Which set a host in memory calls back is settled when it is wired. Nothing that is
evaluated wires it again or takes the wiring away.
-/

namespace MemoryHost

/-- The hosts call back the same set, and both or neither let themselves be wired. -/
structure SameWiring
    (before after : MemoryHost) :
    Prop where
  callback : after.callback = before.callback
  connects : after.connects = before.connects

namespace SameWiring

theorem refl
    (host : MemoryHost) :
    SameWiring host host :=
  ⟨rfl, rfl⟩

theorem trans
    {left middle right : MemoryHost}
    (earlier : SameWiring left middle)
    (later : SameWiring middle right) :
    SameWiring left right :=
  ⟨later.callback.trans earlier.callback, later.connects.trans earlier.connects⟩

theorem of_wrote
    {before after : MemoryHost}
    (wrote : Wrote before after) :
    SameWiring before after := by
  obtain ⟨_, _, _, _, _, rfl⟩ := wrote
  exact ⟨rfl, rfl⟩

theorem popRedirects
    (host : MemoryHost)
    (count : Nat) :
    SameWiring host (host.popRedirects count) := by
  obtain ⟨_, _, restored⟩ := host.restoreDescriptors_frame count
  unfold MemoryHost.popRedirects
  rw [restored]
  exact ⟨rfl, rfl⟩

theorem discipline :
    HostDiscipline SameWiring where
  refl := refl
  trans := trans
  reentry _ _ := ⟨rfl, rfl⟩
  runSimple host argv := by
    have ran := of_wrote (host.wrote_runSimple argv)
    exact ⟨ran.callback, ran.connects⟩
  runBuiltin host name argv := by
    have ran := of_wrote (host.wrote_runBuiltin name argv)
    exact ⟨ran.callback, ran.connects⟩
  finishProcessSub host status output span := by
    unfold MemoryHost.finishProcessSub
    dsimp only
    split <;> exact ⟨rfl, rfl⟩
  processSubs inside := ⟨inside.callback, inside.connects⟩
  redirects opens inside := by
    obtain ⟨_, _, _, rfl⟩ := pushRedirects_accepted opens
    exact trans ⟨inside.callback, inside.connects⟩ (popRedirects _ _)
  refusal refusal := by
    obtain ⟨_, _, _, _, rfl⟩ := pushRedirects_refused refusal
    exact ⟨rfl, rfl⟩
  capture inside := ⟨inside.callback, inside.connects⟩

end SameWiring

end MemoryHost

end ShellCore
