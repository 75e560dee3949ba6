import ShellCore.Host.Memory

namespace ShellCore.MemoryHost

/-!
# What commands write

A command of a host in memory writes one text at most: to a file, to the output, to
the error text or to the innermost capture. Apart from that, and from the call that
is recorded, it leaves the host alone.
-/

/-- The hosts differ in written texts only, and the same captures are open. -/
def Wrote
    (before after : MemoryHost) :
    Prop :=
  ∃ files output errors captures,
    captures.length = before.captures.length ∧
      after =
        { before with
          files := files
          output := output
          errors := errors
          captures := captures }

theorem Wrote.refl
    (host : MemoryHost) :
    Wrote host host :=
  ⟨_, _, _, _, rfl, rfl⟩

theorem wrote_write
    (host : MemoryHost)
    (fd : Int32)
    (text : String) :
    Wrote host (host.write fd text) := by
  unfold write
  split
  · exact ⟨_, _, _, _, rfl, rfl⟩
  · split
    · exact ⟨_, _, _, _, rfl, rfl⟩
    · split
      next innermost outer isOpen =>
        have sameLength : ((innermost ++ text) :: outer).length = host.captures.length :=
          (congrArg List.length isOpen).symm
        exact ⟨_, _, _, _, sameLength, rfl⟩
      · exact ⟨_, _, _, _, rfl, rfl⟩

/-- The hosts differ in one text at most, which was written to a descriptor. -/
inductive Written (host : MemoryHost) : MemoryHost → Prop where
  | nothing : Written host host
  | text (fd : Int32) (text : String) : Written host (host.write fd text)

theorem Wrote.of_written
    {before after : MemoryHost}
    (written : before.Written after) :
    Wrote before after := by
  cases written with
  | nothing => exact .refl before
  | text fd text => exact wrote_write before fd text

theorem written_runInProcess
    (host : MemoryHost)
    (builtin : Builtin)
    (argv : List String) :
    Written host (host.runInProcess builtin argv).2 := by
  unfold runInProcess
  split
  · exact .nothing
  · exact .text 1 _

theorem written_runSimple
    (host : MemoryHost)
    (argv : List String) :
    Written (host.record (.run argv)) (host.runSimple argv).2 := by
  unfold runSimple
  dsimp only
  split
  · exact .nothing
  · split
    · exact written_runInProcess _ _ _
    · exact .text 2 _

theorem written_runBuiltin
    (host : MemoryHost)
    (name : String)
    (argv : List String) :
    Written (host.record (.builtin argv)) (host.runBuiltin name argv).2 := by
  unfold runBuiltin
  dsimp only
  split
  · exact written_runInProcess _ _ _
  · exact .text 2 _

theorem wrote_runSimple
    (host : MemoryHost)
    (argv : List String) :
    Wrote (host.record (.run argv)) (host.runSimple argv).2 :=
  .of_written (host.written_runSimple argv)

theorem wrote_runBuiltin
    (host : MemoryHost)
    (name : String)
    (argv : List String) :
    Wrote (host.record (.builtin argv)) (host.runBuiltin name argv).2 :=
  .of_written (host.written_runBuiltin name argv)

end ShellCore.MemoryHost
