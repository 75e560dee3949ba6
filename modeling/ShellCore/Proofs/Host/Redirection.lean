import ShellCore.Host.Memory

namespace ShellCore.MemoryHost

/-!
# Redirections and their undoing

A redirection remembers what its descriptor was bound to, so undoing as many
redirections as were applied brings every descriptor back, provided that what
was applied in between was undone before. This is what a frame of redirections
relies on, and also a refused frame, which undoes the redirections before the
one that fails.
-/

/-- Two hosts whose descriptors no lookup tells apart, and which owe the same undoing. -/
structure SameBindings
    (left right : MemoryHost) :
    Prop where
  descriptors : Table.Agrees left.descriptors right.descriptors
  savedDescriptors : left.savedDescriptors = right.savedDescriptors

namespace SameBindings

theorem refl
    (host : MemoryHost) :
    SameBindings host host :=
  ⟨.refl _, rfl⟩

theorem trans
    {left middle right : MemoryHost}
    (first : SameBindings left middle)
    (second : SameBindings middle right) :
    SameBindings left right :=
  ⟨first.descriptors.trans second.descriptors,
    first.savedDescriptors.trans second.savedDescriptors⟩

theorem restoreDescriptors
    {left right : MemoryHost}
    (same : SameBindings left right)
    (count : Nat) :
    SameBindings (left.restoreDescriptors count) (right.restoreDescriptors count) := by
  induction count generalizing left right with
  | zero =>
      exact same
  | succ count inductionHypothesis =>
      unfold MemoryHost.restoreDescriptors
      rw [same.savedDescriptors]
      cases right.savedDescriptors with
      | nil => exact same
      | cons latest rest =>
          exact inductionHypothesis ⟨same.descriptors.set latest.1 latest.2, rfl⟩

end SameBindings

/-- Undoing changes nothing but descriptors and what is left to undo. -/
theorem restoreDescriptors_frame
    (host : MemoryHost)
    (count : Nat) :
    ∃ descriptors saved,
      host.restoreDescriptors count =
        { host with
          descriptors := descriptors
          savedDescriptors := saved } := by
  induction count generalizing host with
  | zero =>
      exact ⟨host.descriptors, host.savedDescriptors, rfl⟩
  | succ count inductionHypothesis =>
      unfold restoreDescriptors
      split
      · exact ⟨host.descriptors, host.savedDescriptors, rfl⟩
      · obtain ⟨descriptors, saved, restored⟩ := inductionHypothesis _
        exact ⟨descriptors, saved, restored⟩

theorem restoreDescriptors_of_nil
    {host : MemoryHost}
    (none : host.savedDescriptors = [])
    (count : Nat) :
    host.restoreDescriptors count = host := by
  cases count with
  | zero => rfl
  | succ count => simp only [restoreDescriptors, none]

/-- Undoing some redirections and then more undoes all of them. -/
theorem restoreDescriptors_add
    (host : MemoryHost)
    (first second : Nat) :
    host.restoreDescriptors (first + second) =
      (host.restoreDescriptors first).restoreDescriptors second := by
  induction first generalizing host with
  | zero =>
      rw [Nat.zero_add]
      rfl
  | succ first inductionHypothesis =>
      cases saved : host.savedDescriptors with
      | nil =>
          simp only [restoreDescriptors_of_nil saved]
      | cons latest rest =>
          simp only [Nat.succ_add, restoreDescriptors, saved]
          exact inductionHypothesis _

/-- Applying a redirection changes nothing but files, descriptors and what is to undo. -/
theorem applyRedirection?_frame
    {host applied : MemoryHost}
    {redirection : Redirection}
    (applies : host.applyRedirection? redirection = some applied) :
    ∃ files descriptors saved,
      applied =
        { host with
          files := files
          descriptors := descriptors
          savedDescriptors := saved } := by
  obtain ⟨⟨target, files⟩, _, rfl⟩ := Option.map_eq_some_iff.mp applies
  exact ⟨_, _, _, rfl⟩

/-- Undoing the latest redirection brings its descriptor back. -/
theorem applyRedirection?_restored
    {host applied : MemoryHost}
    {redirection : Redirection}
    (applies : host.applyRedirection? redirection = some applied) :
    SameBindings (applied.restoreDescriptors 1) host := by
  obtain ⟨⟨target, files⟩, _, rfl⟩ := Option.map_eq_some_iff.mp applies
  exact ⟨host.descriptors.agrees_set_get? redirection.fd (some target), rfl⟩

/-- Applying redirections, as far as they can be, has no other effects either. -/
theorem applyRedirections_frame
    (host : MemoryHost)
    (redirections : List Redirection) :
    ∃ files descriptors saved,
      (host.applyRedirections redirections).1 =
        { host with
          files := files
          descriptors := descriptors
          savedDescriptors := saved } := by
  induction redirections generalizing host with
  | nil =>
      exact ⟨_, _, _, rfl⟩
  | cons redirection rest inductionHypothesis =>
      unfold applyRedirections
      split
      next applied applies =>
        obtain ⟨_, _, _, rfl⟩ := applyRedirection?_frame applies
        obtain ⟨files, descriptors, saved, shape⟩ := inductionHypothesis _
        exact ⟨files, descriptors, saved, shape⟩
      next =>
        exact ⟨_, _, _, rfl⟩

/--
Undoing as many redirections as were applied, whether all of a list or those
before one that fails, brings every descriptor back.
-/
theorem applyRedirections_restored
    {host applied : MemoryHost}
    {redirections left : List Redirection}
    (applies : host.applyRedirections redirections = (applied, left)) :
    left.length ≤ redirections.length ∧
      SameBindings
        (applied.restoreDescriptors (redirections.length - left.length)) host := by
  induction redirections generalizing host with
  | nil =>
      cases applies
      exact ⟨Nat.le_refl _, .refl _⟩
  | cons redirection rest inductionHypothesis =>
      unfold applyRedirections at applies
      split at applies
      next first firstApplies =>
        obtain ⟨fewer, restored⟩ := inductionHypothesis applies
        refine ⟨Nat.le_succ_of_le fewer, ?_⟩
        rw [List.length_cons, Nat.succ_sub fewer, ← Nat.add_one,
          restoreDescriptors_add]
        exact (restored.restoreDescriptors 1).trans
          (applyRedirection?_restored firstApplies)
      next =>
        cases applies
        refine ⟨Nat.le_refl _, ?_⟩
        rw [Nat.sub_self]
        exact .refl _

/-- Redirections that hold are recorded; nothing else but bindings and files changes. -/
theorem pushRedirects_accepted
    {host opened : MemoryHost}
    {redirections : List Redirection}
    (holds : host.pushRedirects redirections = (true, opened)) :
    ∃ files descriptors saved,
      opened =
        { host with
          calls := host.calls ++ [.pushRedirects redirections.length]
          files := files
          descriptors := descriptors
          savedDescriptors := saved } := by
  unfold pushRedirects at holds
  split at holds
  next applied applies =>
    cases holds
    obtain ⟨files, descriptors, saved, shape⟩ :=
      host.applyRedirections_frame redirections
    rw [applies] at shape
    subst shape
    exact ⟨files, descriptors, saved, rfl⟩
  next =>
    cases holds

/-- Redirections that are refused are recorded; nothing else but bindings and files changes. -/
theorem pushRedirects_refused
    {host refused : MemoryHost}
    {redirections : List Redirection}
    (refusal : host.pushRedirects redirections = (false, refused)) :
    ∃ target files descriptors saved,
      refused =
        { host with
          calls := host.calls ++ [.pushRedirectsFailed target]
          files := files
          descriptors := descriptors
          savedDescriptors := saved } := by
  unfold pushRedirects at refusal
  split at refusal
  next =>
    cases refusal
  next applied failed rest applies =>
    cases refusal
    obtain ⟨files, descriptors, saved, shape⟩ :=
      host.applyRedirections_frame redirections
    rw [applies] at shape
    subst shape
    obtain ⟨laterDescriptors, laterSaved, restored⟩ :=
      restoreDescriptors_frame
        { host with
          files := files
          descriptors := descriptors
          savedDescriptors := saved }
        (redirections.length - (rest.length + 1))
    dsimp only at restored ⊢
    rw [restored]
    exact ⟨failed.target, files, laterDescriptors, laterSaved, rfl⟩

/-- Redirections that hold are undone by undoing their number, whatever is recorded. -/
theorem sameBindings_of_accepted
    {host opened : MemoryHost}
    {redirections : List Redirection}
    (holds : host.pushRedirects redirections = (true, opened)) :
    SameBindings (opened.restoreDescriptors redirections.length) host := by
  unfold pushRedirects at holds
  split at holds
  next applied applies =>
    cases holds
    obtain ⟨_, restored⟩ := applyRedirections_restored applies
    have recorded :
        SameBindings (applied.record (.pushRedirects redirections.length)) applied :=
      ⟨.refl _, rfl⟩
    exact (recorded.restoreDescriptors _).trans restored
  next =>
    cases holds

/-- Redirections that are refused leave the bindings as they were. -/
theorem sameBindings_of_refused
    {host refused : MemoryHost}
    {redirections : List Redirection}
    (refusal : host.pushRedirects redirections = (false, refused)) :
    SameBindings refused host := by
  unfold pushRedirects at refusal
  split at refusal
  next =>
    cases refusal
  next applied failed rest applies =>
    cases refusal
    obtain ⟨_, restored⟩ := applyRedirections_restored applies
    exact ⟨restored.descriptors, restored.savedDescriptors⟩

end ShellCore.MemoryHost
