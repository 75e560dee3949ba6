import ShellCore.Proofs.Host.Redirection

namespace ShellCore.MemoryHost

/-!
# Pushing and popping redirections

Every redirection in place is owed one undoing. As long as no more are undone than
are owed, undoing all that is owed leads back to the bindings that the first push
found, whatever was pushed, refused and popped in between. So a push and a pop of
the same length are inverse around anything that owes nothing at its end.
-/

/--
From a host on, redirections were pushed, refused and popped, and some are still
owed their undoing. In between, anything may happen that leaves the bindings alone.
-/
inductive Owing (host : MemoryHost) : Nat → MemoryHost → Prop where
  | start :
      Owing host 0 host
  | pushed {owed : Nat} {between opened : MemoryHost} {redirections : List Redirection} :
      Owing host owed between →
      between.pushRedirects redirections = (true, opened) →
      Owing host (owed + redirections.length) opened
  | refused {owed : Nat} {between refused : MemoryHost} {redirections : List Redirection} :
      Owing host owed between →
      between.pushRedirects redirections = (false, refused) →
      Owing host owed refused
  | popped {owed count : Nat} {between : MemoryHost} :
      Owing host (owed + count) between →
      Owing host owed (between.popRedirects count)
  | aside {owed : Nat} {between next : MemoryHost} :
      Owing host owed between →
      SameBindings next between →
      Owing host owed next

/-- Recording a call leaves the bindings alone. -/
theorem sameBindings_record
    (host : MemoryHost)
    (call : HostCall) :
    SameBindings (host.record call) host :=
  ⟨.refl _, rfl⟩

/-- Undoing what is owed brings the bindings back. -/
theorem Owing.restored
    {host later : MemoryHost}
    {owed : Nat}
    (owing : Owing host owed later) :
    SameBindings (later.restoreDescriptors owed) host := by
  induction owing with
  | start => exact .refl host
  | @pushed owed between opened redirections _ accepted inductionHypothesis =>
      have undone : SameBindings (opened.restoreDescriptors redirections.length) between :=
        sameBindings_of_accepted accepted
      rw [Nat.add_comm, restoreDescriptors_add]
      exact (undone.restoreDescriptors owed).trans inductionHypothesis
  | refused _ refusal inductionHypothesis =>
      have unchanged := sameBindings_of_refused refusal
      exact (unchanged.restoreDescriptors _).trans inductionHypothesis
  | @popped owed count between _ inductionHypothesis =>
      have recorded :
          SameBindings (between.popRedirects count) (between.restoreDescriptors count) :=
        sameBindings_record _ _
      rw [Nat.add_comm, restoreDescriptors_add] at inductionHypothesis
      exact (recorded.restoreDescriptors owed).trans inductionHypothesis
  | aside _ same inductionHypothesis =>
      exact (same.restoreDescriptors _).trans inductionHypothesis

/-- One binding is saved for each redirection that is applied, the latest in front. -/
theorem applyRedirections_saved
    {host applied : MemoryHost}
    {redirections : List Redirection}
    (applies : host.applyRedirections redirections = (applied, [])) :
    ∃ latest,
      applied.savedDescriptors = latest ++ host.savedDescriptors ∧
        latest.map Prod.fst = (redirections.map Redirection.fd).reverse := by
  induction redirections generalizing host with
  | nil =>
      cases applies
      exact ⟨[], rfl, rfl⟩
  | cons redirection rest inductionHypothesis =>
      unfold applyRedirections at applies
      split at applies
      next first firstApplies =>
        obtain ⟨opening, _, rfl⟩ := Option.map_eq_some_iff.mp firstApplies
        obtain ⟨latest, saved, descriptors⟩ := inductionHypothesis applies
        refine ⟨latest ++ [(redirection.fd, host.descriptors.get? redirection.fd)], ?_, ?_⟩
        · simp [saved]
        · simp [descriptors]
      next => cases applies

theorem pushRedirects_saved
    {host opened : MemoryHost}
    {redirections : List Redirection}
    (accepted : host.pushRedirects redirections = (true, opened)) :
    ∃ latest,
      opened.savedDescriptors = latest ++ host.savedDescriptors ∧
        latest.map Prod.fst = (redirections.map Redirection.fd).reverse := by
  unfold pushRedirects at accepted
  split at accepted
  next applied applies =>
    cases accepted
    obtain ⟨latest, saved, descriptors⟩ := applyRedirections_saved applies
    exact ⟨latest, saved, descriptors⟩
  next => cases accepted

/--
Redirections that are refused leave the bindings as they were. Those that hold save
one binding each, on top of those saved before, and popping as many brings the
bindings back, also after pushes and pops in between that owe nothing.
-/
theorem pushed_redirections_are_undone
    (host : MemoryHost)
    (redirections : List Redirection) :
    (∀ refused,
      host.pushRedirects redirections = (false, refused) →
      SameBindings refused host) ∧
    (∀ opened,
      host.pushRedirects redirections = (true, opened) →
      (∃ latest,
        opened.savedDescriptors = latest ++ host.savedDescriptors ∧
          latest.length = redirections.length ∧
          latest.map Prod.fst = (redirections.map Redirection.fd).reverse) ∧
      ∀ later,
        Owing opened 0 later →
        SameBindings (later.popRedirects redirections.length) host) := by
  refine ⟨fun _ => sameBindings_of_refused, fun opened accepted => ⟨?_, ?_⟩⟩
  · obtain ⟨latest, saved, descriptors⟩ := pushRedirects_saved accepted
    refine ⟨latest, saved, ?_, descriptors⟩
    simpa using congrArg List.length descriptors
  · intro later owing
    have unchanged : SameBindings later opened := owing.restored
    have undone := sameBindings_of_accepted accepted
    have recorded := sameBindings_record (later.restoreDescriptors redirections.length)
      (.popRedirects redirections.length)
    exact recorded.trans ((unchanged.restoreDescriptors _).trans undone)

/-- The output and the error text go to one file. -/
def joined : MemoryHost :=
  (initial.pushRedirects [⟨1, .write, "out", ⟨0⟩⟩, ⟨2, .duplicate, "1", ⟨1⟩⟩]).2

/-- Behind that, two redirections are refused because of the second. -/
def joinedAndRefused : MemoryHost :=
  (joined.pushRedirects [⟨1, .append, "log", ⟨2⟩⟩, ⟨0, .read, "missing", ⟨3⟩⟩]).2

/-- Behind that, another one holds. -/
def joinedAndRedirected : MemoryHost :=
  (joinedAndRefused.pushRedirects [⟨1, .write, "inner", ⟨4⟩⟩]).2

theorem joined_streams_are_undone :
    joinedAndRefused.SameBindings joined ∧
      joined.Owing 0 (joinedAndRedirected.popRedirects 1) ∧
      SameBindings ((joinedAndRedirected.popRedirects 1).popRedirects 2) initial := by
  have accepted :
      initial.pushRedirects [⟨1, .write, "out", ⟨0⟩⟩, ⟨2, .duplicate, "1", ⟨1⟩⟩] =
        (true, joined) :=
    Prod.ext (by decide) rfl
  have refusal :
      joined.pushRedirects [⟨1, .append, "log", ⟨2⟩⟩, ⟨0, .read, "missing", ⟨3⟩⟩] =
        (false, joinedAndRefused) :=
    Prod.ext (by decide) rfl
  have acceptedInside :
      joinedAndRefused.pushRedirects [⟨1, .write, "inner", ⟨4⟩⟩] =
        (true, joinedAndRedirected) :=
    Prod.ext (by decide) rfl
  have owing : joined.Owing 0 (joinedAndRedirected.popRedirects 1) :=
    .popped (.pushed (.refused .start refusal) acceptedInside)
  have unchanged := (pushed_redirections_are_undone joined _).1 _ refusal
  obtain ⟨_, undone⟩ := (pushed_redirections_are_undone initial _).2 _ accepted
  exact ⟨unchanged, owing, undone _ owing⟩

end ShellCore.MemoryHost
