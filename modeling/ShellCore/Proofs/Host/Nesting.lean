import ShellCore.Host.Memory

namespace ShellCore

/-!
# Nested calls of a host

Some calls open what a later call must close: redirections, process substitution
frames, and a builtin, whose output is flushed before anything else happens. A
word of calls is well nested if a stack of openings accepts it, from the empty
stack back to the empty stack.
-/

/-- What a call opens until another call closes it. -/
inductive Opening where
  | redirects (count : Nat)
  | processSub
  | builtin
  deriving Repr, DecidableEq

namespace HostCall

/-- What a call opens. -/
def opens? :
    HostCall →
    Option Opening
  | .pushRedirects count => some (.redirects count)
  | .pushProcessSub => some .processSub
  | .builtin _ => some .builtin
  | _ => none

/-- What a call closes. -/
def closes? :
    HostCall →
    Option Opening
  | .popRedirects count => some (.redirects count)
  | .popProcessSub _ => some .processSub
  | .flush => some .builtin
  | _ => none

/--
The openings after a call, innermost first. A call has no place if it closes
anything but the innermost opening, or comes between a builtin and its flush.
-/
def follow?
    (openings : List Opening)
    (call : HostCall) :
    Option (List Opening) :=
  match call.closes? with
  | some closed =>
      if openings.head? = some closed then some openings.tail else none
  | none =>
      if openings.head? = some .builtin then none
      else some (call.opens?.toList ++ openings)

/-- Every call closes the innermost opening or opens something, and all is closed at the end. -/
def WellNested
    (word : List HostCall) :
    Prop :=
  word.foldlM follow? [] = some []

instance
    (word : List HostCall) :
    Decidable (WellNested word) :=
  inferInstanceAs (Decidable (word.foldlM follow? [] = some []))

/-- A word that may stand inside any openings, unless a flush is due, and leaves them. -/
def Closed
    (word : List HostCall) :
    Prop :=
  ∀ openings : List Opening,
    openings.head? ≠ some .builtin →
    word.foldlM follow? openings = some openings

namespace Closed

theorem wellNested
    {word : List HostCall}
    (closed : Closed word) :
    WellNested word :=
  closed [] (by decide)

theorem nil :
    Closed [] :=
  fun _ _ => rfl

theorem append
    {left right : List HostCall}
    (leftClosed : Closed left)
    (rightClosed : Closed right) :
    Closed (left ++ right) := by
  intro openings noFlushDue
  rw [List.foldlM_append, leftClosed openings noFlushDue]
  exact rightClosed openings noFlushDue

theorem singleton
    {call : HostCall}
    (opensNothing : call.opens? = none)
    (closesNothing : call.closes? = none) :
    Closed [call] := by
  intro openings noFlushDue
  simp [follow?, closesNothing, opensNothing, noFlushDue]

/-- What opens something and closes it again is closed. -/
theorem bracket
    {opener closer : HostCall}
    {opening : Opening}
    {inside : List HostCall}
    (opens : opener.opens? = some opening)
    (closesNothing : opener.closes? = none)
    (closes : closer.closes? = some opening)
    (noBuiltin : opening ≠ .builtin)
    (closed : Closed inside) :
    Closed (opener :: (inside ++ [closer])) := by
  intro openings noFlushDue
  have opened :
      follow? openings opener = some (opening :: openings) := by
    simp [follow?, closesNothing, opens, noFlushDue]
  have left :
      follow? (opening :: openings) closer = some openings := by
    simp [follow?, closes]
  have within :
      inside.foldlM follow? (opening :: openings) = some (opening :: openings) :=
    closed _ (by simpa using noBuiltin)
  simp [opened, within, left]

/-- A builtin and its flush are closed. -/
theorem builtin
    (argv : List String) :
    Closed [.builtin argv, .flush] := by
  intro openings noFlushDue
  simp [follow?, closes?, opens?, noFlushDue]

end Closed

/-- What has a place in some openings has it above any others, unless a flush is due there. -/
theorem follow?_append
    {openings later outer : List Opening}
    {call : HostCall}
    (noFlushDue : outer.head? ≠ some .builtin)
    (followed : follow? openings call = some later) :
    follow? (openings ++ outer) call = some (later ++ outer) := by
  unfold follow? at followed ⊢
  split at followed
  next closed closes =>
    cases openings with
    | nil => cases followed
    | cons innermost rest =>
        obtain ⟨rfl, rfl⟩ : innermost = closed ∧ rest = later := by
          simpa using followed
        simp
  next closesNothing =>
    split at followed
    · cases followed
    next noBuiltin =>
      cases followed
      have stillNone : (openings ++ outer).head? ≠ some .builtin := by
        cases openings with
        | nil => exact noFlushDue
        | cons innermost rest => exact noBuiltin
      rw [if_neg stillNone, List.append_assoc]

theorem foldlM_follow?_append
    {word : List HostCall}
    {openings later outer : List Opening}
    (noFlushDue : outer.head? ≠ some .builtin)
    (followed : word.foldlM follow? openings = some later) :
    word.foldlM follow? (openings ++ outer) = some (later ++ outer) := by
  induction word generalizing openings with
  | nil =>
      cases followed
      rfl
  | cons call rest inductionHypothesis =>
      rw [List.foldlM_cons] at followed ⊢
      obtain ⟨between, first, others⟩ := Option.bind_eq_some_iff.mp followed
      rw [follow?_append noFlushDue first]
      exact inductionHypothesis others

/-- A well-nested word may stand inside any openings, unless a flush is due. -/
theorem WellNested.closed
    {word : List HostCall}
    (nested : WellNested word) :
    Closed word :=
  fun _ noFlushDue => foldlM_follow?_append noFlushDue nested

/-- A choice of openings, with all the calls that open or close one of them. -/
structure Selection
    (keep : HostCall → Bool)
    (kept : Opening → Bool) :
    Prop where
  opens : ∀ {call : HostCall} {opening : Opening},
    call.opens? = some opening → keep call = kept opening
  closes : ∀ {call : HostCall} {opening : Opening},
    call.closes? = some opening → keep call = kept opening
  /-- A builtin would have to be flushed before any call that is kept. -/
  noBuiltin : kept .builtin = false

namespace Selection

variable {keep : HostCall → Bool}
variable {kept : Opening → Bool}
variable (selection : Selection keep kept)

include selection

/-- No flush is due among the openings that are kept. -/
theorem noFlushDue
    (openings : List Opening) :
    (openings.filter kept).head? ≠ some .builtin := by
  intro due
  have isKept := (List.mem_filter.mp (List.mem_of_mem_head? due)).2
  rw [selection.noBuiltin] at isKept
  cases isKept

/-- A call that is left out changes nothing that is kept. -/
theorem follow?_filter
    {openings later : List Opening}
    {call : HostCall}
    (followed : follow? openings call = some later) :
    if keep call then
      follow? (openings.filter kept) call = some (later.filter kept)
    else
      later.filter kept = openings.filter kept := by
  unfold follow? at followed ⊢
  split at followed
  next closed closes =>
    cases openings with
    | nil => cases followed
    | cons innermost rest =>
        obtain ⟨rfl, rfl⟩ : innermost = closed ∧ rest = later := by
          simpa using followed
        rw [selection.closes closes]
        cases isKept : kept innermost <;> simp [isKept]
  next closesNothing =>
    split at followed
    · cases followed
    · cases followed
      rw [if_neg (selection.noFlushDue openings)]
      cases opens : call.opens? with
      | none => simp
      | some opening =>
          rw [selection.opens opens]
          cases isKept : kept opening <;> simp [isKept]

theorem foldlM_filter
    {word : List HostCall}
    {openings later : List Opening}
    (followed : word.foldlM follow? openings = some later) :
    (word.filter keep).foldlM follow? (openings.filter kept) = some (later.filter kept) := by
  induction word generalizing openings with
  | nil =>
      cases followed
      rfl
  | cons call rest inductionHypothesis =>
      rw [List.foldlM_cons] at followed
      obtain ⟨between, first, others⟩ := Option.bind_eq_some_iff.mp followed
      have filtered := selection.follow?_filter first
      have remaining := inductionHypothesis others
      cases isKept : keep call with
      | true =>
          rw [isKept, if_pos rfl] at filtered
          rw [List.filter_cons_of_pos isKept, List.foldlM_cons, filtered]
          exact remaining
      | false =>
          rw [isKept] at filtered
          rw [List.filter_cons_of_neg (by simp [isKept]), ← filtered]
          exact remaining

/-- The calls that are kept of a well-nested word are well nested. -/
theorem wellNested
    {word : List HostCall}
    (nested : WellNested word) :
    WellNested (word.filter keep) :=
  selection.foldlM_filter nested

end Selection

/-- Whether a call opens or closes the flushing of a builtin. -/
def isFlushing :
    HostCall →
    Bool
  | .builtin _ => true
  | .flush => true
  | _ => false

/-- Everything but the flushing of builtins. -/
theorem selection_unflushed :
    Selection (fun call => !call.isFlushing) (· ≠ .builtin) where
  opens := by
    intro call opening opens
    cases call <;> cases opens <;> rfl
  closes := by
    intro call opening closes
    cases call <;> cases closes <;> rfl
  noBuiltin := rfl

end HostCall

end ShellCore
