import Mathlib.Data.List.TakeWhile
import ShellCore.Proofs.Source.Reconstruction

namespace ShellCore.Arena

/-!
# Searching the window

A search of the window for the lines from one to another ends in one of four
ways, and which of them is told by where the two lines are. What is found is
every line between them, since the window holds the last handles without a gap.
-/

/-- The handles from one line's to another's, both included. -/
def linesThrough
    (first last : LineId) :
    List LineId :=
  (List.range' first.index (last.index + 1 - first.index)).map fun index => ⟨UInt32.ofNat index⟩

theorem linesThrough_places
    (first last : LineId) :
    (linesThrough first last).map LineId.index =
      List.range' first.index (last.index + 1 - first.index) := by
  refine map_index_handles fun place member => ?_
  have ⟨after, before⟩ := List.mem_range'_1.mp member
  have fits := UInt32.toNat_lt_size last.value
  exact Nat.lt_of_le_of_lt (m := last.index) (by omega) fits

theorem linesThrough_self
    (line : LineId) :
    linesThrough line line = [line] := by
  refine map_index_inj ?_
  rw [linesThrough_places, Nat.add_sub_cancel_left]
  rfl

/-- The ways in which a search of the window ends. -/
inductive Searched
    (arena : Arena)
    (left right : LineId) :
    Except ArenaError (List LineId) →
    Prop where
  | found :
      left ∈ arena.active →
      right ∈ arena.active →
      left.index ≤ right.index →
      Searched arena left right (.ok (linesThrough left right))
  | leftGone :
      left ∉ arena.active →
      Searched arena left right (.error (.lineNotInWindow left))
  | rightGone :
      left ∈ arena.active →
      right ∉ arena.active →
      Searched arena left right (.error (.lineNotInWindow right))
  | inverted :
      left ∈ arena.active →
      right ∈ arena.active →
      right.index < left.index →
      Searched arena left right (.error (.invertedRange left right))

variable {arena : Arena} {left right : LineId}

theorem Searched.unique
    {first second : Except ArenaError (List LineId)}
    (one : arena.Searched left right first)
    (other : arena.Searched left right second) :
    first = second := by
  cases one <;> cases other <;> first | rfl | contradiction | omega

namespace WellFormed

theorem searched_found
    (wellFormed : arena.WellFormed)
    {block : List LineId}
    (found : arena.windowBetween left right = .ok block) :
    arena.Searched left right (.ok block) := by
  obtain ⟨inWindow, head, final⟩ := windowBetween_ok found
  obtain ⟨ordered, places⟩ := wellFormed.window_places found
  have shape : block = linesThrough left right :=
    map_index_inj (places.trans (linesThrough_places left right).symm)
  rw [shape]
  exact .found (inWindow.subset (List.mem_of_mem_head? head))
    (inWindow.subset (List.mem_of_getLast? final)) ordered

theorem searched_refused
    (wellFormed : arena.WellFormed)
    {error : ArenaError}
    (refused : arena.windowBetween left right = .error error) :
    arena.Searched left right (.error error) := by
  have begins : arena.active.dropWhile (· ≠ left) = [] ↔ left ∉ arena.active := by
    simp only [List.dropWhile_eq_nil_iff, decide_eq_true_eq]
    exact ⟨fun others member => others left member rfl,
      fun gone line member same => gone (same ▸ member)⟩
  have inverted :
      left ∈ arena.active → right ∈ arena.active → right.index < left.index := by
    intro leftKnown rightKnown
    refine Nat.lt_of_not_le fun inOrder => ?_
    obtain ⟨block, found⟩ :=
      windowBetween_succeeds wellFormed.window_increasing leftKnown rightKnown inOrder
    rw [refused] at found
    cases found
  unfold windowBetween at refused
  split at refused
  next empty =>
    cases refused
    exact .leftGone (begins.mp empty)
  next nonempty =>
    have leftKnown : left ∈ arena.active :=
      Decidable.not_not.mp (mt begins.mpr nonempty)
    split at refused
    · cases refused
    · split at refused
      next rightKnown =>
        cases refused
        exact .inverted leftKnown rightKnown (inverted leftKnown rightKnown)
      next rightGone =>
        cases refused
        exact .rightGone leftKnown rightGone

end WellFormed

/-- A search ends in the way that tells where the lines are. -/
theorem WellFormed.windowBetween_eq_iff
    (wellFormed : arena.WellFormed)
    {answer : Except ArenaError (List LineId)} :
    arena.windowBetween left right = answer ↔ arena.Searched left right answer := by
  have searched : arena.Searched left right (arena.windowBetween left right) := by
    cases search : arena.windowBetween left right with
    | ok block => exact wellFormed.searched_found search
    | error error => exact wellFormed.searched_refused search
  constructor
  · rintro rfl
    exact searched
  · exact searched.unique

end ShellCore.Arena
