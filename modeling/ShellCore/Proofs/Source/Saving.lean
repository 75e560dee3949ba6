import ShellCore.Proofs.Source.WindowSearch

namespace ShellCore.Arena

/-!
# Saving a block

A block of the window is saved as a whole or not at all. What is saved is every
line from the left token's to the right token's, whether or not a token stands
on it; and what is refused is refused for the reason that its error gives.
-/

/-- Why there is no token under a handle. -/
inductive BadSpan
    (arena : Arena)
    (span : SpanId) :
    ArenaError →
    Prop where
  | none :
      span = .none →
      BadSpan arena span .noSpan
  | unallocated :
      span ≠ .none →
      arena.tokens.size ≤ span.index →
      BadSpan arena span (.spanOutOfRange span arena.tokens.size)

/-- What comes of saving a block, and the arena that is left. -/
inductive Saving
    (arena : Arena)
    (left right : SpanId) :
    Except ArenaError Nat × Arena →
    Prop where
  | saved {first last : Token} :
      arena.token left = .ok first →
      arena.token right = .ok last →
      first.line ∈ arena.active →
      last.line ∈ arena.active →
      first.line.index ≤ last.line.index →
      Saving arena left right
        (.ok (linesThrough first.line last.line).length,
          { arena with
            saved := arena.saved ++ linesThrough first.line last.line
            active := [] })
  | badLeft {error : ArenaError} :
      arena.BadSpan left error →
      Saving arena left right (.error error, arena)
  | badRight {first : Token} {error : ArenaError} :
      arena.token left = .ok first →
      arena.BadSpan right error →
      Saving arena left right (.error error, arena)
  | noBlock {first last : Token} {error : ArenaError} :
      arena.token left = .ok first →
      arena.token right = .ok last →
      arena.Searched first.line last.line (.error error) →
      Saving arena left right (.error error, arena)

variable {arena : Arena} {left right : SpanId}

theorem token_error_iff
    {span : SpanId}
    {error : ArenaError} :
    arena.token span = .error error ↔ arena.BadSpan span error := by
  unfold Arena.token
  constructor
  · intro refused
    split at refused
    next isNone =>
      cases refused
      exact .none (of_decide_eq_true isNone)
    next isSome =>
      split at refused
      · cases refused
      next missing =>
        cases refused
        exact .unallocated (fun same => isSome (decide_eq_true same))
          (Array.getElem?_eq_none_iff.mp missing)
  · intro bad
    cases bad with
    | none isNone => simp [SpanId.isNone, isNone]
    | unallocated isSome beyond =>
        simp [SpanId.isNone, isSome, Array.getElem?_eq_none beyond]

theorem WellFormed.saving
    (wellFormed : arena.WellFormed)
    (left right : SpanId) :
    arena.Saving left right (arena.saveBlock left right) := by
  unfold Arena.saveBlock Arena.blockBetween
  cases firstFound : arena.token left with
  | error error => exact .badLeft (token_error_iff.mp firstFound)
  | ok first =>
      cases lastFound : arena.token right with
      | error error => exact .badRight firstFound (token_error_iff.mp lastFound)
      | ok last =>
          rw [ok_bind, ok_bind]
          have searched := wellFormed.windowBetween_eq_iff.mp
            (rfl : arena.windowBetween first.line last.line = _)
          cases search : arena.windowBetween first.line last.line with
          | error error =>
              rw [search] at searched
              exact .noBlock firstFound lastFound searched
          | ok block =>
              rw [search] at searched
              cases searched with
              | found firstKnown lastKnown inOrder =>
                  exact .saved firstFound lastFound firstKnown lastKnown inOrder

theorem WellFormed.saveBlock_of_saving
    (wellFormed : arena.WellFormed)
    {answer : Except ArenaError Nat × Arena}
    (saving : arena.Saving left right answer) :
    arena.saveBlock left right = answer := by
  unfold Arena.saveBlock Arena.blockBetween
  cases saving with
  | badLeft bad =>
      rw [token_error_iff.mpr bad]
      rfl
  | badRight firstFound bad =>
      rw [firstFound, ok_bind, token_error_iff.mpr bad]
      rfl
  | noBlock firstFound lastFound searched =>
      rw [firstFound, ok_bind, lastFound, ok_bind, wellFormed.windowBetween_eq_iff.mpr searched]
  | saved firstFound lastFound firstKnown lastKnown inOrder =>
      have searched := wellFormed.windowBetween_eq_iff.mpr (.found firstKnown lastKnown inOrder)
      rw [firstFound, ok_bind, lastFound, ok_bind, searched]

/--
A block is saved exactly if both tokens are there, on lines of the window and in
order. The log then goes on with every line from the one to the other, the
window is empty and all else is as it was. Otherwise the arena stays as it is,
and the error names what is missing or that the order is wrong.
-/
theorem saving_is_exact_and_atomic
    (reachable : arena.Reachable)
    (left right : SpanId) :
    ((∃ count, (arena.saveBlock left right).1 = .ok count) ↔
      ∃ first last,
        arena.token left = .ok first ∧
          arena.token right = .ok last ∧
            first.line ∈ arena.active ∧
              last.line ∈ arena.active ∧
                first.line.index ≤ last.line.index) ∧
    (∀ answer, arena.saveBlock left right = answer ↔ arena.Saving left right answer) ∧
    ∀ error,
      (arena.saveBlock left right).1 = .error error →
      arena.attempt (.saveBlock left right) = arena := by
  have wellFormed := reachable.wellFormed
  have exactly : ∀ answer,
      arena.saveBlock left right = answer ↔ arena.Saving left right answer := by
    intro answer
    refine ⟨?_, wellFormed.saveBlock_of_saving⟩
    rintro rfl
    exact wellFormed.saving left right
  refine ⟨⟨?_, ?_⟩, exactly, ?_⟩
  · rintro ⟨count, saved⟩
    have saving := wellFormed.saving left right
    generalize arena.saveBlock left right = answer at saved saving
    cases saving with
    | saved firstFound lastFound firstKnown lastKnown inOrder =>
        exact ⟨_, _, firstFound, lastFound, firstKnown, lastKnown, inOrder⟩
    | badLeft | badRight | noBlock => cases saved
  · rintro ⟨first, last, firstFound, lastFound, firstKnown, lastKnown, inOrder⟩
    rw [(exactly _).mpr (.saved firstFound lastFound firstKnown lastKnown inOrder)]
    exact ⟨_, rfl⟩
  · intro error refused
    exact saveBlock_refused (Prod.ext refused rfl)

/-- A block with a line on which no token stands. -/
def commentedBlock : List Operation :=
  [.openSource .interactive,
    .addLine "a \x7b\n" 1,
    .addToken .leftBrace 2 1 ⟨0⟩ "\x7b",
    .addLine "# b\n" 2,
    .addLine "\x7d\n" 3,
    .addToken .rightBrace 0 1 ⟨2⟩ "\x7d"]

theorem commentedBlock_is_saved_whole :
    (ofHistory commentedBlock).Reachable ∧
      (ofHistory commentedBlock).saveBlock ⟨0⟩ ⟨1⟩ =
        (.ok 3, { ofHistory commentedBlock with saved := [⟨0⟩, ⟨1⟩, ⟨2⟩], active := [] }) ∧
        (ofHistory commentedBlock).saveBlock ⟨1⟩ ⟨0⟩ =
            (.error (.invertedRange ⟨2⟩ ⟨0⟩), ofHistory commentedBlock) ∧
          (ofHistory commentedBlock).attempt (.saveBlock ⟨1⟩ ⟨0⟩) = ofHistory commentedBlock := by
  have reachable : (ofHistory commentedBlock).Reachable := ⟨commentedBlock, rfl⟩
  have leftFound : (ofHistory commentedBlock).token ⟨0⟩ =
      .ok ⟨.leftBrace, 2, 1, ⟨0⟩, ⟨0⟩, "\x7b"⟩ :=
    ok_of_toOption (by decide +kernel)
  have rightFound : (ofHistory commentedBlock).token ⟨1⟩ =
      .ok ⟨.rightBrace, 0, 1, ⟨2⟩, ⟨1⟩, "\x7d"⟩ :=
    ok_of_toOption (by decide +kernel)
  have window : (ofHistory commentedBlock).active = [⟨0⟩, ⟨1⟩, ⟨2⟩] := by decide +kernel
  have leftKnown : ⟨0⟩ ∈ (ofHistory commentedBlock).active := by simp [window]
  have rightKnown : ⟨2⟩ ∈ (ofHistory commentedBlock).active := by simp [window]
  obtain ⟨_, forth, _⟩ := saving_is_exact_and_atomic reachable ⟨0⟩ ⟨1⟩
  obtain ⟨_, back, unchanged⟩ := saving_is_exact_and_atomic reachable ⟨1⟩ ⟨0⟩
  have saved := (forth _).mpr (.saved leftFound rightFound leftKnown rightKnown (by decide))
  have refused := (back _).mpr
    (.noBlock rightFound leftFound (.inverted rightKnown leftKnown (by decide)))
  exact ⟨reachable, saved, refused, unchanged _ (congrArg Prod.fst refused)⟩

end ShellCore.Arena
