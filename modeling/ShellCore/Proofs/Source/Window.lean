import ShellCore.Source.Extract

namespace ShellCore.Arena

/-!
# Blocks of the window

A block of the window is looked for line by line: its first line from the start
of the window, its last line from there on. What is found is a run of lines that
stand next to each other in the window.
-/

@[simp] theorem ok_bind
    (middle : α)
    (next : α → Except ArenaError β) :
    (Except.ok middle >>= next) = next middle :=
  rfl

theorem ok_of_toOption
    {outcome : Except ε α}
    {answer : α}
    (answers : outcome.toOption = some answer) :
    outcome = .ok answer := by
  cases outcome with
  | error error => cases answers
  | ok found => exact congrArg Except.ok (Option.some.inj answers)

/-- Steps in sequence have an answer if the first has one and then the second. -/
theorem bind_ok_iff
    {first : Except ArenaError α}
    {next : α → Except ArenaError β}
    {answer : β} :
    (first >>= next) = .ok answer ↔
      ∃ middle, first = .ok middle ∧ next middle = .ok answer := by
  cases first <;> simp [bind, Except.bind]

/-- They are refused where the first is, or the second after the first. -/
theorem bind_error_iff
    {first : Except ArenaError α}
    {next : α → Except ArenaError β}
    {error : ArenaError} :
    (first >>= next) = .error error ↔
      first = .error error ∨ ∃ middle, first = .ok middle ∧ next middle = .error error := by
  cases first <;> simp [bind, Except.bind]

/-- What only puts a value together is not refused. -/
theorem bind_value_error_iff
    {first : Except ArenaError α}
    {make : α → β}
    {error : ArenaError} :
    (first >>= fun value => .ok (make value)) = .error error ↔ first = .error error := by
  cases first <;> simp [bind, Except.bind]

theorem takeThrough?_ok
    {last : LineId}
    {lines taken : List LineId}
    (found : takeThrough? last lines = some taken) :
    ∃ inner later, taken = inner ++ [last] ∧ lines = taken ++ later := by
  induction lines generalizing taken with
  | nil =>
      simp [takeThrough?] at found
  | cons line rest inductionHypothesis =>
      by_cases isLast : line = last
      · simp only [takeThrough?, isLast, if_true, Option.some.injEq] at found
        subst found
        exact ⟨[], rest, rfl, by simp [isLast]⟩
      · simp only [takeThrough?, isLast, if_false, Option.map_eq_some_iff] at found
        obtain ⟨others, foundLater, rfl⟩ := found
        obtain ⟨inner, later, shape, split⟩ := inductionHypothesis foundLater
        refine ⟨line :: inner, later, ?_, ?_⟩
        · simp [shape]
        · simp [split]

/-- A block is a run of lines of the window that begins and ends as asked for. -/
theorem windowBetween_ok
    {arena : Arena}
    {left right : LineId}
    {block : List LineId}
    (found : arena.windowBetween left right = .ok block) :
    block <:+: arena.active ∧
      block.head? = some left ∧
        block.getLast? = some right := by
  unfold windowBetween at found
  split at found
  · cases found
  next nonempty =>
    split at found
    next through =>
      cases found
      obtain ⟨inner, later, shape, split⟩ := takeThrough?_ok through
      have suffix : arena.active.dropWhile (· ≠ left) <:+ arena.active :=
        List.dropWhile_suffix _
      have atLeft : (arena.active.dropWhile (· ≠ left)).head? = some left := by
        have stops := List.head?_dropWhile_not (· ≠ left) arena.active
        cases reached : arena.active.dropWhile (· ≠ left) with
        | nil =>
            exact absurd reached nonempty
        | cons first rest =>
            rw [reached] at stops
            simpa using stops
      rw [split] at suffix atLeft
      refine ⟨(List.prefix_append block later).isInfix.trans suffix.isInfix, ?_, ?_⟩
      · cases block with
        | nil => exact absurd shape (by simp)
        | cons first rest => simpa using atLeft
      · simp [shape]
    next =>
      split at found <;> cases found

/-- A snippet is taken from a block of the window. -/
theorem windowBetween_of_snippet
    {arena : Arena}
    {left right : SpanId}
    {first last : Token}
    {text : String}
    (firstFound : arena.token left = .ok first)
    (lastFound : arena.token right = .ok last)
    (taken : arena.snippet left right = .ok text) :
    ∃ block, arena.windowBetween first.line last.line = .ok block := by
  rw [snippet, firstFound, ok_bind, lastFound, ok_bind] at taken
  obtain ⟨block, found, _⟩ := bind_ok_iff.mp taken
  exact ⟨block, found⟩

theorem takeThrough?_succeeds
    {last : LineId}
    {lines : List LineId}
    (member : last ∈ lines) :
    ∃ taken, takeThrough? last lines = some taken := by
  induction lines with
  | nil => cases member
  | cons line rest inductionHypothesis =>
      by_cases isLast : line = last
      · exact ⟨[line], if_pos isLast⟩
      · obtain ⟨taken, found⟩ :=
          inductionHypothesis ((List.mem_cons.mp member).resolve_left (Ne.symm isLast))
        exact ⟨line :: taken, by rw [takeThrough?, if_neg isLast, found, Option.map_some]⟩

/-- There is a block between two lines of a window whose handles increase. -/
theorem windowBetween_succeeds
    {arena : Arena}
    {left right : LineId}
    (increasing : arena.active.Pairwise fun earlier later => earlier.index < later.index)
    (leftKnown : left ∈ arena.active)
    (rightKnown : right ∈ arena.active)
    (inOrder : left.index ≤ right.index) :
    ∃ block, arena.windowBetween left right = .ok block := by
  obtain ⟨earlier, later, window⟩ := List.append_of_mem leftKnown
  rw [window] at increasing rightKnown
  have smaller : ∀ line ∈ earlier, line.index < left.index := fun line member =>
    (List.pairwise_append.mp increasing).2.2 line member left List.mem_cons_self
  have found : arena.active.dropWhile (· ≠ left) = left :: later := by
    rw [window, List.dropWhile_append_of_pos]
    · simp
    · intro line member
      rw [decide_eq_true_eq]
      rintro rfl
      exact Nat.lt_irrefl _ (smaller line member)
  have behind : right ∈ left :: later := by
    refine (List.mem_append.mp rightKnown).resolve_left fun member => ?_
    exact Nat.not_le_of_lt (smaller right member) inOrder
  obtain ⟨block, taken⟩ := takeThrough?_succeeds behind
  refine ⟨block, ?_⟩
  rw [windowBetween, found]
  dsimp only
  rw [taken]

end ShellCore.Arena
