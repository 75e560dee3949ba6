import ShellCore.Proofs.Control.Nest

namespace ShellCore

/-!
# Unwinding nested loops

A signal of level n ends the n innermost loops of a nest that is deep enough, where
a continue only goes on with the last of them. It ends a nest that is not, and is
raised behind it with what is left of its level.
-/

variable {env : Env} {body : List Command} {target : Level} {outer inside levels : List Level}
variable {before entry start landed after : Machine}
variable {result : Except RuntimeError ControlFlow}
variable {signal : ControlSignal}

/--
A loop of a nest ended, and from there the commands behind it and the loops around it
end with a result and leave a machine behind.
-/
def ResumesBehind
    (env : Env)
    (body : List Command)
    (target : Level)
    (inside outer : List Level)
    (looped : Except RuntimeError ControlFlow)
    (closed : Machine)
    (result : Except RuntimeError ControlFlow)
    (after : Machine) :
    Prop :=
  ∃ reached between,
    (Task.resume (CommandList.goOn env target.later) looped).Ends closed reached between ∧
      Resumes env (nest body (target :: inside)) reached between outer result after

/-- A nest ends as it does from where one of its loops ended. -/
theorem Entered.executesFrom_iff_behind
    (entered : Entered env outer before entry) :
    ExecutesFrom env .ok (nest body (outer ++ target :: inside)) before result after ↔
      ∃ looped closed,
        Executes env (target.loop.withBody (nest body inside)) entry looped closed ∧
          ResumesBehind env body target inside outer looped closed result after := by
  rw [nest_append, entered.executesFrom_iff]
  simp only [ResumesBehind, nest, executesFrom_cons_iff]
  constructor
  · rintro ⟨reached, between, ⟨looped, closed, ran, later⟩, around⟩
    exact ⟨looped, closed, ran, reached, between, later, around⟩
  · rintro ⟨looped, closed, ran, reached, between, later, around⟩
    exact ⟨reached, between, ⟨looped, closed, ran, later⟩, around⟩

/-- A signal that has one level more than there are loops inside reaches their outer loop. -/
theorem ControlSignal.Crosses.exists_last
    {depth : Nat}
    (asked : signal.level? = some ((depth : Int) + 1)) :
    ∃ inner,
      signal.Crosses depth inner ∧ inner.keyword = signal.keyword ∧ inner.level? = some 1 := by
  have crossed : (depth : Int) < depth + 1 := by omega
  have left : (depth : Int) + 1 - depth = 1 := by omega
  obtain ⟨inner, crosses⟩ := exists_of_lt asked crossed
  have last := (crosses.level asked).2
  rw [left] at last
  exact ⟨inner, crosses, crosses.keyword, last⟩

/-- The loop that a break is for ends with success, as soon as the loops in it are left. -/
theorem Entered.executes_of_break
    (entered : Entered env (target :: inside) entry start)
    (raised : ExecutesFrom env .ok body start (.ok (.raise signal)) landed)
    (isBreak : signal.keyword = .breakLoop)
    (asked : signal.level? = some ((inside.length : Int) + 1)) :
    Executes env (target.loop.withBody (nest body inside)) entry result after ↔
      result = .ok (.normal 0) ∧
        after = (leaveAll (target :: inside) landed).keepStatus result := by
  obtain ⟨inner, crosses, sameKeyword, last⟩ := ControlSignal.Crosses.exists_last asked
  have leaves := LoopStep.ofFlow_break (sameKeyword.trans isBreak) last
  simp only [entered.executes_iff raised crosses, OpenLoop.afterRound, leaves, Task.ends_pure_iff,
    leaveAll]
  constructor
  · rintro ⟨_, ⟨rfl, rfl⟩, rfl⟩
    exact ⟨rfl, rfl⟩
  · rintro ⟨rfl, rfl⟩
    exact ⟨_, ⟨rfl, rfl⟩, rfl⟩

/-- The loop that a continue is for goes on, as soon as the loops in it are left. -/
theorem Entered.executes_of_continue
    (entered : Entered env (target :: inside) entry start)
    (raised : ExecutesFrom env .ok body start (.ok (.raise signal)) landed)
    (isContinue : signal.keyword = .continueLoop)
    (asked : signal.level? = some ((inside.length : Int) + 1)) :
    Executes env (target.loop.withBody (nest body inside)) entry result after ↔
      ∃ closed,
        (target.loop.goOn env (nest body inside) 0).Ends (leaveAll inside landed) result closed ∧
          after = (target.loop.leave closed).keepStatus result := by
  obtain ⟨inner, crosses, sameKeyword, last⟩ := ControlSignal.Crosses.exists_last asked
  have resumes := LoopStep.ofFlow_continue (sameKeyword.trans isContinue) last
  simp only [entered.executes_iff raised crosses, OpenLoop.afterRound, resumes]

/-- A level that is not greater than the number of loops counts to one of them. -/
theorem exists_target
    {level : Int}
    (positive : 1 ≤ level)
    (atMost : level ≤ levels.length) :
    ∃ outer target inside,
      levels = outer ++ target :: inside ∧ level = (inside.length : Int) + 1 := by
  induction levels with
  | nil =>
      rw [List.length_nil] at atMost
      omega
  | cons first rest inductionHypothesis =>
      rw [List.length_cons] at atMost
      by_cases inRest : level ≤ rest.length
      · obtain ⟨outer, target, inside, split, reached⟩ := inductionHypothesis inRest
        exact ⟨first :: outer, target, inside, congrArg (first :: ·) split, reached⟩
      · exact ⟨[], first, rest, rfl, by omega⟩

/--
A signal that was raised in the innermost body unwinds a nest to one of its loops: the
loop ends as the signal asks for, as soon as those inside are left, and the nest goes
on behind it.
-/
structure UnwindsTo
    (env : Env)
    (body : List Command)
    (signal : ControlSignal)
    (before landed : Machine)
    (outer : List Level)
    (target : Level)
    (inside : List Level)
    (entry : Machine) :
    Prop where
  entered : Entered env outer before entry
  goesOn : ∀ {result : Except RuntimeError ControlFlow} {after : Machine},
    ExecutesFrom env .ok (nest body (outer ++ target :: inside)) before result after ↔
      ∃ looped closed,
        Executes env (target.loop.withBody (nest body inside)) entry looped closed ∧
          ResumesBehind env body target inside outer looped closed result after
  /-- The loop that a break is for ends with success. -/
  breaks : signal.keyword = .breakLoop →
    ∀ {looped : Except RuntimeError ControlFlow} {closed : Machine},
      Executes env (target.loop.withBody (nest body inside)) entry looped closed ↔
        looped = .ok (.normal 0) ∧
          closed = (leaveAll (target :: inside) landed).keepStatus looped
  /-- The loop that a continue is for goes on to its next item or its condition. -/
  continues : signal.keyword = .continueLoop →
    ∀ {looped : Except RuntimeError ControlFlow} {closed : Machine},
      Executes env (target.loop.withBody (nest body inside)) entry looped closed ↔
        ∃ ended,
          (target.loop.goOn env (nest body inside) 0).Ends (leaveAll inside landed) looped ended ∧
            closed = (target.loop.leave ended).keepStatus looped

/--
When the innermost body of a nest raises a signal in its first round, a return ends
the nest as it is, and so does what is left of a level greater than the number of
loops. With another level the nest unwinds to the loop that the level counts to.
-/
theorem nested_loops_unwind
    (entered : Entered env levels before start)
    (raised : ExecutesFrom env .ok body start (.ok (.raise signal)) landed) :
    (signal.isReturn = true →
      ExecutesFrom env .ok (nest body levels) before (.ok (.raise signal))
        (leaveAll levels landed)) ∧
    (∀ {level : Int},
      signal.level? = some level →
      levels.length < level →
      ∃ passed : ControlSignal,
        passed.keyword = signal.keyword ∧
          passed.token = signal.token ∧
            passed.level? = some (level - levels.length) ∧
              ExecutesFrom env .ok (nest body levels) before (.ok (.raise passed))
                (leaveAll levels landed)) ∧
    ∀ {level : Int},
      signal.level? = some level →
      1 ≤ level →
      level ≤ levels.length →
      ∃ outer target inside entry,
        levels = outer ++ target :: inside ∧
          level = (inside.length : Int) + 1 ∧
            UnwindsTo env body signal before landed outer target inside entry := by
  refine ⟨?_, ?_, ?_⟩
  · intro isReturn
    exact entered.executesFrom_of_crosses raised (.of_isReturn isReturn)
  · intro level asked exceeds
    obtain ⟨passed, crosses⟩ := ControlSignal.Crosses.exists_of_lt asked exceeds
    exact ⟨passed, crosses.keyword, crosses.token, (crosses.level asked).2,
      entered.executesFrom_of_crosses raised crosses⟩
  · intro level asked positive atMost
    obtain ⟨outer, target, inside, rfl, rfl⟩ := exists_target positive atMost
    obtain ⟨entry, outerEntered, insideEntered⟩ := entered.split
    refine ⟨outer, target, inside, entry, rfl, rfl, ?_⟩
    exact
      { entered := outerEntered
        goesOn := outerEntered.executesFrom_iff_behind
        breaks := fun isBreak => insideEntered.executes_of_break raised isBreak asked
        continues := fun isContinue =>
          insideEntered.executes_of_continue raised isContinue asked }

/-- A loop under a condition that holds, in a loop over two items, with a command behind each. -/
def mixedLoops : List Level :=
  [⟨.items "x" [.literal "a", .literal "b"] ["b"], [.simple [.literal "echo"] ⟨1⟩]⟩,
    ⟨.rounds (.run (.sequence [])) false, [.simple [.literal "never"] ⟨2⟩]⟩]

/-- A statement that breaks two loops. -/
def breakTwo : List Command :=
  [.control .breakLoop (some (.status (.literal "2"))) ⟨4⟩]

/-- A break of two levels ends both loops with success, with the second item left. -/
theorem break_two_leaves_mixed_loops :
    ∃ start landed after,
      Entered .connected mixedLoops .fresh start ∧
        ExecutesFrom .connected .ok breakTwo start (.ok (.raise (.breakLoops 2 ⟨4⟩))) landed ∧
          Executes .connected
            (.forEach "x" [.literal "a", .literal "b"]
              [.loop ⟨.run (.sequence []), breakTwo, false⟩, .simple [.literal "never"] ⟨2⟩])
            .fresh (.ok (.normal 0)) after := by
  have entered :
      ∃ start landed,
        Entered .connected mixedLoops .fresh start ∧
          ExecutesFrom .connected .ok breakTwo start (.ok (.raise (.breakLoops 2 ⟨4⟩))) landed :=
    ⟨_, _,
      .loop (.items (by decide) (by decide) ⟨3, rfl⟩) (.loop (.rounds ⟨3, rfl⟩ (by decide)) .body),
      5, rfl⟩
  obtain ⟨start, landed, entered, raised⟩ := entered
  obtain ⟨_, _, unwinds⟩ := nested_loops_unwind entered raised
  obtain ⟨outer, target, inside, entry, split, counted, unwindsTo⟩ :=
    @unwinds 2 rfl (by decide) (by decide)
  have outermost : outer = [] := by
    have lengths := congrArg List.length split
    rw [List.length_append, List.length_cons] at lengths
    change 2 = outer.length + (inside.length + 1) at lengths
    exact List.length_eq_zero_iff.mp (by omega)
  obtain rfl := outermost
  cases split
  cases unwindsTo.entered
  exact ⟨start, landed, _, entered, raised, (unwindsTo.breaks rfl).mpr ⟨rfl, rfl⟩⟩

end ShellCore
