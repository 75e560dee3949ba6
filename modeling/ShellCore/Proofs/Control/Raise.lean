import ShellCore.Proofs.Control.Site
import ShellCore.Proofs.Evaluation.Keeping

namespace ShellCore

/-!
# The signal of a control statement

A control statement raises a signal with its own keyword and token. The level of
a loop signal is the integer that the argument writes, which is at least one.
-/

namespace Control

variable {below : Evaluator} {env : Env}
variable {keyword : ControlKeyword} {argument : Option ControlArgument} {token : SpanId}
variable {before after : Machine} {raised : ControlSignal}

/-- A control statement raises the signal that its argument asks for. -/
theorem execute_raise
    (finished :
      (execute below env keyword argument token).run before =
        some (.ok (.raise raised), after)) :
    ∃ between,
      (signal below env keyword argument token).run before =
        some (.ok raised, between) := by
  obtain ⟨asked, between, answered, traced⟩ := Eval.bind_answers_iff.mp finished
  obtain ⟨_, _, _, shown⟩ := Eval.bind_answers_iff.mp traced
  obtain ⟨_, _, _, returned⟩ := Eval.bind_answers_iff.mp shown
  cases returned
  exact ⟨between, answered⟩

theorem ofExcept_answers
    {outcome : Except RuntimeError α}
    {answer : α}
    (finished : (Eval.ofExcept id outcome).run before = some (.ok answer, after)) :
    outcome = .ok answer := by
  cases outcome with
  | ok given =>
      cases finished
      rfl
  | error error =>
      cases finished

/-- A loop signal has the keyword and the level that it is asked for, and the level is not zero. -/
theorem loopSignal_ok
    {level : Int64}
    (loops : keyword ≠ .returnCall)
    (accepted : loopSignal keyword level token = .ok raised) :
    raised.keyword = keyword ∧
      raised.token = token ∧
        raised.level? = some level.toInt ∧
          raised.Crosses 0 raised := by
  unfold loopSignal at accepted
  split at accepted
  next bounds =>
    obtain ⟨positive, bounded⟩ := bounds
    have size : UInt32.size = 4294967296 := rfl
    have exact : (UInt32.ofNat level.toInt.toNat).toNat = level.toInt.toNat :=
      UInt32.toNat_ofNat_of_lt' (by omega)
    have level_eq : ((UInt32.ofNat level.toInt.toNat).toNat : Int) = level.toInt := by
      rw [exact]
      omega
    cases keyword with
    | breakLoop =>
        cases accepted
        exact ⟨rfl, rfl, congrArg some level_eq, .breakLoop (by omega) rfl⟩
    | continueLoop =>
        cases accepted
        exact ⟨rfl, rfl, congrArg some level_eq, .continueLoop (by omega) rfl⟩
    | returnCall =>
        exact absurd rfl loops
  · cases accepted

/-- The argument of a loop keyword is the integer that its word writes. -/
theorem numericArgument_answers
    {word : Word}
    {value : Int64}
    (finished :
      (numericArgument below env keyword word token).run before =
        some (.ok value, after)) :
    ∃ text start between,
      (below.word env word).run start = some (.ok text, between) ∧
        Text.readInt64? (Text.trim text) = some value := by
  obtain ⟨_, start, _, required⟩ := Eval.bind_answers_iff.mp finished
  obtain ⟨text, between, evaluated, read⟩ := Eval.bind_answers_iff.mp required
  refine ⟨text, start, between, evaluated, ?_⟩
  split at read
  next number written =>
    cases read
    exact written
  · cases read

/-- A signal has the keyword and the token of its statement, and is not spent. -/
theorem signal_answers
    (answered :
      (signal below env keyword argument token).run before =
        some (.ok raised, after)) :
    raised.keyword = keyword ∧ raised.token = token ∧ raised.Crosses 0 raised := by
  unfold signal at answered
  split at answered
  · obtain ⟨_, _, _, required⟩ := Eval.bind_answers_iff.mp answered
    obtain ⟨_, _, _, returned⟩ := Eval.bind_answers_iff.mp required
    cases returned
    exact ⟨rfl, rfl, .returnCall⟩
  · cases answered
  · obtain ⟨_, _, _, returned⟩ := Eval.bind_answers_iff.mp answered
    cases returned
    exact ⟨rfl, rfl, .returnCall⟩
  · obtain ⟨_, _, _, returned⟩ := Eval.bind_answers_iff.mp answered
    cases returned
    exact ⟨rfl, rfl, .returnCall⟩
  next word loops =>
    obtain ⟨level, _, _, accepted⟩ := Eval.bind_answers_iff.mp answered
    obtain ⟨same, place, _, unspent⟩ :=
      loopSignal_ok loops (ofExcept_answers accepted)
    exact ⟨same, place, unspent⟩
  next loops =>
    obtain ⟨same, place, _, unspent⟩ :=
      loopSignal_ok loops (ofExcept_answers answered)
    exact ⟨same, place, unspent⟩

/-- The level of a loop signal is one without an argument. -/
theorem signal_none_level
    (loops : keyword ≠ .returnCall)
    (answered :
      (signal below env keyword none token).run before = some (.ok raised, after)) :
    raised.level? = some 1 := by
  have accepted : loopSignal keyword 1 token = .ok raised := by
    cases keyword with
    | breakLoop => exact ofExcept_answers answered
    | continueLoop => exact ofExcept_answers answered
    | returnCall => exact absurd rfl loops
  obtain ⟨_, _, asked, _⟩ := loopSignal_ok loops accepted
  exact asked

/-- The level of a loop signal is the integer that its word evaluates to. -/
theorem signal_status_level
    {word : Word}
    (loops : keyword ≠ .returnCall)
    (answered :
      (signal below env keyword (some (.status word)) token).run before =
        some (.ok raised, after)) :
    ∃ text value start between,
      (below.word env word).run start = some (.ok text, between) ∧
        Text.readInt64? (Text.trim text) = some value ∧
          raised.level? = some value.toInt := by
  have accepted :
      ((numericArgument below env keyword word token >>= fun level =>
        Eval.ofExcept id (loopSignal keyword level token)).run before) =
          some (.ok raised, after) := by
    cases keyword with
    | breakLoop => exact answered
    | continueLoop => exact answered
    | returnCall => exact absurd rfl loops
  obtain ⟨level, reached, numeric, settled⟩ := Eval.bind_answers_iff.mp accepted
  obtain ⟨text, start, between, evaluated, written⟩ := numericArgument_answers numeric
  obtain ⟨_, _, asked, _⟩ := loopSignal_ok loops (ofExcept_answers settled)
  exact ⟨text, level, start, between, evaluated, written, asked⟩

end Control

end ShellCore
