import ShellCore.Evaluation.Machine

namespace ShellCore

/-!
# Relations that computations keep

A computation keeps a relation if the relation holds between the machine that it
starts from and the machine that it leaves, whatever its result is. A relation
that holds of doing nothing and of one thing after another is kept by whatever
is put together from computations that keep it.
-/

namespace Run

/-- A sequence of computations finishes if its first part does and then its second. -/
theorem bind_eq_some_iff
    {first : Run α}
    {next : α → Run β}
    {before after : Machine}
    {result : β} :
    (first >>= next) before = some (result, after) ↔
      ∃ answer between,
        first before = some (answer, between) ∧
          next answer between = some (result, after) := by
  change
    (first before).bind (fun reached => next reached.1 reached.2) =
        some (result, after) ↔ _
  rw [Option.bind_eq_some_iff]
  constructor
  · rintro ⟨⟨answer, between⟩, started, finished⟩
    exact ⟨answer, between, started, finished⟩
  · rintro ⟨answer, between, started, finished⟩
    exact ⟨⟨answer, between⟩, started, finished⟩

/-- The relation holds between the machines before and after every finished run. -/
def Keeps
    (relation : Machine → Machine → Prop)
    (computation : Run α) :
    Prop :=
  ∀ ⦃before after : Machine⦄ ⦃result : α⦄,
    computation before = some (result, after) →
    relation before after

end Run

namespace Eval

/-- Of two evaluations in sequence, an answer comes from the second after one of the first. -/
theorem bind_answers_iff
    {first : Eval α}
    {next : α → Eval β}
    {before after : Machine}
    {answer : β} :
    (first >>= next).run before = some (.ok answer, after) ↔
      ∃ middle between,
        first.run before = some (.ok middle, between) ∧
          (next middle).run between = some (.ok answer, after) := by
  rw [ExceptT.run_bind, Run.bind_eq_some_iff]
  constructor
  · rintro ⟨reached, between, started, ended⟩
    cases reached with
    | ok middle => exact ⟨middle, between, started, ended⟩
    | error error => cases ended
  · rintro ⟨middle, between, started, ended⟩
    exact ⟨.ok middle, between, started, ended⟩

/-- Two evaluations in sequence end with the error of the first or with the end of the second. -/
theorem bind_eq_some_iff
    {first : Eval α}
    {next : α → Eval β}
    {before after : Machine}
    {result : Except RuntimeError β} :
    (first >>= next).run before = some (result, after) ↔
      (∃ error, first.run before = some (.error error, after) ∧ result = .error error) ∨
        ∃ answer between,
          first.run before = some (.ok answer, between) ∧
            (next answer).run between = some (result, after) := by
  rw [ExceptT.run_bind, Run.bind_eq_some_iff]
  constructor
  · rintro ⟨reached, between, started, ended⟩
    cases reached with
    | ok answer => exact .inr ⟨answer, between, started, ended⟩
    | error error =>
        cases ended
        exact .inl ⟨error, started, rfl⟩
  · rintro (⟨error, failed, rfl⟩ | ⟨answer, between, started, ended⟩)
    · exact ⟨.error error, after, failed, rfl⟩
    · exact ⟨.ok answer, between, started, ended⟩

/-- What follows a look at the scope is given the scope of the machine that it starts from. -/
theorem run_scope_bind
    (next : Scope → Eval β)
    (machine : Machine) :
    (Eval.scope >>= next).run machine = (next machine.scope).run machine :=
  rfl

/-- The relation holds between the machines before and after every finished evaluation. -/
def Keeps
    (relation : Machine → Machine → Prop)
    (evaluation : Eval α) :
    Prop :=
  Run.Keeps relation evaluation.run

/-- An evaluation that acts on the host keeps what the action keeps. -/
theorem Keeps.onHost
    {relation : Machine → Machine → Prop}
    {inertAnswer : α}
    {action : MemoryHost → Except RuntimeError α × MemoryHost}
    (keeps : Run.Keeps relation (Run.onHost (.ok inertAnswer) action)) :
    Keeps relation (Eval.onHost inertAnswer action) :=
  keeps

theorem Keeps.ite
    {relation : Machine → Machine → Prop}
    {condition : Prop}
    [Decidable condition]
    {positive negative : Eval α}
    (positiveKeeps : Keeps relation positive)
    (negativeKeeps : Keeps relation negative) :
    Keeps relation (if condition then positive else negative) := by
  by_cases holds : condition
  · simpa only [holds, if_true] using positiveKeeps
  · simpa only [holds, if_false] using negativeKeeps

end Eval

/-- A relation that holds of doing nothing, and of one thing after another. -/
structure Composable
    (relation : Machine → Machine → Prop) :
    Prop where
  refl : ∀ machine, relation machine machine
  trans : ∀ {left middle right},
    relation left middle → relation middle right → relation left right

namespace Composable

variable {relation : Machine → Machine → Prop}
variable (composable : Composable relation)

include composable

theorem runPure
    (answer : α) :
    Run.Keeps relation (pure answer : Run α) := by
  intro before after result finished
  cases finished
  exact composable.refl before

theorem runBind
    {first : Run α}
    {next : α → Run β}
    (firstKeeps : Run.Keeps relation first)
    (nextKeeps : ∀ answer, Run.Keeps relation (next answer)) :
    Run.Keeps relation (first >>= next) := by
  intro before after result finished
  obtain ⟨answer, between, started, ended⟩ := Run.bind_eq_some_iff.mp finished
  exact composable.trans (firstKeeps started) (nextKeeps answer ended)

theorem pure
    (answer : α) :
    Eval.Keeps relation (pure answer : Eval α) := by
  intro before after result finished
  cases finished
  exact composable.refl before

theorem throw
    (error : RuntimeError) :
    Eval.Keeps relation (throw error : Eval α) := by
  intro before after result finished
  cases finished
  exact composable.refl before

/-- Of two evaluations in sequence, the second does not run after an error. -/
theorem bind
    {first : Eval α}
    {next : α → Eval β}
    (firstKeeps : Eval.Keeps relation first)
    (nextKeeps : ∀ answer, Eval.Keeps relation (next answer)) :
    Eval.Keeps relation (first >>= next) := by
  intro before after result finished
  rw [ExceptT.run_bind] at finished
  obtain ⟨reached, between, started, ended⟩ :=
    Run.bind_eq_some_iff.mp finished
  cases reached with
  | ok answer =>
      exact composable.trans (firstKeeps started) (nextKeeps answer ended)
  | error error =>
      cases ended
      exact firstKeeps started

/-- The second evaluation may be known to keep the relation only behind the first. -/
theorem bindFrom
    {first : Eval α}
    {next : α → Eval β}
    {before after : Machine}
    {result : Except RuntimeError β}
    (firstKeeps : Eval.Keeps relation first)
    (nextKeeps : ∀ answer between,
      first.run before = some (.ok answer, between) →
      (next answer).run between = some (result, after) →
      relation between after)
    (finished : (first >>= next).run before = some (result, after)) :
    relation before after := by
  rcases Eval.bind_eq_some_iff.mp finished with
    ⟨error, failed, -⟩ | ⟨answer, between, started, ended⟩
  · exact firstKeeps failed
  · exact composable.trans (firstKeeps started) (nextKeeps answer between started ended)

theorem scope :
    Eval.Keeps relation Eval.scope := by
  intro before after result finished
  cases finished
  exact composable.refl before

theorem ofExcept
    (wrap : ε → RuntimeError)
    (outcome : Except ε α) :
    Eval.Keeps relation (Eval.ofExcept wrap outcome) := by
  cases outcome with
  | ok answer => exact composable.pure answer
  | error error => exact composable.throw (wrap error)

theorem require
    (env : Env)
    (connection : Connection) :
    Eval.Keeps relation (Eval.require env connection) := by
  unfold Eval.require
  split
  · exact composable.pure ()
  · exact composable.throw _

/-- Evaluating the items of a list keeps what evaluating each of them keeps. -/
theorem each
    {evaluate : α → Eval β}
    {items : List α}
    (itemKeeps : ∀ item ∈ items, Eval.Keeps relation (evaluate item)) :
    Eval.Keeps relation (Eval.each evaluate items) := by
  induction items with
  | nil => exact composable.pure []
  | cons item rest inductionHypothesis =>
      refine composable.bind (itemKeeps item (.head rest)) fun answer => ?_
      refine composable.bind (inductionHypothesis fun other isLater => ?_) fun answers =>
        composable.pure (answer :: answers)
      exact itemKeeps other (.tail item isLater)

end Composable

end ShellCore
