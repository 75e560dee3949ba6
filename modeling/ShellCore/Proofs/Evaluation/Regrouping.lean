import ShellCore.Proofs.Evaluation.Task

namespace ShellCore

/-!
# Regrouping

A chain goes on with its right command or ends as its left one does, and a list goes
on with its later commands unless an earlier one raised a signal or failed. What a
command ends with is left as the last status already, so a chain or a list around it
that leaves the same status once more leaves nothing else behind. Hence chains of one
operator can be grouped in any way, and so can the end of a list.
-/

variable {env : Env} {before between after : Machine}
variable {result reached : Except RuntimeError ControlFlow}

/-- To keep a status twice is to keep it once. -/
@[simp] theorem Machine.keepStatus_keepStatus
    (machine : Machine)
    (result : Except RuntimeError ControlFlow) :
    (machine.keepStatus result).keepStatus result = machine.keepStatus result := by
  rcases result with error | (status | signal) <;> rfl

/-- A command leaves its status behind, so there is nothing left to keep. -/
theorem Executes.keepStatus
    {command : Command}
    (executes : Executes env command before result after) :
    after.keepStatus result = after := by
  obtain ⟨ended, -, rfl⟩ := executes_iff.mp executes
  exact ended.keepStatus_keepStatus result

namespace ControlFlow

/-- Whether a command ended with success. -/
def succeeded :
    ControlFlow →
    Bool
  | .normal status => status = 0
  | .raise _ => false

/-- Whether a command ended with a status other than success. -/
def failed :
    ControlFlow →
    Bool
  | .normal status => status ≠ 0
  | .raise _ => false

end ControlFlow

namespace Chain

/-- What a chain does behind its left command: the right one, if the left one asks for it. -/
def goOn
    (env : Env)
    (goesOn : ControlFlow → Bool)
    (right : Command)
    (flow : ControlFlow) :
    Task ControlFlow :=
  if goesOn flow then fun below => below.command env right else fun _ => pure flow

theorem goOn_stable
    (env : Env)
    (goesOn : ControlFlow → Bool)
    (right : Command)
    (flow : ControlFlow) :
    (goOn env goesOn right flow).Stable := by
  unfold goOn
  split
  · exact .request env (.command right)
  · exact .const _

/-- The right command of a chain runs where the left one asks for it, and else nothing does. -/
inductive Continues
    (env : Env)
    (goesOn : ControlFlow → Bool)
    (right : Command)
    (reached : Except RuntimeError ControlFlow)
    (between : Machine) :
    Except RuntimeError ControlFlow →
    Machine →
    Prop where
  | further {result : Except RuntimeError ControlFlow} {after : Machine} :
      reached.toOption.any goesOn = true →
      Executes env right between result after →
      Continues env goesOn right reached between result after
  | done :
      reached.toOption.any goesOn = false →
      Continues env goesOn right reached between reached between

variable {goesOn : ControlFlow → Bool} {left right first second third : Command}

theorem continues_iff_of_goesOn
    (goes : reached.toOption.any goesOn = true) :
    Continues env goesOn right reached between result after ↔
      Executes env right between result after := by
  constructor
  · rintro (⟨-, executes⟩ | stops)
    · exact executes
    · cases goes.symm.trans stops
  · exact .further goes

theorem continues_iff_of_done
    (stops : reached.toOption.any goesOn = false) :
    Continues env goesOn right reached between result after ↔
      result = reached ∧ after = between := by
  constructor
  · rintro (⟨goes, -⟩ | -)
    · cases goes.symm.trans stops
    · exact ⟨rfl, rfl⟩
  · rintro ⟨rfl, rfl⟩
    exact .done stops

/-- What is left of a chain is a task that ends as the chain continues. -/
theorem ends_resume_goOn_iff :
    (Task.resume (goOn env goesOn right) reached).Ends between result after ↔
      Continues env goesOn right reached between result after := by
  rcases goes : reached.toOption.any goesOn with _ | _
  · rw [continues_iff_of_done goes]
    rcases reached with error | flow
    · constructor
      · rintro ⟨_, finished⟩
        cases finished
        exact ⟨rfl, rfl⟩
      · rintro ⟨rfl, rfl⟩
        exact ⟨0, rfl⟩
    · have stops : goesOn flow = false := goes
      simp only [Task.resume, goOn, stops]
      exact Task.ends_pure_iff
  · rw [continues_iff_of_goesOn goes]
    rcases reached with error | flow
    · cases goes
    · have continues : goesOn flow = true := goes
      simp only [Task.resume, goOn, continues]
      exact Iff.rfl

/--
A command that is its left command and then, maybe, its right one. Its own status is
that of the one that ran last, which has left it already.
-/
theorem executes_iff_continues
    {command : Command}
    (isChain : ∀ below,
      Commands.run below env command =
        below.command env left >>= fun flow => goOn env goesOn right flow below) :
    Executes env command before result after ↔
      ∃ reached between,
        Executes env left before reached between ∧
          Continues env goesOn right reached between result after := by
  have ends_iff :
      ∀ ended,
        Task.Ends (fun below => Commands.run below env command) before result ended ↔
          ∃ reached between,
            Executes env left before reached between ∧
              Continues env goesOn right reached between result ended := by
    intro ended
    simp only [isChain, ← ends_resume_goOn_iff]
    exact Task.ends_bind_iff (.request env (.command left)) (goOn_stable env goesOn right)
  -- whichever command ran last has left the status of the chain behind
  have keeps :
      ∀ {reached between ended},
        Executes env left before reached between →
        Continues env goesOn right reached between result ended →
        ended.keepStatus result = ended := by
    rintro reached between ended executes (⟨-, further⟩ | -)
    · exact further.keepStatus
    · exact executes.keepStatus
  rw [executes_iff]
  constructor
  · rintro ⟨ended, ends, rfl⟩
    obtain ⟨reached, between, executes, continues⟩ := (ends_iff ended).mp ends
    rw [keeps executes continues]
    exact ⟨reached, between, executes, continues⟩
  · rintro ⟨reached, between, executes, continues⟩
    exact ⟨after, (ends_iff after).mpr ⟨reached, between, executes, continues⟩,
      (keeps executes continues).symm⟩

theorem executes_andThen_iff :
    Executes env (.andThen left right) before result after ↔
      ∃ reached between,
        Executes env left before reached between ∧
          Continues env ControlFlow.succeeded right reached between result after := by
  refine executes_iff_continues fun below => ?_
  refine bind_congr fun flow => ?_
  cases flow with
  | normal status =>
      by_cases success : status = 0 <;> simp [goOn, ControlFlow.succeeded, success]
  | raise signal => rfl

theorem executes_orElse_iff :
    Executes env (.orElse left right) before result after ↔
      ∃ reached between,
        Executes env left before reached between ∧
          Continues env ControlFlow.failed right reached between result after := by
  refine executes_iff_continues fun below => ?_
  refine bind_congr fun flow => ?_
  cases flow with
  | normal status =>
      by_cases success : status = 0 <;> simp [goOn, ControlFlow.failed, success]
  | raise signal => rfl

/-- In a chain of three commands it makes no difference which two are grouped. -/
theorem continues_assoc
    {chain : Command → Command → Command}
    (executes_chain_iff : ∀ {left right before result after},
      Executes env (chain left right) before result after ↔
        ∃ reached between,
          Executes env left before reached between ∧
            Continues env goesOn right reached between result after) :
    Executes env (chain (chain first second) third) before result after ↔
      Executes env (chain first (chain second third)) before result after := by
  have behind_first :
      ∀ reached between,
        (∃ later landed,
          Continues env goesOn second reached between later landed ∧
            Continues env goesOn third later landed result after) ↔
          Continues env goesOn (chain second third) reached between result after := by
    intro reached between
    rcases goes : reached.toOption.any goesOn with _ | _
    · simp only [continues_iff_of_done goes]
      constructor
      · rintro ⟨_, _, ⟨rfl, rfl⟩, stops⟩
        exact (continues_iff_of_done goes).mp stops
      · rintro ⟨rfl, rfl⟩
        exact ⟨_, _, ⟨rfl, rfl⟩, .done goes⟩
    · simp only [continues_iff_of_goesOn goes, executes_chain_iff]
  simp only [executes_chain_iff, ← behind_first]
  constructor
  · rintro ⟨later, landed, ⟨reached, between, executes, continues⟩, further⟩
    exact ⟨reached, between, executes, later, landed, continues, further⟩
  · rintro ⟨reached, between, executes, later, landed, continues, further⟩
    exact ⟨later, landed, ⟨reached, between, executes, continues⟩, further⟩

end Chain

section Lists

variable {status : Int32} {flow other : ControlFlow} {first : Command}
variable {earlier later rest : List Command}

/-- An error and a signal end a list. -/
inductive Stopped : Except RuntimeError ControlFlow → Prop where
  | failed (error : RuntimeError) :
      Stopped (.error error)
  | raised (signal : ControlSignal) :
      Stopped (.ok (.raise signal))

theorem normal_or_stopped
    (reached : Except RuntimeError ControlFlow) :
    (∃ status, reached = .ok (.normal status)) ∨ Stopped reached := by
  rcases reached with error | (status | signal)
  · exact .inr (.failed error)
  · exact .inl ⟨status, rfl⟩
  · exact .inr (.raised signal)

/-- Of a list that has stopped nothing is left to execute. -/
theorem Stopped.ends_iff
    (stopped : Stopped reached) :
    (Task.resume (CommandList.goOn env rest) reached).Ends between result after ↔
      result = reached ∧ after = between := by
  cases stopped with
  | failed error =>
      constructor
      · rintro ⟨_, finished⟩
        cases finished
        exact ⟨rfl, rfl⟩
      · rintro ⟨rfl, rfl⟩
        exact ⟨0, rfl⟩
  | raised signal => exact Task.ends_pure_iff

/-- A list is its earlier commands and, unless they raised a signal or failed, its later ones. -/
theorem executesFrom_append_iff :
    ExecutesFrom env (.normal status) (earlier ++ later) before result after ↔
      ∃ reached between,
        ExecutesFrom env (.normal status) earlier before reached between ∧
          (Task.resume (CommandList.goOn env later) reached).Ends between result after := by
  induction earlier generalizing status before with
  | nil =>
      constructor
      · intro executes
        exact ⟨.ok (.normal status), before, ⟨0, rfl⟩, executes⟩
      · rintro ⟨reached, between, ended, executes⟩
        obtain ⟨rfl, rfl⟩ := Task.ends_pure_iff.mp ended
        exact executes
  | cons first rest inductionHypothesis =>
      -- what follows the first command goes on alike, in two parts or in one
      have behind_first :
          ∀ reached between,
            (Task.resume (CommandList.goOn env (rest ++ later)) reached).Ends
                between result after ↔
              ∃ landed ended,
                (Task.resume (CommandList.goOn env rest) reached).Ends between landed ended ∧
                  (Task.resume (CommandList.goOn env later) landed).Ends ended result after := by
        intro reached between
        rcases normal_or_stopped reached with ⟨status, rfl⟩ | stopped
        · exact inductionHypothesis
        · simp only [stopped.ends_iff]
          constructor
          · rintro ⟨rfl, rfl⟩
            exact ⟨_, _, ⟨rfl, rfl⟩, stopped.ends_iff.mpr ⟨rfl, rfl⟩⟩
          · rintro ⟨_, _, ⟨rfl, rfl⟩, resumed⟩
            exact stopped.ends_iff.mp resumed
      rw [List.cons_append, executesFrom_cons_iff]
      simp only [behind_first, executesFrom_cons_iff]
      constructor
      · rintro ⟨reached, between, executes, landed, ended, middle, resumed⟩
        exact ⟨landed, ended, ⟨reached, between, executes, middle⟩, resumed⟩
      · rintro ⟨landed, ended, ⟨reached, between, executes, middle⟩, resumed⟩
        exact ⟨reached, between, executes, landed, ended, middle, resumed⟩

/-- A list with a command ends alike whatever the flow in front of it was. -/
theorem executesFrom_cons_congr :
    ExecutesFrom env flow (first :: rest) before result after ↔
      ExecutesFrom env other (first :: rest) before result after := by
  rw [executesFrom_cons_iff, executesFrom_cons_iff]

/-- A list of one command ends as the command does. -/
theorem executesFrom_singleton_iff :
    ExecutesFrom env flow [first] before result after ↔
      Executes env first before result after := by
  rw [executesFrom_cons_iff]
  constructor
  · rintro ⟨reached, between, executes, _, finished⟩
    rcases reached with error | (status | signal) <;> cases finished <;> exact executes
  · intro executes
    refine ⟨result, after, executes, 0, ?_⟩
    rcases result with error | (status | signal) <;> rfl

/-- A list with a command leaves the status of the command that ran last. -/
theorem ExecutesFrom.keepStatus
    (executes : ExecutesFrom env flow (first :: rest) before result after) :
    after.keepStatus result = after := by
  induction rest generalizing flow first before with
  | nil => exact (executesFrom_singleton_iff.mp executes).keepStatus
  | cons second rest inductionHypothesis =>
      obtain ⟨reached, between, ran, ended⟩ := executesFrom_cons_iff.mp executes
      rcases normal_or_stopped reached with ⟨status, rfl⟩ | stopped
      · have others : ExecutesFrom env (.normal status) (second :: rest) between result after :=
          ended
        exact inductionHypothesis others
      · obtain ⟨rfl, rfl⟩ := stopped.ends_iff.mp ended
        exact ran.keepStatus

theorem executes_sequence_iff :
    Executes env (.sequence rest) before result after ↔
      ∃ ended,
        ExecutesFrom env .ok rest before result ended ∧ after = ended.keepStatus result :=
  executes_iff

/-- A sequence of at least one command ends as its list of commands does. -/
theorem executes_sequence_cons_iff :
    Executes env (.sequence (first :: rest)) before result after ↔
      ExecutesFrom env flow (first :: rest) before result after := by
  rw [executes_sequence_iff]
  constructor
  · rintro ⟨ended, executes, rfl⟩
    rw [executes.keepStatus]
    exact executesFrom_cons_congr.mp executes
  · intro executes
    exact ⟨after, executesFrom_cons_congr.mp executes, executes.keepStatus.symm⟩

/-- The end of a list may stand in a sequence of its own, unless it is empty. -/
theorem executesFrom_grouped_iff :
    ExecutesFrom env (.normal status)
        (earlier ++ [.sequence (first :: rest)]) before result after ↔
      ExecutesFrom env (.normal status) (earlier ++ first :: rest) before result after := by
  have behind_earlier :
      ∀ reached between,
        (Task.resume (CommandList.goOn env [.sequence (first :: rest)]) reached).Ends
            between result after ↔
          (Task.resume (CommandList.goOn env (first :: rest)) reached).Ends
            between result after := by
    intro reached between
    rcases normal_or_stopped reached with ⟨status, rfl⟩ | stopped
    · have grouped :
          ExecutesFrom env (.normal status) [.sequence (first :: rest)] between result after ↔
            ExecutesFrom env (.normal status) (first :: rest) between result after :=
        executesFrom_singleton_iff.trans executes_sequence_cons_iff
      exact grouped
    · exact stopped.ends_iff.trans stopped.ends_iff.symm
  simp only [executesFrom_append_iff, behind_earlier]

end Lists

/--
Chains of conjunctions, chains of disjunctions and the ends of sequences can be grouped
in any way: from every machine both groupings end with the same result and leave the
same machine behind, or neither ends.
-/
theorem regrouping_preserves_meaning
    (env : Env)
    (before after : Machine)
    (result : Except RuntimeError ControlFlow) :
    (∀ first second third : Command,
      Executes env (.andThen (.andThen first second) third) before result after ↔
        Executes env (.andThen first (.andThen second third)) before result after) ∧
    (∀ first second third : Command,
      Executes env (.orElse (.orElse first second) third) before result after ↔
        Executes env (.orElse first (.orElse second third)) before result after) ∧
    ∀ (earlier : List Command) (first : Command) (rest : List Command),
      Executes env (.sequence (earlier ++ first :: rest)) before result after ↔
        Executes env (.sequence (earlier ++ [.sequence (first :: rest)])) before result after := by
  refine ⟨fun _ _ _ => ?_, fun _ _ _ => ?_, fun earlier first rest => ?_⟩
  · exact Chain.continues_assoc Chain.executes_andThen_iff
  · exact Chain.continues_assoc Chain.executes_orElse_iff
  · simp only [executes_sequence_iff, ControlFlow.ok, executesFrom_grouped_iff]

end ShellCore
