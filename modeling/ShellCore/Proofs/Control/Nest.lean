import ShellCore.Proofs.Control.Round
import ShellCore.Proofs.Control.Site

namespace ShellCore

/-!
# Signals in nested loops

In a nest each loop stands first in the body of the one around it, with commands
behind it. A signal that the innermost body raises in its first round ends as many
loops as its level says, and nothing else runs on its way: a break ends the last of
them too, a continue goes on with it.
-/

/-- A loop of a nest, and the commands behind it. -/
structure Level where
  loop : OpenLoop
  later : List Command

/-- The commands of a nest, from the outermost loop, around a body. -/
def nest
    (body : List Command) :
    List Level →
    List Command
  | [] => body
  | level :: inside => level.loop.withBody (nest body inside) :: level.later

/-- The loops of a nest come to their bodies, each from where the one around it does. -/
inductive Entered
    (env : Env) :
    List Level → Machine → Machine → Prop where
  | body {machine : Machine} :
      Entered env [] machine machine
  | loop {level : Level} {inside : List Level} {before between start : Machine} :
      level.loop.Enters env before between →
      Entered env inside between start →
      Entered env (level :: inside) before start

/-- The machine after all loops of a nest ended, from the innermost. -/
def leaveAll :
    List Level →
    Machine →
    Machine
  | [], machine => machine
  | level :: inside, machine => level.loop.leave (leaveAll inside machine)

/--
The first round of a loop's body ended, and from there the loop and the commands
behind it end with a result and leave a machine behind.
-/
def Level.Resumes
    (env : Env)
    (level : Level)
    (body : List Command)
    (ended : Except RuntimeError ControlFlow)
    (landed : Machine)
    (result : Except RuntimeError ControlFlow)
    (after : Machine) :
    Prop :=
  ∃ looped closed,
    (Task.resume (level.loop.afterRound env body) ended).Ends landed looped closed ∧
      (Task.resume (CommandList.goOn env level.later) looped).Ends
        ((level.loop.leave closed).keepStatus looped) result after

/--
The first round of the innermost body ended, and from there the whole nest ends with
a result and leaves a machine behind.
-/
def Resumes
    (env : Env)
    (body : List Command)
    (ended : Except RuntimeError ControlFlow)
    (landed : Machine) :
    List Level →
    Except RuntimeError ControlFlow →
    Machine →
    Prop
  | [], result, after => result = ended ∧ after = landed
  | level :: inside, result, after =>
      ∃ reached between,
        Resumes env body ended landed inside reached between ∧
          level.Resumes env (nest body inside) reached between result after

variable {env : Env} {body : List Command} {level : Level} {outer inside levels : List Level}
variable {before entry start landed after : Machine}
variable {ended result : Except RuntimeError ControlFlow}
variable {signal passed : ControlSignal}

/-- A loop that stands first in a list, and the list, end as they do from the first round. -/
theorem Level.executesFrom_iff
    (enters : level.loop.Enters env before start) :
    ExecutesFrom env .ok (level.loop.withBody body :: level.later) before result after ↔
      ∃ ended landed,
        ExecutesFrom env .ok body start ended landed ∧
          level.Resumes env body ended landed result after := by
  simp only [executesFrom_cons_iff, enters.executes_iff, OpenLoop.ends_round_iff, Resumes]
  constructor
  · rintro ⟨looped, _, ⟨closed, ⟨ended, landed, ran, looping⟩, rfl⟩, later⟩
    exact ⟨ended, landed, ran, looped, closed, looping, later⟩
  · rintro ⟨ended, landed, ran, looped, closed, looping, later⟩
    exact ⟨looped, _, ⟨closed, ⟨ended, landed, ran, looping⟩, rfl⟩, later⟩

/-- A nest ends as it does from where the first round of its innermost body ended. -/
theorem Entered.executesFrom_iff
    (entered : Entered env levels before start) :
    ExecutesFrom env .ok (nest body levels) before result after ↔
      ∃ ended landed,
        ExecutesFrom env .ok body start ended landed ∧
          Resumes env body ended landed levels result after := by
  induction entered generalizing result after with
  | body =>
      constructor
      · intro ran
        exact ⟨result, after, ran, rfl, rfl⟩
      · rintro ⟨_, _, ran, rfl, rfl⟩
        exact ran
  | loop enters _ inductionHypothesis =>
      simp only [nest, Level.executesFrom_iff enters, inductionHypothesis, Resumes]
      constructor
      · rintro ⟨reached, between, ⟨ended, landed, ran, inner⟩, last⟩
        exact ⟨ended, landed, ran, reached, between, inner, last⟩
      · rintro ⟨ended, landed, ran, reached, between, inner, last⟩
        exact ⟨reached, between, ⟨ended, landed, ran, inner⟩, last⟩

/-- The part of a nest inside of some of its loops is a body to these. -/
theorem nest_append
    (outer inside : List Level) :
    nest body (outer ++ inside) = nest (nest body inside) outer := by
  induction outer with
  | nil => rfl
  | cons level rest inductionHypothesis => simp [nest, inductionHypothesis]

theorem Entered.split
    (entered : Entered env (outer ++ inside) before start) :
    ∃ entry, Entered env outer before entry ∧ Entered env inside entry start := by
  induction outer generalizing before with
  | nil => exact ⟨before, .body, entered⟩
  | cons level rest inductionHypothesis =>
      cases entered with
      | loop enters restEntered =>
          obtain ⟨entry, outerEntered, insideEntered⟩ := inductionHypothesis restEntered
          exact ⟨entry, .loop enters outerEntered, insideEntered⟩

namespace LoopStep

/-- A loop hands a signal on that is not for it. -/
theorem ofFlow_of_propagates
    (propagates : signal.throughLoop = (.propagate, passed)) :
    ofFlow (.raise signal) = .raise passed := by
  simp only [ofFlow, propagates]

/-- A break that is for the loop ends it with success. -/
theorem ofFlow_break
    (isBreak : signal.keyword = .breakLoop)
    (asked : signal.level? = some 1) :
    ofFlow (.raise signal) = .exit 0 := by
  obtain ⟨kind, token⟩ := signal
  cases kind with
  | breakLoop level =>
      have one : level = 1 := UInt32.toNat_inj.mp (Int.ofNat.inj (Option.some.inj asked))
      rw [one]
      rfl
  | continueLoop level => cases isBreak
  | returnCall payload => cases isBreak

/-- A continue that is for the loop goes on with it as after success. -/
theorem ofFlow_continue
    (isContinue : signal.keyword = .continueLoop)
    (asked : signal.level? = some 1) :
    ofFlow (.raise signal) = .next 0 := by
  obtain ⟨kind, token⟩ := signal
  cases kind with
  | breakLoop level => cases isContinue
  | continueLoop level =>
      have one : level = 1 := UInt32.toNat_inj.mp (Int.ofNat.inj (Option.some.inj asked))
      rw [one]
      rfl
  | returnCall payload => cases isContinue

end LoopStep

/-- A loop that hands a signal on ends with it at once, and so does the list it stands in. -/
theorem Level.resumes_of_propagates
    (propagates : signal.throughLoop = (.propagate, passed)) :
    level.Resumes env body (.ok (.raise signal)) landed result after ↔
      result = .ok (.raise passed) ∧ after = level.loop.leave landed := by
  simp only [Level.Resumes, Task.resume, OpenLoop.afterRound,
    LoopStep.ofFlow_of_propagates propagates, Task.ends_pure_iff]
  constructor
  · rintro ⟨_, _, ⟨rfl, rfl⟩, ends⟩
    exact Task.ends_pure_iff.mp ends
  · rintro ⟨rfl, rfl⟩
    exact ⟨_, _, ⟨rfl, rfl⟩, Task.ends_pure_iff.mpr ⟨rfl, rfl⟩⟩

/-- A signal that crosses all loops of a nest ends them at once. -/
theorem resumes_of_crosses
    (crosses : signal.Crosses levels.length passed) :
    Resumes env body (.ok (.raise signal)) landed levels result after ↔
      result = .ok (.raise passed) ∧ after = leaveAll levels landed := by
  induction levels generalizing passed result after with
  | nil => rw [crosses.eq_of_zero, Resumes, leaveAll]
  | cons level inside inductionHypothesis =>
      obtain ⟨inner, insideCrosses, propagates⟩ := crosses.inside
      simp only [Resumes, inductionHypothesis insideCrosses, leaveAll]
      constructor
      · rintro ⟨_, _, ⟨rfl, rfl⟩, last⟩
        exact (Level.resumes_of_propagates propagates).mp last
      · intro ends
        exact ⟨_, _, ⟨rfl, rfl⟩, (Level.resumes_of_propagates propagates).mpr ends⟩

/-- A nest whose innermost body raises a signal that crosses all loops ends with what is left. -/
theorem Entered.executesFrom_of_crosses
    (entered : Entered env levels before start)
    (raised : ExecutesFrom env .ok body start (.ok (.raise signal)) landed)
    (crosses : signal.Crosses levels.length passed) :
    ExecutesFrom env .ok (nest body levels) before (.ok (.raise passed)) (leaveAll levels landed) :=
  entered.executesFrom_iff.mpr
    ⟨_, landed, raised, (resumes_of_crosses crosses).mpr ⟨rfl, rfl⟩⟩

/-- A loop around a nest does what is asked by what is left of a signal that crosses the nest. -/
theorem Entered.executes_iff
    (entered : Entered env (level :: inside) entry start)
    (raised : ExecutesFrom env .ok body start (.ok (.raise signal)) landed)
    (crosses : signal.Crosses inside.length passed) :
    Executes env (level.loop.withBody (nest body inside)) entry result after ↔
      ∃ closed,
        (level.loop.afterRound env (nest body inside) (.raise passed)).Ends
            (leaveAll inside landed) result closed ∧
          after = (level.loop.leave closed).keepStatus result := by
  cases entered with
  | loop enters insideEntered =>
      have inner := insideEntered.executesFrom_of_crosses raised crosses
      simp only [enters.executes_iff, OpenLoop.ends_round_iff]
      constructor
      · rintro ⟨closed, ⟨ended, reached, ran, looping⟩, rfl⟩
        obtain ⟨rfl, rfl⟩ := inner.unique ran
        exact ⟨closed, looping, rfl⟩
      · rintro ⟨closed, looping, rfl⟩
        exact ⟨closed, ⟨_, _, inner, looping⟩, rfl⟩

end ShellCore
