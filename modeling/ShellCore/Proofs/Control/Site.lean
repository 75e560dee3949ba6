import ShellCore.Control
import ShellCore.Evaluation.Control
import ShellCore.Syntax

namespace ShellCore

/-!
# Control statements in commands

A site is a control statement where it stands in a command, with the number of
loops of the command around it. A signal may only come from sites that the
command runs by itself: what stands in words, in functions, in pipelines, in
subshells and in background jobs runs behind a frame that takes every signal.
-/

/-- A control statement, and the number of loops around it. -/
structure ControlSite where
  keyword : ControlKeyword
  argument : Option ControlArgument
  token : SpanId
  depth : Nat

namespace ControlSite

/-- The site in one more loop. -/
def inLoop
    (site : ControlSite) :
    ControlSite :=
  { site with depth := site.depth + 1 }

/-- The statement of a site. -/
def statement
    (site : ControlSite) :
    Command :=
  .control site.keyword site.argument site.token

/-- Whether the argument of a site does not depend on the run: it is absent or a literal. -/
def IsLiteral
    (site : ControlSite) :
    Prop :=
  site.argument = none ∨ ∃ text, site.argument = some (.status (.literal text))

/-- The level that a loop keyword with an absent or a literal argument asks for. -/
def level?
    (site : ControlSite) :
    Option Int :=
  match site.argument with
  | none => some 1
  | some (.status (.literal text)) => (Text.readInt64? (Text.trim text)).map Int64.toInt
  | _ => none

end ControlSite

/--
The control statements that a command runs by itself. The condition of a loop
stands in the loop as its body does.
-/
inductive Command.Holds : Command → ControlSite → Prop where
  | control {keyword argument token} :
      Holds (.control keyword argument token) ⟨keyword, argument, token, 0⟩
  | sequence {commands command site} :
      command ∈ commands → Holds command site → Holds (.sequence commands) site
  | andLeft {left right site} :
      Holds left site → Holds (.andThen left right) site
  | andRight {left right site} :
      Holds right site → Holds (.andThen left right) site
  | orLeft {left right site} :
      Holds left site → Holds (.orElse left right) site
  | orRight {left right site} :
      Holds right site → Holds (.orElse left right) site
  | armCondition {arms otherwise arm command site} :
      arm ∈ arms → arm.condition = .run command → Holds command site →
      Holds (.branch arms otherwise) site
  | armBody {arms otherwise arm command site} :
      arm ∈ arms → command ∈ arm.body → Holds command site →
      Holds (.branch arms otherwise) site
  | otherwise {arms body command site} :
      command ∈ body → Holds command site → Holds (.branch arms (some body)) site
  | itemBody {name items body command site} :
      command ∈ body → Holds command site → Holds (.forEach name items body) site.inLoop
  | loopCondition {statement command site} :
      statement.condition = .run command → Holds command site →
      Holds (.loop statement) site.inLoop
  | loopBody {statement command site} :
      command ∈ statement.body → Holds command site →
      Holds (.loop statement) site.inLoop
  | redirected {body redirects site} :
      Holds body site → Holds (.redirected body redirects) site

/-- The commands that end with a status whatever they run. -/
inductive Command.Opaque : Command → Prop where
  | simple (words span) : Opaque (.simple words span)
  | assign (name value isLocal) : Opaque (.assign name value isLocal)
  | pipeline (stages negated) : Opaque (.pipeline stages negated)
  | subshell (body) : Opaque (.subshell body)
  | background (body) : Opaque (.background body)
  | define (function) : Opaque (.define function)

/-- An opaque command holds no control statement. -/
theorem Command.Opaque.holds_nothing
    {command : Command}
    {site : ControlSite}
    (closed : command.Opaque) :
    ¬ command.Holds site := by
  intro holds
  cases closed <;> cases holds

namespace ControlSignal

/-- The level that is left to a loop signal. -/
def level?
    (signal : ControlSignal) :
    Option Int :=
  match signal.kind with
  | .breakLoop level => some level.toNat
  | .continueLoop level => some level.toNat
  | .returnCall _ => none

theorem exists_level
    {signal : ControlSignal}
    (loops : signal.keyword ≠ .returnCall) :
    ∃ level, signal.level? = some level := by
  obtain ⟨kind, token⟩ := signal
  cases kind with
  | breakLoop level => exact ⟨level.toNat, rfl⟩
  | continueLoop level => exact ⟨level.toNat, rfl⟩
  | returnCall payload => exact absurd rfl loops

/-- What is left of a signal that crossed some loops, none of which was the one it concerns. -/
inductive Crosses (depth : Nat) : ControlSignal → ControlSignal → Prop where
  | breakLoop {level left : UInt32} {token : SpanId} :
      0 < left.toNat → level.toNat = left.toNat + depth →
      Crosses depth (.breakLoops level token) (.breakLoops left token)
  | continueLoop {level left : UInt32} {token : SpanId} :
      0 < left.toNat → level.toNat = left.toNat + depth →
      Crosses depth (.continueLoops level token) (.continueLoops left token)
  | returnCall {payload : ReturnPayload} {token : SpanId} :
      Crosses depth ⟨.returnCall payload, token⟩ ⟨.returnCall payload, token⟩

/-- A level that a loop does not bring to zero falls by one. -/
theorem toNat_lowerLevel
    {level : UInt32}
    (remains : lowerLevel level ≠ 0) :
    0 < (lowerLevel level).toNat ∧ level.toNat = (lowerLevel level).toNat + 1 := by
  have positive : 0 < (lowerLevel level).toNat := by
    rw [Nat.pos_iff_ne_zero]
    intro zero
    exact remains (UInt32.toNat_inj.mp zero)
  refine ⟨positive, ?_⟩
  unfold lowerLevel at positive ⊢
  split at positive
  · exact absurd positive (Nat.lt_irrefl 0)
  next nonzero =>
    have one_le : (1 : UInt32) ≤ level := by
      rw [UInt32.le_iff_toNat_le]
      exact Nat.one_le_iff_ne_zero.mpr fun zero => nonzero (UInt32.toNat_inj.mp zero)
    rw [if_neg nonzero, UInt32.toNat_sub_of_le _ _ one_le]
    have := UInt32.le_iff_toNat_le.mp one_le
    change 1 ≤ level.toNat at this
    change level.toNat = level.toNat - 1 + 1
    omega

/-- Lowering undoes raising by one. -/
theorem lowerLevel_add_one
    (left : UInt32)
    (fits : left.toNat + 1 < UInt32.size) :
    lowerLevel (left + 1) = left ∧ (left + 1).toNat = left.toNat + 1 := by
  have raised : (left + 1).toNat = left.toNat + 1 := by
    rw [UInt32.toNat_add]
    exact Nat.mod_eq_of_lt fits
  have nonzero : left + 1 ≠ 0 := by
    intro zero
    rw [zero] at raised
    cases raised
  refine ⟨?_, raised⟩
  rw [lowerLevel, if_neg nonzero]
  simp

namespace Crosses

/-- A signal that a loop hands on has crossed one more loop. -/
theorem throughLoop
    {depth : Nat}
    {raised inner passed : ControlSignal}
    (crosses : Crosses depth raised inner)
    (propagates : inner.throughLoop = (.propagate, passed)) :
    Crosses (depth + 1) raised passed := by
  cases crosses with
  | @breakLoop level left token positive reached =>
      by_cases zero : lowerLevel left = 0
      · simp [ControlSignal.throughLoop, breakLoops, zero] at propagates
      · simp only [ControlSignal.throughLoop, breakLoops, zero, if_false,
          Prod.mk.injEq, true_and] at propagates
        subst propagates
        obtain ⟨remains, falls⟩ := toNat_lowerLevel zero
        exact .breakLoop remains (by omega)
  | @continueLoop level left token positive reached =>
      by_cases zero : lowerLevel left = 0
      · simp [ControlSignal.throughLoop, continueLoops, zero] at propagates
      · simp only [ControlSignal.throughLoop, continueLoops, zero, if_false,
          Prod.mk.injEq, true_and] at propagates
        subst propagates
        obtain ⟨remains, falls⟩ := toNat_lowerLevel zero
        exact .continueLoop remains (by omega)
  | returnCall =>
      cases propagates
      exact .returnCall

variable {depth : Nat} {raised signal : ControlSignal}

theorem token
    (crosses : Crosses depth raised signal) :
    signal.token = raised.token := by
  cases crosses <;> rfl

theorem keyword
    (crosses : Crosses depth raised signal) :
    signal.keyword = raised.keyword := by
  cases crosses <;> rfl

theorem eq_of_isReturn
    (crosses : Crosses depth raised signal)
    (isReturn : signal.isReturn = true) :
    signal = raised := by
  cases crosses with
  | breakLoop => cases isReturn
  | continueLoop => cases isReturn
  | returnCall => rfl

/-- A level is greater than the number of loops crossed, and less by that number after. -/
theorem level
    (crosses : Crosses depth raised signal)
    {level : Int}
    (asked : raised.level? = some level) :
    depth < level ∧ signal.level? = some (level - depth) := by
  cases crosses with
  | @breakLoop before left token positive reached =>
      cases asked
      refine ⟨?_, congrArg some ?_⟩ <;> omega
  | @continueLoop before left token positive reached =>
      cases asked
      refine ⟨?_, congrArg some ?_⟩ <;> omega
  | returnCall =>
      cases asked

theorem eq_of_zero
    (crosses : Crosses 0 raised signal) :
    signal = raised := by
  cases crosses with
  | breakLoop _ reached => rw [UInt32.toNat_inj.mp reached]
  | continueLoop _ reached => rw [UInt32.toNat_inj.mp reached]
  | returnCall => rfl

/-- A return crosses any number of loops as it is. -/
theorem of_isReturn
    (isReturn : raised.isReturn = true) :
    Crosses depth raised raised := by
  obtain ⟨kind, token⟩ := raised
  cases kind with
  | breakLoop level => cases isReturn
  | continueLoop level => cases isReturn
  | returnCall payload => exact .returnCall

/-- What crossed one more loop crossed the loops inside and then that one. -/
theorem inside
    (crosses : Crosses (depth + 1) raised signal) :
    ∃ inner, Crosses depth raised inner ∧ inner.throughLoop = (.propagate, signal) := by
  cases crosses with
  | @breakLoop level left token positive reached =>
      have bounded := level.toNat_lt_size
      obtain ⟨lowered, raisedBy⟩ := lowerLevel_add_one left (by omega)
      have nonzero : left ≠ 0 := by
        rintro rfl
        exact Nat.lt_irrefl 0 positive
      refine ⟨.breakLoops (left + 1) token, .breakLoop (by omega) (by omega), ?_⟩
      simp [ControlSignal.throughLoop, breakLoops, lowered, nonzero]
  | @continueLoop level left token positive reached =>
      have bounded := level.toNat_lt_size
      obtain ⟨lowered, raisedBy⟩ := lowerLevel_add_one left (by omega)
      have nonzero : left ≠ 0 := by
        rintro rfl
        exact Nat.lt_irrefl 0 positive
      refine ⟨.continueLoops (left + 1) token, .continueLoop (by omega) (by omega), ?_⟩
      simp [ControlSignal.throughLoop, continueLoops, lowered, nonzero]
  | returnCall =>
      exact ⟨_, .returnCall, rfl⟩

/-- A signal crosses any number of loops less than its level. -/
theorem exists_of_lt
    {level : Int}
    (asked : raised.level? = some level)
    (below : depth < level) :
    ∃ passed, Crosses depth raised passed := by
  obtain ⟨kind, token⟩ := raised
  cases kind with
  | breakLoop levels =>
      cases asked
      have bounded := levels.toNat_lt_size
      have exact : (UInt32.ofNat (levels.toNat - depth)).toNat = levels.toNat - depth :=
        UInt32.toNat_ofNat_of_lt' (by omega)
      refine ⟨.breakLoops (.ofNat (levels.toNat - depth)) token, .breakLoop ?_ ?_⟩ <;> omega
  | continueLoop levels =>
      cases asked
      have bounded := levels.toNat_lt_size
      have exact : (UInt32.ofNat (levels.toNat - depth)).toNat = levels.toNat - depth :=
        UInt32.toNat_ofNat_of_lt' (by omega)
      refine ⟨.continueLoops (.ofNat (levels.toNat - depth)) token, .continueLoop ?_ ?_⟩ <;> omega
  | returnCall payload =>
      cases asked

end Crosses

end ControlSignal

end ShellCore
