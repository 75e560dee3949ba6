import ShellCore.Shell.Basic

namespace ShellCore

/-!
# Statements of a program

A shell evaluates a statement, judges how it ended and settles with its status; a
program is one statement after the other, up to the first that cannot be settled.
-/

namespace Execution

/-- Two executions in sequence end with the error of the first or with the end of the second. -/
theorem bind_eq_some_iff
    {first : Execution α}
    {next : α → Execution β}
    {before after : Shell}
    {result : Except ShellError β} :
    (first >>= next).run before = some (result, after) ↔
      (∃ error, first.run before = some (.error error, after) ∧ result = .error error) ∨
        ∃ answer between,
          first.run before = some (.ok answer, between) ∧
            (next answer).run between = some (result, after) := by
  change
    (first.run before).bind (fun reached => _) = some (result, after) ↔ _
  rw [Option.bind_eq_some_iff]
  constructor
  · rintro ⟨⟨reached, between⟩, started, ended⟩
    cases reached with
    | ok answer => exact .inr ⟨answer, between, started, ended⟩
    | error error =>
        cases ended
        exact .inl ⟨error, started, rfl⟩
  · rintro (⟨error, failed, rfl⟩ | ⟨answer, between, started, ended⟩)
    · exact ⟨(.error error, after), failed, rfl⟩
    · exact ⟨(.ok answer, between), started, ended⟩

/-- What follows a look at the shell is given the shell that it starts from. -/
theorem run_get_bind
    (next : Shell → Execution β)
    (shell : Shell) :
    (get >>= next).run shell = (next shell).run shell :=
  rfl

end Execution

namespace Shell

variable {before after : Shell}

/-- The shell with another machine, which an evaluation left behind. -/
def withMachine
    (shell : Shell)
    (machine : Machine) :
    Shell :=
  { shell with machine := machine }

theorem arena_withMachine
    (shell : Shell)
    (machine : Machine) :
    (shell.withMachine machine).arena = shell.arena :=
  rfl

/-- A shell evaluates in its own environment and keeps the machine that is left behind. -/
theorem evaluate_eq_some_iff
    {evaluation : Env → Eval α}
    {result : Except ShellError (Except RuntimeError α)} :
    (evaluate evaluation).run before = some (result, after) ↔
      ∃ ended machine,
        (evaluation before.env).run before.machine = some (ended, machine) ∧
          result = .ok ended ∧ after = before.withMachine machine := by
  change
    ((evaluation before.env).run before.machine).bind (fun reached => _) =
      some (result, after) ↔ _
  rw [Option.bind_eq_some_iff]
  constructor
  · rintro ⟨⟨ended, machine⟩, evaluated, left⟩
    cases left
    exact ⟨ended, machine, evaluated, rfl, rfl⟩
  · rintro ⟨ended, machine, evaluated, rfl, rfl⟩
    exact ⟨(ended, machine), evaluated, rfl⟩

/-- What is left of a shell when a statement was judged: it is settled unless that failed. -/
def settledBy
    (shell : Shell) :
    Except ShellError (Int32 × Option Diagnostic) →
    Shell
  | .ok (status, _) => shell.settle status
  | .error _ => shell

/-- A statement is evaluated, judged and settled. -/
theorem executeStatement_eq_some_iff
    {fuel : Nat}
    {statement : Command}
    {result : Except ShellError (Int32 × Option Diagnostic)} :
    (executeStatement fuel statement).run before = some (result, after) ↔
      ∃ ended machine,
        (Evaluator.command (evaluator fuel) before.env statement).run before.machine =
            some (ended, machine) ∧
          result = judge before.arena ended ∧
          after = (before.withMachine machine).settledBy result := by
  unfold executeStatement
  rw [Execution.bind_eq_some_iff]
  constructor
  · rintro (⟨error, refused, -⟩ | ⟨ended, between, evaluated, judged⟩)
    · obtain ⟨_, _, _, answered, _⟩ := evaluate_eq_some_iff.mp refused
      cases answered
    · obtain ⟨_, machine, ran, same, rfl⟩ := evaluate_eq_some_iff.mp evaluated
      cases same
      refine ⟨ended, machine, ran, ?_⟩
      rw [Execution.run_get_bind, arena_withMachine] at judged
      cases verdict : judge before.arena ended with
      | error error =>
          rw [verdict] at judged
          cases judged
          exact ⟨rfl, rfl⟩
      | ok settled =>
          rw [verdict] at judged
          cases judged
          exact ⟨rfl, rfl⟩
  · rintro ⟨ended, machine, ran, rfl, rfl⟩
    refine .inr ⟨ended, before.withMachine machine,
      evaluate_eq_some_iff.mpr ⟨ended, machine, ran, rfl, rfl⟩, ?_⟩
    rw [Execution.run_get_bind, arena_withMachine]
    cases judge before.arena ended <;> rfl

/-- Where a token stands: its record, and the number and the source of its line. -/
structure Place
    (arena : Arena)
    (span : SpanId)
    (token : Token)
    (number : UInt32)
    (source : Provenance) :
    Prop where
  found : arena.token span = .ok token
  number : arena.lineNumber token.line = .ok number
  source : arena.lineSource token.line = .ok source

/-- The text of a place, with a column counted from one. -/
def placeText
    (source : Provenance)
    (number : UInt32)
    (column : Nat) :
    String :=
  source.display ++ ":" ++ toString number.toNat ++ ":" ++ toString column

variable {arena : Arena} {span : SpanId}

theorem locate_of_place
    {token : Token}
    {number : UInt32}
    {source : Provenance}
    (place : Place arena span token number source) :
    locate arena span =
      (columnFromOne token).map fun column => some (placeText source number column) := by
  unfold locate
  simp only [place.found, place.number, place.source]
  rfl

theorem locate_of_no_place
    (nowhere : ∀ token number source, ¬ Place arena span token number source) :
    locate arena span = .ok none := by
  unfold locate
  cases found : arena.token span with
  | error missing => rfl
  | ok token =>
      dsimp only
      split
      next number source isNumber isSource =>
        exact absurd ⟨found, isNumber, isSource⟩ (nowhere token number source)
      next => rfl

/-- A token stands somewhere or nowhere. -/
theorem place_or_nowhere
    (arena : Arena)
    (span : SpanId) :
    (∃ token number source, Place arena span token number source) ∨
      ∀ token number source, ¬ Place arena span token number source := by
  by_cases somewhere : ∃ token number source, Place arena span token number source
  · exact .inl somewhere
  · exact .inr fun token number source place => somewhere ⟨token, number, source, place⟩

/-- The column of a token can be counted from one unless it is the last. -/
theorem columnFromOne_cases
    (token : Token) :
    (token.column.toNat + 1 < UInt32.size ∧
        columnFromOne token = .ok (token.column.toNat + 1)) ∨
      token.column.toNat + 1 = UInt32.size ∧
        columnFromOne token = .error .columnOverflow := by
  have bound : token.column.toNat < UInt32.size := token.column.toNat_lt
  rcases Nat.lt_or_ge (token.column.toNat + 1) UInt32.size with fits | tooFar
  · exact .inl ⟨fits, if_pos fits⟩
  · exact .inr ⟨by omega, if_neg (Nat.not_lt.mpr tooFar)⟩

/-- The token, if there is one, stands at a column that cannot be counted from one. -/
def TooFarRight
    (arena : Arena)
    (span : SpanId) :
    Prop :=
  ∃ token number source,
    Place arena span token number source ∧ token.column.toNat + 1 = UInt32.size

/-- The location of a token, if there is one, and if it can be found. -/
inductive LocatedAt (arena : Arena) : Option SpanId → Option String → Prop where
  | noToken : LocatedAt arena none none
  | nowhere {span : SpanId} :
      (∀ token number source, ¬ Place arena span token number source) →
      LocatedAt arena (some span) none
  | place {span : SpanId} {token : Token} {number : UInt32} {source : Provenance} :
      Place arena span token number source →
      token.column.toNat + 1 < UInt32.size →
      LocatedAt arena (some span) (some (placeText source number (token.column.toNat + 1)))

/-- A token is located, unless it stands too far right. -/
theorem located_or_tooFarRight
    (arena : Arena)
    (token : Option SpanId) :
    (∃ location, LocatedAt arena token location) ∨
      ∃ span, token = some span ∧ TooFarRight arena span := by
  cases token with
  | none => exact .inl ⟨none, .noToken⟩
  | some span =>
      rcases place_or_nowhere arena span with ⟨token, number, source, place⟩ | nowhere
      · rcases columnFromOne_cases token with ⟨fits, -⟩ | ⟨last, -⟩
        · exact .inl ⟨_, .place place fits⟩
        · exact .inr ⟨span, rfl, token, number, source, place, last⟩
      · exact .inl ⟨none, .nowhere nowhere⟩

/-- A diagnostic holds the message of an error, its token and the location of that. -/
theorem diagnose_of_located
    {error : RuntimeError}
    {location : Option String}
    (located : LocatedAt arena error.token? location) :
    diagnose arena error = .ok ⟨error.message, location, error.token?⟩ := by
  unfold diagnose
  generalize error.token? = token at located
  cases located with
  | noToken => rfl
  | nowhere nowhere =>
      dsimp only
      rw [locate_of_no_place nowhere]
      rfl
  | place place fits =>
      dsimp only
      rw [locate_of_place place, columnFromOne, if_pos fits]
      rfl

/-- An error whose token stands too far right cannot be diagnosed. -/
theorem diagnose_of_tooFarRight
    {error : RuntimeError}
    (hasToken : error.token? = some span)
    (tooFar : TooFarRight arena span) :
    diagnose arena error = .error .columnOverflow := by
  obtain ⟨token, number, source, place, last⟩ := tooFar
  unfold diagnose
  rw [hasToken]
  dsimp only
  rw [locate_of_place place, columnFromOne, if_neg (Nat.not_lt.mpr (Nat.le_of_eq last.symm))]
  rfl

/-- The error that a statement is reported with: its own, or a signal that nothing took. -/
inductive Reported : Except RuntimeError ControlFlow → RuntimeError → Prop where
  | escaped (signal : ControlSignal) :
      Reported (.ok (.raise signal)) (.unmatchedControl signal.keyword signal.token)
  | failed {error : RuntimeError} :
      error.isFatal = false →
      Reported (.error error) error

/-- A statement ends with a status, is reported with an error, or meets a fault. -/
theorem ended_cases
    (ended : Except RuntimeError ControlFlow) :
    (∃ status, ended = .ok (.normal status)) ∨
      (∃ error, Reported ended error) ∨
      ∃ error, ended = .error error ∧ error.isFatal = true := by
  rcases ended with error | (status | signal)
  · cases fatal : error.isFatal with
    | false => exact .inr (.inl ⟨error, .failed fatal⟩)
    | true => exact .inr (.inr ⟨error, rfl, fatal⟩)
  · exact .inl ⟨status, rfl⟩
  · exact .inr (.inl ⟨_, .escaped signal⟩)

theorem judge_of_reported
    {ended : Except RuntimeError ControlFlow}
    {error : RuntimeError}
    (reported : Reported ended error) :
    judge arena ended =
      (diagnose arena error).map fun diagnostic => (errorStatus, some diagnostic) := by
  cases reported with
  | escaped signal => rfl
  | failed harmless =>
      unfold judge
      dsimp only
      rw [harmless]
      rfl

theorem judge_of_fatal
    {error : RuntimeError}
    (fatal : error.isFatal = true) :
    judge arena (.error error) = .error (.statement error) :=
  if_pos fatal

/-- Without a fault, judging fails only over a token that stands too far right. -/
theorem judge_eq_error
    {ended : Except RuntimeError ControlFlow}
    {error : ShellError}
    (harmless : ∀ error, ended = .error error → error.isFatal = false)
    (failed : judge arena ended = .error error) :
    error = .columnOverflow ∧ ∃ span, TooFarRight arena span := by
  rcases ended_cases ended with ⟨status, rfl⟩ | ⟨cause, reported⟩ | ⟨cause, rfl, fatal⟩
  · cases failed
  · rw [judge_of_reported reported] at failed
    rcases located_or_tooFarRight arena cause.token? with
      ⟨location, located⟩ | ⟨span, hasToken, tooFar⟩
    · rw [diagnose_of_located located] at failed
      cases failed
    · rw [diagnose_of_tooFarRight hasToken tooFar] at failed
      cases failed
      exact ⟨rfl, span, tooFar⟩
  · cases (harmless cause rfl).symm.trans fatal

end Shell

end ShellCore
