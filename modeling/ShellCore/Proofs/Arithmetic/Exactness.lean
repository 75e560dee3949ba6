import ShellCore.Proofs.Arithmetic.Operand
import ShellCore.Proofs.Evaluation.Task

namespace ShellCore

/-!
# Exactness of arithmetic

Words of 64 bits wrap around, so sums, differences, products and negations are those
of the integers, up to multiples of the number of words. Quotients and remainders of
words are those of the integers, and the one quotient that is too large wraps around.
Arithmetic fails only for a divisor that is zero, for an operand that denotes
nothing, and where a word inside fails.
-/

section Outcomes

variable {wrap : ε → δ} {outcome : Except ε α}

/-- To tell an error in other words leaves answers as they are. -/
theorem ok_eq_mapError_iff
    {answer : α} :
    .ok answer = outcome.mapError wrap ↔ outcome = .ok answer := by
  cases outcome with
  | ok other =>
      constructor
      · intro same
        cases same
        rfl
      · intro same
        cases same
        rfl
  | error cause => exact ⟨nofun, nofun⟩

theorem error_eq_mapError_iff
    {error : δ} :
    .error error = outcome.mapError wrap ↔
      ∃ cause, outcome = .error cause ∧ error = wrap cause := by
  cases outcome with
  | ok answer => exact ⟨nofun, nofun⟩
  | error cause =>
      constructor
      · intro same
        cases same
        exact ⟨cause, rfl, rfl⟩
      · rintro ⟨_, same, rfl⟩
        cases same
        rfl

end Outcomes

namespace Task

variable {before after : Machine}

/-- One task after the other fails as the first does, or ends as the second does behind it. -/
theorem ends_bind_cases
    {first : Task α}
    {next : α → Task β}
    {result : Except RuntimeError β}
    (firstStable : first.Stable)
    (nextStable : ∀ answer, (next answer).Stable) :
    Ends (fun below => first below >>= fun answer => next answer below) before result after ↔
      (∃ error, first.Ends before (.error error) after ∧ result = .error error) ∨
        ∃ answer between,
          first.Ends before (.ok answer) between ∧ (next answer).Ends between result after := by
  rw [ends_bind_iff firstStable nextStable]
  constructor
  · rintro ⟨error | answer, between, started, ended⟩
    · obtain ⟨_, finished⟩ := ended
      cases finished
      exact .inl ⟨error, started, rfl⟩
    · exact .inr ⟨answer, between, started, ended⟩
  · rintro (⟨error, failed, rfl⟩ | ⟨answer, between, started, ended⟩)
    · exact ⟨.error error, after, failed, 0, rfl⟩
    · exact ⟨.ok answer, between, started, ended⟩

/-- A task that only tells an outcome leaves the machine as it was. -/
theorem ends_ofExcept_iff
    {wrap : ε → RuntimeError}
    {outcome : Except ε α}
    {result : Except RuntimeError α} :
    Ends (fun _ => Eval.ofExcept wrap outcome) before result after ↔
      result = outcome.mapError wrap ∧ after = before := by
  cases outcome with
  | ok answer => exact ends_pure_iff
  | error error =>
      constructor
      · rintro ⟨_, finished⟩
        cases finished
        exact ⟨rfl, rfl⟩
      · rintro ⟨rfl, rfl⟩
        exact ⟨0, rfl⟩

/-- A task that only tells an outcome of the scope leaves the machine as it was. -/
theorem ends_ofScope_iff
    {wrap : ε → RuntimeError}
    (outcome : Scope → Except ε α)
    {result : Except RuntimeError α} :
    Ends (fun _ => Eval.scope >>= fun scope => Eval.ofExcept wrap (outcome scope))
        before result after ↔
      result = (outcome before.scope).mapError wrap ∧ after = before :=
  ends_ofExcept_iff

end Task

namespace Arithmetic

variable {env : Env} {before after : Machine}

section Evaluation

variable {expr left right : ArithExpr} {op : ArithOp} {word : Word}
variable {result : Except RuntimeError Int64}

theorem evaluate_stable
    (env : Env)
    (expr : ArithExpr) :
    Task.Stable fun below => evaluate below env expr :=
  fun _ _ atMost => Eval.RefinedBy.congruence.arithmetic (Task.Stable.evaluators atMost) rfl expr

theorem answers_iff :
    Answers env (.arith expr) before result after ↔
      Task.Ends (fun below => evaluate below env expr) before result after := by
  constructor
  · rintro ⟨_ | fuel, finished⟩
    · cases finished
    · exact ⟨fuel, finished⟩
  · rintro ⟨fuel, finished⟩
    exact ⟨fuel + 1, finished⟩

theorem answers_number_iff
    {value : Int64} :
    Answers env (.arith (.number value)) before result after ↔
      result = .ok value ∧ after = before :=
  answers_iff.trans Task.ends_pure_iff

theorem answers_negate_iff :
    Answers env (.arith (.negate expr)) before result after ↔
      ∃ reached, Answers env (.arith expr) before reached after ∧
        result = reached.map fun value => -value := by
  rw [answers_iff]
  refine (Task.ends_bind_iff (evaluate_stable env expr) fun _ => .const _).trans ?_
  constructor
  · rintro ⟨reached, between, ended, resumed⟩
    rcases reached with error | value
    all_goals
      obtain ⟨_, finished⟩ := resumed
      cases finished
      exact ⟨_, answers_iff.mpr ended, rfl⟩
  · rintro ⟨reached, answered, rfl⟩
    refine ⟨reached, after, answers_iff.mp answered, 0, ?_⟩
    rcases reached with error | value <;> rfl

/-- An operator is applied to its operands, from left to right, unless one of them fails. -/
theorem answers_binary_iff :
    Answers env (.arith (.binary op left right)) before result after ↔
      (∃ error, Answers env (.arith left) before (.error error) after ∧ result = .error error) ∨
        ∃ first between, Answers env (.arith left) before (.ok first) between ∧
          ((∃ error, Answers env (.arith right) between (.error error) after ∧
              result = .error error) ∨
            ∃ second, Answers env (.arith right) between (.ok second) after ∧
              result = (apply op first second).mapError .arithmetic) := by
  have rightStable :
      ∀ first : Int64,
        Task.Stable fun below =>
          evaluate below env right >>= fun second =>
            Eval.ofExcept .arithmetic (apply op first second) :=
    fun first => (evaluate_stable env right).bind fun _ => .const _
  simp only [answers_iff]
  refine (Task.ends_bind_cases (evaluate_stable env left) rightStable).trans ?_
  refine or_congr Iff.rfl (exists_congr fun first => exists_congr fun between => ?_)
  refine and_congr Iff.rfl ?_
  refine (Task.ends_bind_cases (evaluate_stable env right) fun _ => .const _).trans ?_
  refine or_congr Iff.rfl (exists_congr fun second => ?_)
  simp only [Task.ends_ofExcept_iff]
  constructor
  · rintro ⟨ended, answered, rfl, rfl⟩
    exact ⟨answered, rfl⟩
  · rintro ⟨answered, rfl⟩
    exact ⟨after, answered, rfl, rfl⟩

/-- An operand is what its text denotes in the scope that evaluating it leaves behind. -/
theorem answers_word_iff_of_connected
    (connected : .arithToWord ∈ env.setup.connections) :
    Answers env (.arith (.word word)) before result after ↔
      (∃ error, Answers env (.word word) before (.error error) after ∧ result = .error error) ∨
        ∃ text, Answers env (.word word) before (.ok text) after ∧
          result = (operand after.scope text).mapError .arithmetic := by
  have isBind :
      (fun below => evaluate below env (.word word)) =
        fun below : Evaluator =>
          below.word env word >>= fun text =>
            Eval.scope >>= fun scope => Eval.ofExcept .arithmetic (operand scope text) := by
    funext below
    rw [evaluate, Eval.require, if_pos connected]
    rfl
  have stable : Task.Stable fun below => below.word env word := .request env (.word word)
  rw [answers_iff, isBind, Task.ends_bind_cases stable fun _ => .const _]
  refine or_congr Iff.rfl (exists_congr fun text => ?_)
  simp only [Task.ends_ofScope_iff fun scope => operand scope text]
  constructor
  · rintro ⟨between, answered, rfl, rfl⟩
    exact ⟨answered, rfl⟩
  · rintro ⟨answered, rfl⟩
    exact ⟨after, answered, rfl, rfl⟩

theorem answers_word_iff_of_unconnected
    (unconnected : .arithToWord ∉ env.setup.connections) :
    Answers env (.arith (.word word)) before result after ↔
      after = before ∧ result = .error (.wiring (.missing Connection.arithToWord.name)) := by
  have isThrow :
      (fun below => evaluate below env (.word word)) =
        fun _ => throw (.wiring (.missing Connection.arithToWord.name)) := by
    funext below
    rw [evaluate, Eval.require, if_neg unconnected]
    rfl
  rw [answers_iff, isThrow]
  constructor
  · rintro ⟨_, finished⟩
    cases finished
    exact ⟨rfl, rfl⟩
  · rintro ⟨rfl, rfl⟩
    exact ⟨0, rfl⟩

/-- An operand needs a connection to be evaluated over. -/
theorem answers_word_iff :
    Answers env (.arith (.word word)) before result after ↔
      (.arithToWord ∉ env.setup.connections ∧ after = before ∧
          result = .error (.wiring (.missing Connection.arithToWord.name))) ∨
        .arithToWord ∈ env.setup.connections ∧
          ((∃ error, Answers env (.word word) before (.error error) after ∧
              result = .error error) ∨
            ∃ text, Answers env (.word word) before (.ok text) after ∧
              result = (operand after.scope text).mapError .arithmetic) := by
  by_cases connected : .arithToWord ∈ env.setup.connections
  · simp only [answers_word_iff_of_connected connected, connected, not_true_eq_false, false_and,
      false_or, true_and]
  · simp only [answers_word_iff_of_unconnected connected, connected, not_false_eq_true, true_and,
      false_and, or_false]

end Evaluation

end Arithmetic

namespace ArithOp

/-- Whether the operator divides. -/
def divides :
    ArithOp →
    Bool
  | .add => false
  | .sub => false
  | .mul => false
  | .div => true
  | .rem => true

/-- What an operator makes of two integers; a quotient is cut off towards zero. -/
def exact :
    ArithOp →
    Int →
    Int →
    Int
  | .add, left, right => left + right
  | .sub, left, right => left - right
  | .mul, left, right => left * right
  | .div, left, right => left.tdiv right
  | .rem, left, right => left.tmod right

end ArithOp

namespace ArithExpr

/-- Whether an expression divides nowhere. -/
def isPolynomial :
    ArithExpr →
    Bool
  | .number _ => true
  | .word _ => true
  | .negate operand => operand.isPolynomial
  | .binary op left right => !op.divides && left.isPolynomial && right.isPolynomial

/-- The operands of an expression that are words. -/
def words :
    ArithExpr →
    List Word
  | .number _ => []
  | .word operand => [operand]
  | .negate operand => operand.words
  | .binary _ left right => left.words ++ right.words

end ArithExpr

namespace Arithmetic

/-- The integer that an expression without division has, its operands read from left to right. -/
inductive Exact
    (env : Env) :
    ArithExpr →
    Machine →
    Int →
    Machine →
    Prop where
  | number {machine : Machine} (value : Int64) :
      Exact env (.number value) machine value.toInt machine
  | word {word : Word} {before after : Machine} {text : String} {number : Int} :
      .arithToWord ∈ env.setup.connections →
      Answers env (.word word) before (.ok text) after →
      Denotes after.scope text number →
      Exact env (.word word) before number after
  | negate {operand : ArithExpr} {before after : Machine} {number : Int} :
      Exact env operand before number after →
      Exact env (.negate operand) before (-number) after
  | binary {op : ArithOp} {left right : ArithExpr} {before between after : Machine}
      {first second : Int} :
      op.divides = false →
      Exact env left before first between →
      Exact env right between second after →
      Exact env (.binary op left right) before (op.exact first second) after

/-- The ways in which an expression fails. -/
inductive Fails
    (env : Env) :
    ArithExpr →
    Machine →
    RuntimeError →
    Machine →
    Prop where
  | unconnected {word : Word} {machine : Machine} :
      .arithToWord ∉ env.setup.connections →
      Fails env (.word word) machine (.wiring (.missing Connection.arithToWord.name)) machine
  /-- A word that fails is no operand. -/
  | word {word : Word} {before after : Machine} {error : RuntimeError} :
      .arithToWord ∈ env.setup.connections →
      Answers env (.word word) before (.error error) after →
      Fails env (.word word) before error after
  | operand {word : Word} {before after : Machine} {text : String} :
      .arithToWord ∈ env.setup.connections →
      Answers env (.word word) before (.ok text) after →
      (∀ number, ¬ Denotes after.scope text number) →
      Fails env (.word word) before (.arithmetic (refusal after.scope text)) after
  | negate {operand : ArithExpr} {before after : Machine} {error : RuntimeError} :
      Fails env operand before error after →
      Fails env (.negate operand) before error after
  | left {op : ArithOp} {left right : ArithExpr} {before after : Machine}
      {error : RuntimeError} :
      Fails env left before error after →
      Fails env (.binary op left right) before error after
  | right {op : ArithOp} {left right : ArithExpr} {before between after : Machine}
      {first : Int64} {error : RuntimeError} :
      Answers env (.arith left) before (.ok first) between →
      Fails env right between error after →
      Fails env (.binary op left right) before error after
  | divisor {op : ArithOp} {left right : ArithExpr} {before between after : Machine}
      {first : Int64} :
      op.divides = true →
      Answers env (.arith left) before (.ok first) between →
      Answers env (.arith right) between (.ok 0) after →
      Fails env (.binary op left right) before (.arithmetic (.divisionByZero first op)) after

/-- The quotient and the remainder of words. -/
structure IsDivision
    (dividend divisor quotient remainder : Int64) :
    Prop where
  recombined : dividend.toInt = (quotient.toInt * divisor.toInt + remainder.toInt).bmod (2 ^ 64)
  smaller : remainder.toInt.natAbs < divisor.toInt.natAbs
  signed : remainder = 0 ∨ remainder.toInt.sign = dividend.toInt.sign
  truncated : quotient.toInt = (dividend.toInt.tdiv divisor.toInt).bmod (2 ^ 64)

section Words

variable {op : ArithOp} {dividend divisor left right : Int64}

/-- Where an operator does not divide, words follow the integers. -/
theorem apply_eq_exact
    (polynomial : op.divides = false)
    (left right : Int) :
    apply op (.ofInt left) (.ofInt right) = .ok (.ofInt (op.exact left right)) := by
  cases op with
  | add => exact congrArg _ (Int64.ofInt_add _ _).symm
  | sub => exact congrArg _ (Int64.ofInt_sub _ _).symm
  | mul => exact congrArg _ (Int64.ofInt_mul _ _).symm
  | div => cases polynomial
  | rem => cases polynomial

/-- An operator fails exactly if it divides by zero. -/
theorem apply_eq_error_iff
    {cause : ArithError} :
    apply op left right = .error cause ↔
      op.divides = true ∧ right = 0 ∧ cause = .divisionByZero left op := by
  cases op with
  | add | sub | mul => simp [apply, ArithOp.divides]
  | div | rem =>
      rw [apply]
      split
      next isZero => simp [ArithOp.divides, isZero, eq_comm]
      next notZero => simp [notZero]

/-- Words are divided as integers are, up to the one quotient that wraps around. -/
theorem isDivision
    (notZero : divisor ≠ 0) :
    IsDivision dividend divisor (dividend / divisor) (dividend % divisor) where
  recombined := by
    have wrapped : dividend.toInt.bmod (2 ^ 64) = dividend.toInt := Int64.toInt_bmod dividend
    rw [Int64.toInt_div, Int64.toInt_mod, ← Int.bmod_add_bmod, Int.bmod_mul_bmod,
      Int.bmod_add_bmod, Int.tdiv_mul_add_tmod, wrapped]
  smaller := by
    have positive : 0 < divisor.toInt.natAbs :=
      Int.natAbs_pos.mpr fun isZero => notZero (Int64.toInt_inj.mp isZero)
    rw [Int64.toInt_mod, Int.natAbs_tmod]
    exact Nat.mod_lt _ positive
  signed := by
    rw [← Int64.toInt_inj, Int64.toInt_mod, Int.sign_tmod]
    split
    next divides => exact .inl (Int.tmod_eq_zero_of_dvd divides)
    next => exact .inr rfl
  truncated := Int64.toInt_div dividend divisor

end Words

variable {env : Env} {before after : Machine}

/-- A denoted operand is read as a word, and wrapping around changes nothing about it. -/
theorem Denotes.operand_eq
    {scope : Scope}
    {text : String}
    {number : Int}
    (denotes : Denotes scope text number) :
    operand scope text = .ok (.ofInt number) := by
  obtain ⟨word, rfl⟩ := denotes.exists_word
  rw [operand_eq_ok_iff, Int64.ofInt_toInt]
  exact denotes

/-- An expression without division that has an integer is answered by its word. -/
theorem Exact.answers
    {expr : ArithExpr}
    {number : Int}
    (exact : Exact env expr before number after) :
    Answers env (.arith expr) before (.ok (.ofInt number)) after := by
  induction exact with
  | number value =>
      rw [Int64.ofInt_toInt]
      exact answers_number_iff.mpr ⟨rfl, rfl⟩
  | word connected answered denotes =>
      exact answers_word_iff.mpr (.inr ⟨connected, .inr ⟨_, answered,
        ok_eq_mapError_iff.mpr denotes.operand_eq⟩⟩)
  | negate _ inductionHypothesis =>
      refine answers_negate_iff.mpr ⟨_, inductionHypothesis, ?_⟩
      rw [Int64.ofInt_neg]
      rfl
  | binary polynomial _ _ leftHypothesis rightHypothesis =>
      exact answers_binary_iff.mpr (.inr ⟨_, _, leftHypothesis, .inr ⟨_, rightHypothesis,
        ok_eq_mapError_iff.mpr (apply_eq_exact polynomial _ _)⟩⟩)

/-- An expression without division that is answered has an integer, and that word is answered. -/
theorem exists_exact :
    ∀ {expr : ArithExpr} {before after : Machine} {value : Int64},
      expr.isPolynomial = true →
      Answers env (.arith expr) before (.ok value) after →
      ∃ number, Exact env expr before number after ∧ value = .ofInt number
  | .number fixed, before, after, value, _, answered => by
      obtain ⟨same, rfl⟩ := answers_number_iff.mp answered
      cases same
      exact ⟨_, .number fixed, (Int64.ofInt_toInt fixed).symm⟩
  | .word word, before, after, value, _, answered => by
      obtain ⟨-, -, failed⟩ | ⟨connected, ⟨_, -, failed⟩ | ⟨text, reached, read⟩⟩ :=
        answers_word_iff.mp answered
      · cases failed
      · cases failed
      · have denotes := operand_eq_ok_iff.mp (ok_eq_mapError_iff.mp read)
        exact ⟨_, .word connected reached denotes, (Int64.ofInt_toInt value).symm⟩
  | .negate operand, before, after, value, polynomial, answered => by
      obtain ⟨reached, ended, same⟩ := answers_negate_iff.mp answered
      cases reached with
      | error error => cases same
      | ok inner =>
          cases same
          have operandPolynomial : operand.isPolynomial = true := polynomial
          obtain ⟨number, exact, rfl⟩ := exists_exact operandPolynomial ended
          exact ⟨_, .negate exact, (Int64.ofInt_neg number).symm⟩
  | .binary op left right, before, after, value, polynomial, answered => by
      rw [ArithExpr.isPolynomial, Bool.and_eq_true, Bool.and_eq_true, Bool.not_eq_true']
        at polynomial
      obtain ⟨_, -, failed⟩ | ⟨first, between, leftEnded, ⟨_, -, failed⟩ | ⟨second, ended, same⟩⟩ :=
        answers_binary_iff.mp answered
      · cases failed
      · cases failed
      · obtain ⟨number, exact, rfl⟩ := exists_exact polynomial.1.2 leftEnded
        obtain ⟨other, otherExact, rfl⟩ := exists_exact polynomial.2 ended
        have applied := ok_eq_mapError_iff.mp same
        rw [apply_eq_exact polynomial.1.1] at applied
        cases applied
        exact ⟨_, .binary polynomial.1.1 exact otherExact, rfl⟩

/-- Where an expression fails in one of the listed ways, it ends with the error. -/
theorem Fails.answers
    {expr : ArithExpr}
    {error : RuntimeError}
    (fails : Fails env expr before error after) :
    Answers env (.arith expr) before (.error error) after := by
  induction fails with
  | unconnected unconnected => exact answers_word_iff.mpr (.inl ⟨unconnected, rfl, rfl⟩)
  | word connected failed =>
      exact answers_word_iff.mpr (.inr ⟨connected, .inl ⟨_, failed, rfl⟩⟩)
  | operand connected answered nothing =>
      have refused := operand_eq_error_iff.mpr ⟨nothing, rfl⟩
      exact answers_word_iff.mpr (.inr ⟨connected, .inr ⟨_, answered,
        error_eq_mapError_iff.mpr ⟨_, refused, rfl⟩⟩⟩)
  | negate _ inductionHypothesis => exact answers_negate_iff.mpr ⟨_, inductionHypothesis, rfl⟩
  | left _ inductionHypothesis =>
      exact answers_binary_iff.mpr (.inl ⟨_, inductionHypothesis, rfl⟩)
  | right leftEnded _ inductionHypothesis =>
      exact answers_binary_iff.mpr (.inr ⟨_, _, leftEnded, .inl ⟨_, inductionHypothesis, rfl⟩⟩)
  | @divisor op _ _ _ _ _ first divides leftEnded ended =>
      have refused : apply op first 0 = .error (.divisionByZero first op) :=
        apply_eq_error_iff.mpr ⟨divides, rfl, rfl⟩
      exact answers_binary_iff.mpr (.inr ⟨_, _, leftEnded, .inr ⟨_, ended,
        error_eq_mapError_iff.mpr ⟨_, refused, rfl⟩⟩⟩)

/-- An expression that ends with an error fails in one of the listed ways. -/
theorem fails_of_answers :
    ∀ {expr : ArithExpr} {before after : Machine} {error : RuntimeError},
      Answers env (.arith expr) before (.error error) after →
      Fails env expr before error after
  | .number fixed, before, after, error, answered => by
      obtain ⟨failed, -⟩ := answers_number_iff.mp answered
      cases failed
  | .word word, before, after, error, answered => by
      obtain ⟨unconnected, rfl, failed⟩ | ⟨connected, ⟨_, failed, same⟩ | ⟨text, reached, read⟩⟩ :=
        answers_word_iff.mp answered
      · cases failed
        exact .unconnected unconnected
      · cases same
        exact .word connected failed
      · obtain ⟨cause, refused, rfl⟩ := error_eq_mapError_iff.mp read
        obtain ⟨nothing, rfl⟩ := operand_eq_error_iff.mp refused
        exact .operand connected reached nothing
  | .negate operand, before, after, error, answered => by
      obtain ⟨reached, ended, same⟩ := answers_negate_iff.mp answered
      cases reached with
      | error other =>
          cases same
          exact .negate (fails_of_answers ended)
      | ok value => cases same
  | .binary op left right, before, after, error, answered => by
      obtain ⟨_, ended, same⟩ |
          ⟨first, between, leftEnded, ⟨_, ended, same⟩ | ⟨second, ended, same⟩⟩ :=
        answers_binary_iff.mp answered
      · cases same
        exact .left (fails_of_answers ended)
      · cases same
        exact .right leftEnded (fails_of_answers ended)
      · obtain ⟨cause, refused, rfl⟩ := error_eq_mapError_iff.mp same
        obtain ⟨divides, rfl, rfl⟩ := apply_eq_error_iff.mp refused
        exact .divisor divides leftEnded ended

/-- An expression ends if its words do. -/
theorem exists_answer :
    ∀ (expr : ArithExpr) (before : Machine),
      (∀ word ∈ expr.words, ∀ machine, ∃ result after,
        Answers env (.word word) machine result after) →
      ∃ result after, Answers env (.arith expr) before result after
  | .number value, before, _ => ⟨_, _, answers_number_iff.mpr ⟨rfl, rfl⟩⟩
  | .word word, before, ends => by
      by_cases connected : .arithToWord ∈ env.setup.connections
      · obtain ⟨error | text, after, answered⟩ := ends word (.head []) before
        · exact ⟨_, _, answers_word_iff.mpr (.inr ⟨connected, .inl ⟨_, answered, rfl⟩⟩)⟩
        · exact ⟨_, _, answers_word_iff.mpr (.inr ⟨connected, .inr ⟨_, answered, rfl⟩⟩)⟩
      · exact ⟨_, _, answers_word_iff.mpr (.inl ⟨connected, rfl, rfl⟩)⟩
  | .negate operand, before, ends => by
      obtain ⟨reached, after, ended⟩ := exists_answer operand before ends
      exact ⟨_, _, answers_negate_iff.mpr ⟨_, ended, rfl⟩⟩
  | .binary op left right, before, ends => by
      obtain ⟨error | first, between, leftEnded⟩ := exists_answer left before
        fun word isWord => ends word (List.mem_append_left _ isWord)
      · exact ⟨_, _, answers_binary_iff.mpr (.inl ⟨_, leftEnded, rfl⟩)⟩
      · obtain ⟨error | second, after, ended⟩ := exists_answer right between
          fun word isWord => ends word (List.mem_append_right _ isWord)
        · exact ⟨_, _, answers_binary_iff.mpr (.inr ⟨_, _, leftEnded, .inl ⟨_, ended, rfl⟩⟩)⟩
        · exact ⟨_, _, answers_binary_iff.mpr (.inr ⟨_, _, leftEnded, .inr ⟨_, ended, rfl⟩⟩)⟩

/--
Arithmetic is exact up to multiples of the number of words of 64 bits. Without division
an expression is answered exactly if its operands denote integers, by the word of the
integer that it has. By a divisor that is not zero every word is divided. There is no
other way to fail than the listed ones, and an expression ends whenever its words do.
-/
theorem arithmetic_is_exact
    (env : Env) :
    (∀ expr before value after,
        expr.isPolynomial = true →
        (Answers env (.arith expr) before (.ok value) after ↔
          ∃ number, Exact env expr before number after ∧
            value.toInt = number.bmod (2 ^ 64))) ∧
      (∀ left right before dividend between divisor after,
        Answers env (.arith left) before (.ok dividend) between →
        Answers env (.arith right) between (.ok divisor) after →
        divisor ≠ 0 →
        ∃ quotient remainder,
          Answers env (.arith (.binary .div left right)) before (.ok quotient) after ∧
            Answers env (.arith (.binary .rem left right)) before (.ok remainder) after ∧
            IsDivision dividend divisor quotient remainder) ∧
      (∀ expr before error after,
        Answers env (.arith expr) before (.error error) after ↔
          Fails env expr before error after) ∧
      ∀ expr before,
        (∀ word ∈ expr.words, ∀ machine, ∃ result after,
          Answers env (.word word) machine result after) →
        ∃ result after, Answers env (.arith expr) before result after := by
  refine ⟨fun expr before value after polynomial => ?_,
    fun left right before dividend between divisor after leftEnded ended notZero => ?_,
    fun _ _ _ _ => ⟨fails_of_answers, Fails.answers⟩, exists_answer⟩
  · have word_iff : ∀ number : Int, value = .ofInt number ↔ value.toInt = number.bmod (2 ^ 64) := by
      intro number
      rw [← Int64.toInt_inj, Int64.toInt_ofInt]
      rfl
    simp only [← word_iff]
    constructor
    · exact exists_exact polynomial
    · rintro ⟨number, exact, rfl⟩
      exact exact.answers
  · refine ⟨dividend / divisor, dividend % divisor, ?_, ?_, isDivision notZero⟩
    all_goals
      refine answers_binary_iff.mpr (.inr ⟨_, _, leftEnded, .inr ⟨_, ended, ?_⟩⟩)
      exact ok_eq_mapError_iff.mpr (if_neg notZero)

/-- A product that is too large, the quotient that is too large, and a divisor that is zero. -/
theorem extreme_words_are_exact :
    Answers .connected (.arith (.binary .mul (.word (.literal "7")) (.number Int64.maxValue)))
        .fresh (.ok 9223372036854775801) .fresh ∧
      (∃ quotient remainder,
        Answers .connected (.arith (.binary .div (.number Int64.minValue) (.number (-1))))
            .fresh (.ok quotient) .fresh ∧
          Answers .connected (.arith (.binary .rem (.number Int64.minValue) (.number (-1))))
            .fresh (.ok remainder) .fresh ∧
          IsDivision Int64.minValue (-1) quotient remainder) ∧
      Answers .connected (.arith (.binary .rem (.number 5) (.word (.literal ""))))
        .fresh (.error (.arithmetic (.divisionByZero 5 .rem))) .fresh ∧
      ∃ result after,
        Answers .connected (.arith (.negate (.word (.literal "+")))) .fresh result after := by
  obtain ⟨exactly, divided, fails, ends⟩ := arithmetic_is_exact .connected
  have isConnected : .arithToWord ∈ Env.connected.setup.connections := by decide
  have literal :
      ∀ text machine,
        Answers .connected (.word (.literal text)) machine (.ok text) machine :=
    fun _ _ => ⟨1, rfl⟩
  have number :
      ∀ value, Answers .connected (.arith (.number value)) .fresh (.ok value) .fresh :=
    fun _ => ⟨1, rfl⟩
  have seven : Denotes Machine.fresh.scope "7" 7 :=
    .own (.numeral ⟨[], ['7'], [], rfl, rfl, rfl, .unsigned ⟨List.cons_ne_nil _ _, rfl⟩⟩
      (by decide))
  have zero : Denotes Machine.fresh.scope "" (0 : Int64).toInt := .own (.blank rfl)
  refine ⟨?_, ?_, ?_, ?_⟩
  · have product :
        Exact .connected (.binary .mul (.word (.literal "7")) (.number Int64.maxValue))
          .fresh (7 * Int64.maxValue.toInt) .fresh :=
      .binary rfl (.word isConnected (literal "7" _) seven) (.number Int64.maxValue)
    exact (exactly _ _ _ _ rfl).mpr ⟨_, product, by decide⟩
  · exact divided _ _ _ _ _ _ _ (number Int64.minValue) (number (-1)) (by decide)
  · refine (fails _ _ _ _).mpr (.divisor rfl (number 5) ?_)
    exact answers_word_iff.mpr (.inr ⟨isConnected, .inr ⟨_, literal "" _,
      ok_eq_mapError_iff.mpr (operand_eq_ok_iff.mpr zero)⟩⟩)
  · refine ends _ _ fun word isWord machine => ?_
    obtain rfl := List.mem_singleton.mp isWord
    exact ⟨_, _, literal "+" machine⟩

end Arithmetic

end ShellCore
