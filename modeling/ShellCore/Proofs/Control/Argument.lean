import ShellCore.Proofs.Evaluation.Task
import ShellCore.Proofs.Text.Numeral
import ShellCore.Proofs.Tracing.Evaluation

namespace ShellCore

/-!
# Arguments of control statements

The argument of a control statement is judged by the integer that it writes, as far
as this fits 64 bits: a return keeps its remainder by 256, a loop keyword takes it as
a level or refuses it. A numeral that is too long for 64 bits is refused as no numeral.
-/

open Text

/-- The signal returns an integer as a status, of which it keeps the remainder by 256. -/
def ControlSignal.Returns
    (signal : ControlSignal)
    (value : Int)
    (token : SpanId) :
    Prop :=
  ∃ code : UInt8, signal = ⟨.returnCall (.status code), token⟩ ∧ (code.toNat : Int) = value % 256

/-- A status of 64 bits keeps its remainder by 256. -/
theorem toNat_truncateStatus
    (status : Int64) :
    ((truncateStatus status).toNat : Int) = status.toInt % 256 := by
  have low : (truncateStatus status).toNat = status.toBitVec.toNat % 256 := rfl
  have signed := BitVec.toInt_eq_toNat_cond status.toBitVec
  have bounded := status.toBitVec.isLt
  have same : status.toInt = status.toBitVec.toInt := rfl
  rw [low, same, signed]
  split <;> omega

namespace Control

variable {keyword : ControlKeyword} {text : String} {token : SpanId}

/-- How a control statement ends, judged by the integer that its argument writes. -/
inductive EndsByValue
    (keyword : ControlKeyword)
    (text : String)
    (token : SpanId) :
    Except RuntimeError ControlFlow →
    Prop where
  | returns {value : Int} {signal : ControlSignal} :
      keyword = .returnCall →
      Writes text value →
      signal.Returns value token →
      EndsByValue keyword text token (.ok (.raise signal))
  | breaks {level : UInt32} :
      keyword = .breakLoop →
      Writes text level.toNat →
      1 ≤ level.toNat →
      EndsByValue keyword text token (.ok (.raise (.breakLoops level token)))
  | continues {level : UInt32} :
      keyword = .continueLoop →
      Writes text level.toNat →
      1 ≤ level.toNat →
      EndsByValue keyword text token (.ok (.raise (.continueLoops level token)))
  /-- The error tells the integer, as far as it can. -/
  | outOfRange {value : Int} {level : Int64} :
      keyword ≠ .returnCall →
      Writes text value →
      (value < 1 ∨ UInt32.size ≤ value) →
      (FitsInt64 value → level.toInt = value) →
      EndsByValue keyword text token (.error (.badLoopLevel keyword level token))
  | notNumeric :
      (∀ value, ¬ Writes text value) →
      EndsByValue keyword text token (.error (.numericArgRequired keyword text token))

/-- The signal of a keyword with a number of 64 bits. -/
def numberSignal
    (keyword : ControlKeyword)
    (number : Int64)
    (token : SpanId) :
    Except RuntimeError ControlSignal :=
  match keyword with
  | .returnCall => .ok (.returnStatus number token)
  | keyword => loopSignal keyword number token

/-- The signal of a keyword with the text of an argument. -/
def textSignal
    (keyword : ControlKeyword)
    (text : String)
    (token : SpanId) :
    Except RuntimeError ControlSignal :=
  match readInt64? (trim text) with
  | some number => numberSignal keyword number token
  | none => .error (.numericArgRequired keyword text token)

/-- A number of 64 bits is judged by its value. -/
theorem numberSignal_endsByValue
    {number : Int64}
    (writes : Writes text number.toInt) :
    EndsByValue keyword text token ((numberSignal keyword number token).map .raise) := by
  by_cases isReturn : keyword = .returnCall
  · subst isReturn
    exact .returns rfl writes ⟨_, rfl, toNat_truncateStatus number⟩
  · have loops : numberSignal keyword number token = loopSignal keyword number token := by
      cases keyword with
      | returnCall => exact absurd rfl isReturn
      | breakLoop | continueLoop => rfl
    rw [loops, loopSignal]
    split
    next bounds =>
      obtain ⟨positive, bounded⟩ := bounds
      have size : UInt32.size = 4294967296 := rfl
      have level_eq : (UInt32.ofNat number.toInt.toNat).toNat = number.toInt.toNat :=
        UInt32.toNat_ofNat_of_lt' (by omega)
      have exact : ((UInt32.ofNat number.toInt.toNat).toNat : Int) = number.toInt := by omega
      cases keyword with
      | returnCall => exact absurd rfl isReturn
      | breakLoop => exact .breaks rfl (exact.symm ▸ writes) (by omega)
      | continueLoop => exact .continues rfl (exact.symm ▸ writes) (by omega)
    next outside =>
      refine .outOfRange isReturn writes ?_ fun _ => rfl
      omega

theorem textSignal_of_tooLong
    (tooLong : ∀ value, Writes text value → ¬ FitsInt64 value) :
    textSignal keyword text token = .error (.numericArgRequired keyword text token) := by
  rw [textSignal, read_eq_none tooLong]

/-- The text of an argument is judged by what it writes exactly if that fits 64 bits. -/
theorem textSignal_endsByValue_iff :
    EndsByValue keyword text token ((textSignal keyword text token).map .raise) ↔
      ∀ value, Writes text value → FitsInt64 value := by
  constructor
  · intro byValue value writes
    by_contra tooLong
    have onlyValue : ∀ other, Writes text other → ¬ FitsInt64 other := by
      intro other alsoWrites
      rwa [writes.unique alsoWrites]
    rw [textSignal_of_tooLong onlyValue] at byValue
    cases byValue with
    | notNumeric noValue => exact noValue value writes
  · intro fits
    by_cases isNumeral : ∃ value, Writes text value
    · obtain ⟨value, writes⟩ := isNumeral
      obtain ⟨number, read, rfl⟩ := writes.read (fits value writes)
      rw [textSignal, read]
      exact numberSignal_endsByValue writes
    · have noValue : ∀ value, ¬ Writes text value := fun value writes =>
        isNumeral ⟨value, writes⟩
      rw [textSignal_of_tooLong fun value writes => absurd writes (noValue value)]
      exact .notNumeric noValue

section Statements

variable {below : Evaluator} {env : Env} {word : Word} {before between : Machine}

/-- The signal of a control statement is that of the text that its word evaluates to. -/
theorem signal_status_run
    (keyword : ControlKeyword)
    (token : SpanId)
    (wired : env.setup.Wired)
    (evaluated : (below.word env word).run before = some (.ok text, between)) :
    (signal below env keyword (some (.status word)) token).run before =
      some (textSignal keyword text token, between) := by
  have numeric :
      (numericArgument below env keyword word token).run before =
        some (match readInt64? (trim text) with
          | some number => .ok number
          | none => .error (.numericArgRequired keyword text token), between) := by
    unfold numericArgument Eval.require
    rw [if_pos (wired .commandToWord), pure_bind]
    refine Eval.bind_eq_some_iff.mpr (.inr ⟨text, between, evaluated, ?_⟩)
    cases readInt64? (trim text) <;> rfl
  have goesOn :
      (numericArgument below env keyword word token >>= fun number =>
        Eval.ofExcept id (numberSignal keyword number token)).run before =
          some (textSignal keyword text token, between) := by
    refine Eval.bind_eq_some_iff.mpr ?_
    rw [numeric, textSignal]
    cases readInt64? (trim text) with
    | none => exact .inl ⟨_, rfl, rfl⟩
    | some number =>
        refine .inr ⟨number, between, rfl, ?_⟩
        dsimp only
        cases numberSignal keyword number token <;> rfl
  cases keyword with
  | returnCall | breakLoop | continueLoop => exact goesOn

/-- A control statement ends as the text of its argument asks, traced or not. -/
theorem execute_status_run
    (keyword : ControlKeyword)
    (token : SpanId)
    (wired : env.setup.Wired)
    (evaluated : (below.word env word).run before = some (.ok text, between)) :
    ∃ after,
      (execute below env keyword (some (.status word)) token).run before =
        some ((textSignal keyword text token).map .raise, after) := by
  have asked := signal_status_run keyword token wired evaluated
  cases shape : textSignal keyword text token with
  | error error =>
      rw [shape] at asked
      exact ⟨between, Eval.bind_eq_some_iff.mpr (.inl ⟨error, asked, rfl⟩)⟩
  | ok raised =>
      rw [shape] at asked
      have traced :
          ∃ after, (Trace.onSignal env raised).run between = some (.ok (), after) := by
        rw [Trace.onSignal, Trace.emitIfOn, Eval.run_scope_bind]
        split
        · obtain ⟨lead, emitted⟩ := Erasure.emit_answers wired raised.display between
          exact ⟨_, emitted⟩
        · exact ⟨between, rfl⟩
      obtain ⟨after, traced⟩ := traced
      refine ⟨after, Eval.bind_answers_iff.mpr ⟨raised, between, asked, ?_⟩⟩
      unfold Eval.require
      rw [if_pos (wired .commandToTracer), pure_bind]
      exact Eval.bind_answers_iff.mpr ⟨(), after, traced, rfl⟩

theorem executes_status
    (keyword : ControlKeyword)
    (token : SpanId)
    (wired : env.setup.Wired)
    (evaluated : Answers env (.word word) before (.ok text) between) :
    ∃ after,
      Executes env (.control keyword (some (.status word)) token) before
        ((textSignal keyword text token).map .raise) after := by
  obtain ⟨fuel, answered⟩ := evaluated
  obtain ⟨after, ran⟩ := execute_status_run keyword token wired answered
  exact ⟨_, executes_iff.mpr ⟨after, ⟨fuel, ran⟩, rfl⟩⟩

end Statements

end Control

namespace Function

variable {env : Env} {function : Function} {before left : Machine}

/-- The body of a function, called with arguments, raises a signal. -/
def Raises
    (env : Env)
    (function : Function)
    (args : List Value)
    (before : Machine)
    (signal : ControlSignal) :
    Prop :=
  ∃ left,
    ExecutesFrom env .ok function.body
      (before.mapScope fun scope => scope.enterCall function args) (.ok (.raise signal)) left

/-- A frame ends as the body in it does. -/
theorem runFrame_ends
    {args : List Value}
    {result : Except RuntimeError ControlFlow}
    (ran :
      ExecutesFrom env .ok function.body
        (before.mapScope fun scope => scope.enterCall function args) result left) :
    Task.Ends (fun below => runFrame below env function args) before result
      (left.mapScope fun scope => scope.leaveCall before.scope) := by
  obtain ⟨fuel, finished⟩ := ran
  refine ⟨fuel, Run.bind_eq_some_iff.mpr ⟨before, before, rfl, ?_⟩⟩
  refine Run.bind_eq_some_iff.mpr ⟨(), _, rfl, ?_⟩
  exact Run.bind_eq_some_iff.mpr ⟨result, left, finished, rfl⟩

/-- A procedure whose body returns an integer ends with the remainder of that by 256. -/
theorem callProc_of_returns
    {argv : List String}
    {signal : ControlSignal}
    {value : Int}
    {token : SpanId}
    (untyped : function.typed = false)
    (raises : Raises env function ((argv.drop 1).map .str) before signal)
    (returns : signal.Returns value token) :
    ∃ status after,
      Task.Ends (fun below => callProc below env function argv) before (.ok status) after ∧
        status.toInt = value % 256 := by
  obtain ⟨left, ran⟩ := raises
  obtain ⟨code, rfl, kept⟩ := returns
  obtain ⟨fuel, framed⟩ := runFrame_ends ran
  have ended :
      (callProc (evaluator fuel) env function argv).run before =
        some (.ok (Int32.ofNat code.toNat),
          left.mapScope fun scope => scope.leaveCall before.scope) := by
    unfold callProc
    rw [untyped]
    exact Eval.bind_answers_iff.mpr ⟨_, _, framed, rfl⟩
  have bounded := code.toNat_lt
  exact ⟨_, _, ⟨fuel, ended⟩, by rw [Int32.toInt_ofNat_of_lt (by omega), kept]⟩

/-- A typed function whose body returns an integer gives the remainder of that by 256. -/
theorem callTyped_of_returns
    {args : List Value}
    {signal : ControlSignal}
    {value : Int}
    {token : SpanId}
    (wired : env.setup.Wired)
    (raises : Raises env function args before signal)
    (returns : signal.Returns value token) :
    ∃ number after,
      Task.Ends (fun below => callTyped below env function args) before
          (.ok (.int number)) after ∧
        number.toInt = value % 256 := by
  obtain ⟨left, ran⟩ := raises
  obtain ⟨code, rfl, kept⟩ := returns
  obtain ⟨fuel, framed⟩ := runFrame_ends ran
  have ended :
      (callTyped (evaluator fuel) env function args).run before =
        some (.ok (.int (Int64.ofNat code.toNat)),
          left.mapScope fun scope => scope.leaveCall before.scope) := by
    unfold callTyped Eval.require
    rw [if_pos (wired .exprToCommand), pure_bind]
    exact Eval.bind_answers_iff.mpr ⟨_, _, framed, rfl⟩
  have bounded := code.toNat_lt
  exact ⟨_, _, ⟨fuel, ended⟩, by rw [Int64.toInt_ofNat_of_lt (by omega), kept]⟩

end Function

namespace Control

/--
A control statement with a word ends, and always alike. It ends as the integer asks that
the text of the word writes, or as a text that writes none, exactly if that integer fits
64 bits; if it does not, the text is refused as if it wrote none. A procedure whose body
returns an integer ends with its remainder by 256, and a typed function gives that.
-/
theorem control_ends_by_value_within_64_bits
    {env : Env}
    (wired : env.setup.Wired) :
    (∀ {keyword : ControlKeyword} {word : Word} {token : SpanId} {text : String}
        {before between : Machine},
      Answers env (.word word) before (.ok text) between →
      ∃ result after,
        Executes env (.control keyword (some (.status word)) token) before result after ∧
        (∀ other later,
          Executes env (.control keyword (some (.status word)) token) before other later →
          other = result) ∧
        (EndsByValue keyword text token result ↔
          ∀ value, Writes text value → FitsInt64 value) ∧
        ∀ value,
          Writes text value →
          ¬ FitsInt64 value →
          result = .error (.numericArgRequired keyword text token)) ∧
    ∀ {function : Function} {before : Machine} {signal : ControlSignal} {value : Int}
        {token : SpanId},
      signal.Returns value token →
      (∀ {argv : List String},
        function.typed = false →
        function.Raises env ((argv.drop 1).map .str) before signal →
        ∃ status after,
          Task.Ends (fun below => function.callProc below env argv) before (.ok status) after ∧
            status.toInt = value % 256) ∧
      ∀ {args : List Value},
        function.Raises env args before signal →
        ∃ number after,
          Task.Ends (fun below => function.callTyped below env args) before
              (.ok (.int number)) after ∧
            number.toInt = value % 256 := by
  constructor
  · intro keyword word token text before between evaluated
    obtain ⟨after, executed⟩ := executes_status keyword token wired evaluated
    refine ⟨_, after, executed, fun other later alsoExecuted => ?_, textSignal_endsByValue_iff, ?_⟩
    · exact (Answers.unique executed alsoExecuted).1
    · intro value writes tooLong
      rw [textSignal_of_tooLong fun other alsoWrites => by rwa [writes.unique alsoWrites]]
      rfl
  · intro function before signal value token returns
    exact ⟨fun untyped raises => Function.callProc_of_returns untyped raises returns,
      fun raises => Function.callTyped_of_returns wired raises returns⟩

/-- A return that stands first in the body of a function raises what it is given. -/
theorem raises_of_return
    {env : Env}
    {function : Function}
    {rest : List Command}
    {args : List Value}
    {word : Word}
    {token : SpanId}
    {text : String}
    {value : Int}
    {before between : Machine}
    (wired : env.setup.Wired)
    (begins : function.body = .control .returnCall (some (.status word)) token :: rest)
    (evaluated :
      Answers env (.word word) (before.mapScope fun scope => scope.enterCall function args)
        (.ok text) between)
    (writes : Writes text value)
    (fits : FitsInt64 value) :
    ∃ signal, function.Raises env args before signal ∧ signal.Returns value token := by
  obtain ⟨number, read, rfl⟩ := writes.read fits
  obtain ⟨after, executed⟩ := executes_status .returnCall token wired evaluated
  have asked : textSignal .returnCall text token = .ok (.returnStatus number token) := by
    rw [textSignal, read]
    rfl
  rw [asked] at executed
  refine ⟨.returnStatus number token, ⟨after, ?_⟩, _, rfl, toNat_truncateStatus number⟩
  rw [begins]
  exact executesFrom_cons_iff.mpr ⟨_, after, executed, ⟨0, rfl⟩⟩

/-- A procedure that returns a number between blanks. -/
def returnsMinusOne : Function where
  name := "f"
  params := []
  body := [.control .returnCall (some (.status (.literal " -1\n"))) ⟨0⟩]
  typed := false
  span := ⟨1⟩

theorem minus_one_is_returned_by_value :
    ∃ result after status ended,
      Executes .connected (.control .returnCall (some (.status (.literal " -1\n"))) ⟨0⟩) .fresh
          result after ∧
        EndsByValue .returnCall " -1\n" ⟨0⟩ result ∧
          Task.Ends (fun below => returnsMinusOne.callProc below .connected ["f"]) .fresh
              (.ok status) ended ∧
            status.toInt = 255 := by
  have wired : Env.connected.setup.Wired := fun connection => by cases connection <;> decide
  have writes : Writes " -1\n" (-1) := writes_iff.mpr (by decide +kernel)
  have fits : ∀ value, Writes " -1\n" value → FitsInt64 value := by
    intro value alsoWrites
    rw [writes.unique alsoWrites]
    decide
  obtain ⟨byValue, returned⟩ := control_ends_by_value_within_64_bits wired
  obtain ⟨result, after, executed, _, classified, _⟩ :=
    @byValue .returnCall (.literal " -1\n") ⟨0⟩ " -1\n" .fresh .fresh ⟨1, rfl⟩
  obtain ⟨signal, raises, returns⟩ :
      ∃ signal, returnsMinusOne.Raises .connected [] .fresh signal ∧ signal.Returns (-1) ⟨0⟩ :=
    raises_of_return wired rfl ⟨1, rfl⟩ writes (fits _ writes)
  obtain ⟨asProcedure, _⟩ := returned returns
  obtain ⟨status, ended, called, kept⟩ := @asProcedure ["f"] rfl raises
  exact ⟨result, after, status, ended, executed, classified.mpr fits, called, kept⟩

/-- A numeral that is too long is refused, where its value asks for a status or a level. -/
theorem long_numeral_is_refused :
    Writes "9223372036854775815" 9223372036854775815 ∧
      ∀ keyword,
        (∃ after,
          Executes .connected
            (.control keyword (some (.status (.literal "9223372036854775815"))) ⟨0⟩) .fresh
            (.error (.numericArgRequired keyword "9223372036854775815" ⟨0⟩)) after) ∧
          ¬ EndsByValue keyword "9223372036854775815" ⟨0⟩
            (.error (.numericArgRequired keyword "9223372036854775815" ⟨0⟩)) := by
  have wired : Env.connected.setup.Wired := fun connection => by cases connection <;> decide
  have writes : Writes "9223372036854775815" 9223372036854775815 :=
    writes_iff.mpr (by decide +kernel)
  refine ⟨writes, fun keyword => ⟨?_, ?_⟩⟩
  · have refused :
        textSignal keyword "9223372036854775815" ⟨0⟩ =
          .error (.numericArgRequired keyword "9223372036854775815" ⟨0⟩) := by
      refine textSignal_of_tooLong fun value alsoWrites => ?_
      rw [writes.unique alsoWrites]
      decide
    have evaluated :
        Answers .connected (.word (.literal "9223372036854775815")) .fresh
          (.ok "9223372036854775815") .fresh :=
      ⟨1, rfl⟩
    obtain ⟨after, executed⟩ := executes_status keyword ⟨0⟩ wired evaluated
    rw [refused] at executed
    exact ⟨after, executed⟩
  · intro byValue
    cases byValue with
    | notNumeric noValue => exact noValue _ writes

end Control

end ShellCore
