import ShellCore.Proofs.Spans.Brackets

namespace ShellCore

/-!
# Requests that are alike

Requests for what is alike are answered alike, with the same fuel: by induction over the
fuel, and in each step by what the evaluator of the kind makes of the answers below. An
error that is thrown is about the token of the node that throws it.
-/

variable {paired : SpanId → SpanId → Prop}

/-- Requests that are alike are answered alike. -/
def Evaluator.Alike
    (paired : SpanId → SpanId → Prop)
    (below : Evaluator) :
    Prop :=
  ∀ {α : Type} {env : Env} {request other : Request α},
    env.Respects paired →
    request.Alike paired other →
    Eval.Alike paired (request.Answered paired) (below α env request) (below α env other)

section Outcomes

/-- An error whose token is paired with itself is alike itself. -/
theorem RuntimeError.Alike.self
    {error : RuntimeError}
    (tokens : ∀ token, error.token? = some token → paired token token) :
    error.Alike paired error := by
  cases error with
  | unmatchedControl keyword token => exact .unmatchedControl (tokens token rfl)
  | numericArgRequired keyword text token => exact .numericArgRequired (tokens token rfl)
  | badLoopLevel keyword level token => exact .badLoopLevel (tokens token rfl)
  | typedReturnInProc name token => exact .typedReturnInProc (tokens token rfl)
  | undefinedFunction name token => exact .undefinedFunction (tokens token rfl)
  | arithmetic _ | type _ | io _ | arena _ | wiring _ => exact .tokenless rfl

variable {signal other : ControlSignal} {flow otherFlow : ControlFlow}

theorem ControlSignal.Alike.unmatched
    (alike : signal.Alike paired other) :
    RuntimeError.Alike paired (.unmatchedControl signal.keyword signal.token)
      (.unmatchedControl other.keyword other.token) := by
  cases alike with
  | mk kind tokens => exact .unmatchedControl tokens

theorem ControlSignal.Alike.display_eq
    (alike : signal.Alike paired other) :
    other.display = signal.display := by
  cases alike
  rfl

theorem Command.Alike.kindName_eq
    {command other : Command}
    (commands : command.Alike paired other) :
    other.kindName = command.kindName := by
  cases commands with
  | loop statements =>
      cases statements
      rfl
  | _ => rfl

/-- A signal ends an isolated command with the status that it carries, whatever its token. -/
theorem ControlFlow.Alike.status_eq
    (flows : flow.Alike paired otherFlow) :
    Isolation.statusOfFlow otherFlow = Isolation.statusOfFlow flow := by
  cases flows with
  | normal status => rfl
  | raise signals =>
      cases signals
      rfl

theorem Function.Alike.typed_eq
    {function otherFunction : Function}
    (functions : function.Alike paired otherFunction) :
    otherFunction.typed = function.typed := by
  cases functions
  rfl

theorem Function.Alike.name_eq
    {function otherFunction : Function}
    (functions : function.Alike paired otherFunction) :
    otherFunction.name = function.name := by
  cases functions
  rfl

/-- A procedure whose body ended alike ends with the same status, or fails alike. -/
theorem Function.procStatus_alike
    {function otherFunction : Function}
    (functions : function.Alike paired otherFunction)
    (flows : flow.Alike paired otherFlow) :
    ResultAlike paired Eq (procStatus function flow) (procStatus otherFunction otherFlow) := by
  cases functions
  cases flows with
  | normal status => exact .ok rfl
  | raise signals =>
      have unmatched := signals.unmatched
      cases signals with
      | mk kind tokens =>
          cases kind with
          | breakLoop level => exact .error unmatched
          | continueLoop level => exact .error unmatched
          | returnCall payload =>
              cases payload with
              | status code => exact .ok rfl
              | value value => exact .error (.typedReturnInProc tokens)

theorem Function.typedValue_alike
    (flows : flow.Alike paired otherFlow) :
    ResultAlike paired Eq (typedValue flow) (typedValue otherFlow) := by
  cases flows with
  | normal status => exact .ok rfl
  | raise signals =>
      have unmatched := signals.unmatched
      cases signals with
      | mk kind tokens =>
          cases kind with
          | breakLoop level => exact .error unmatched
          | continueLoop level => exact .error unmatched
          | returnCall payload => cases payload <;> exact .ok rfl

theorem Control.loopSignal_alike
    (keyword : ControlKeyword)
    (level : Int64)
    {token otherToken : SpanId}
    (tokens : paired token otherToken) :
    ResultAlike paired (ControlSignal.Alike paired) (loopSignal keyword level token)
      (loopSignal keyword level otherToken) := by
  unfold loopSignal
  split
  · cases keyword <;> exact .ok (.mk _ tokens)
  · exact .error (.badLoopLevel tokens)

/-- What a loop does after flows that are alike: the same, or signals that are alike. -/
inductive LoopStep.Alike (paired : SpanId → SpanId → Prop) : LoopStep → LoopStep → Prop where
  | next (status : Int32) :
      LoopStep.Alike paired (.next status) (.next status)
  | exit (status : Int32) :
      LoopStep.Alike paired (.exit status) (.exit status)
  | raise {signal other : ControlSignal} :
      signal.Alike paired other →
      LoopStep.Alike paired (.raise signal) (.raise other)

theorem LoopStep.ofFlow_alike
    (flows : flow.Alike paired otherFlow) :
    LoopStep.Alike paired (ofFlow flow) (ofFlow otherFlow) := by
  cases flows with
  | normal status => exact .next status
  | raise signals =>
      cases signals with
      | mk kind tokens =>
          unfold ofFlow ControlSignal.throughLoop
          cases kind with
          | breakLoop level =>
              by_cases isLast : ControlSignal.lowerLevel level = 0
              · simpa [isLast] using LoopStep.Alike.exit 0
              · simpa [isLast] using LoopStep.Alike.raise (.mk _ tokens)
          | continueLoop level =>
              by_cases isLast : ControlSignal.lowerLevel level = 0
              · simpa [isLast] using LoopStep.Alike.next 0
              · simpa [isLast] using LoopStep.Alike.raise (.mk _ tokens)
          | returnCall payload => exact .raise (.mk _ tokens)

end Outcomes

namespace Eval.Alike

variable {below : Evaluator} {env : Env}

/-- Keywords without an argument raise signals of the same kind. -/
theorem bareSignal
    (keyword : ControlKeyword)
    {token otherToken : SpanId}
    (tokens : paired token otherToken) :
    Eval.Alike paired (ControlSignal.Alike paired)
      (Control.signal below env keyword none token)
      (Control.signal below env keyword none otherToken) := by
  have checked := ofResult (Control.loopSignal_alike keyword 1 tokens)
  cases keyword with
  | breakLoop => exact checked
  | continueLoop => exact checked
  | returnCall =>
      refine withScope fun {scope other} scopes => ?_
      have sameStatus : other.lastStatus = scope.lastStatus := by
        cases scopes
        rfl
      rw [sameStatus]
      exact pure (.mk _ tokens)

/-- Signals that are alike are traced by the same line, and raised. -/
theorem raised
    {keyword : ControlKeyword}
    {argument otherArgument : Option ControlArgument}
    {token otherToken : SpanId}
    (signals : Eval.Alike paired (ControlSignal.Alike paired)
      (Control.signal below env keyword argument token)
      (Control.signal below env keyword otherArgument otherToken)) :
    Eval.Alike paired (ControlFlow.Alike paired)
      (Control.execute below env keyword argument token)
      (Control.execute below env keyword otherArgument otherToken) := by
  refine bind signals fun _ _ raisedAlike => ?_
  refine bindEq (require env _) fun _ => ?_
  unfold Trace.onSignal
  rw [raisedAlike.display_eq]
  exact bindEq (emitIfOn env _) fun _ => pure (.raise raisedAlike)

/-- After rounds that ended alike loops go on alike, or end alike. -/
theorem afterRound
    {flow otherFlow : ControlFlow}
    {next otherNext : Int32 → Eval ControlFlow}
    (flows : flow.Alike paired otherFlow)
    (goesOn : ∀ status,
      Eval.Alike paired (ControlFlow.Alike paired) (next status) (otherNext status)) :
    Eval.Alike paired (ControlFlow.Alike paired)
      (match LoopStep.ofFlow flow with
        | .next status => next status
        | .exit status => return .normal status
        | .raise signal => return .raise signal)
      (match LoopStep.ofFlow otherFlow with
        | .next status => otherNext status
        | .exit status => return .normal status
        | .raise signal => return .raise signal) := by
  have steps := LoopStep.ofFlow_alike flows
  generalize LoopStep.ofFlow flow = step at steps
  generalize LoopStep.ofFlow otherFlow = otherStep at steps
  cases steps with
  | next status => exact goesOn status
  | exit status => exact pure (.normal status)
  | raise signals => exact pure (.raise signals)

/-- A status is left behind alike, and no signal leaves one. -/
theorem keepStatus
    {flow otherFlow : ControlFlow}
    (flows : flow.Alike paired otherFlow) :
    Eval.Alike paired Eq (Commands.keepStatus flow) (Commands.keepStatus otherFlow) := by
  cases flows with
  | normal status =>
      exact mapScope fun scopes =>
        scopes.map (fun scope => { scope with lastStatus := status }) fun _ _ _ => rfl
  | raise signals => exact pure rfl

end Eval.Alike

namespace Evaluator.Alike

open Eval.Alike

variable {below : Evaluator} (belowAlike : below.Alike paired)
variable {env : Env} (respects : env.Respects paired)

include belowAlike respects

section Hosts

variable {command otherCommand : Command}

theorem isolated
    (commands : command.Alike paired otherCommand) :
    Eval.Alike paired Eq (Isolation.execute below env command)
      (Isolation.execute below env otherCommand) :=
  bind (keepingScope (belowAlike respects (.command commands))) fun _ _ flows =>
    pure flows.status_eq.symm

theorem captured
    (commands : command.Alike paired otherCommand) :
    Eval.Alike paired Eq (Host.capture below env command)
      (Host.capture below env otherCommand) :=
  callBack respects fun _ respects => withCapture (belowAlike.isolated respects commands)

theorem commandSub
    (commands : command.Alike paired otherCommand) :
    Eval.Alike paired Eq (Host.runCommandSub below env command)
      (Host.runCommandSub below env otherCommand) :=
  recorded _ rfl (bindEq (belowAlike.captured respects commands) fun _ => pure rfl)

theorem processSub
    (commands : command.Alike paired otherCommand)
    {span otherSpan : SpanId}
    (spans : paired span otherSpan) :
    Eval.Alike paired Eq (Host.runProcessSub below env command span)
      (Host.runProcessSub below env otherCommand otherSpan) :=
  recorded _ rfl (bindEq (belowAlike.captured respects commands) fun _ =>
    finishProcessSub _ _ spans)

end Hosts

theorem word
    {word other : Word}
    (words : word.Alike paired other) :
    Eval.Alike paired Eq (Words.evaluate below env word) (Words.evaluate below env other) := by
  cases words with
  | literal text => exact pure rfl
  | var name => exact withScope fun scopes => pure (scopes.expand_eq name).symm
  | arith exprs =>
      exact bindEq (require env _) fun _ => bindEq (belowAlike respects (.arith exprs)) fun _ =>
        pure rfl
  | commandSub bodies =>
      exact bindEq (require env _) fun _ => bindEq (belowAlike.commandSub respects bodies) fun _ =>
        pure rfl
  | processSub bodies spans =>
      exact bindEq (require env _) fun _ => belowAlike.processSub respects bodies spans
  | prompt template => exact bindEq (require env _) fun _ => expandPrompt env template
  | expr exprs =>
      exact bindEq (require env _) fun _ => bindEq (belowAlike respects (.expr exprs)) fun _ =>
        pure rfl
  | concat parts =>
      exact bindEq (eachEq parts fun part => belowAlike respects (.word part)) fun _ => pure rfl

theorem arithmetic :
    ∀ {expr other : ArithExpr},
      expr.Alike paired other →
      Eval.Alike paired Eq (Arithmetic.evaluate below env expr)
        (Arithmetic.evaluate below env other)
  | .number value, _, alike => by
      cases alike
      exact pure rfl
  | .word _, _, alike => by
      cases alike with
      | word words =>
          refine bindEq (require env _) fun _ => ?_
          refine bindEq (belowAlike respects (.word words)) fun text => ?_
          refine withScope fun scopes => ?_
          rw [scopes.operand_eq]
          exact ofExcept fun _ _ => rfl
  | .negate _, _, alike => by
      cases alike with
      | negate operands => exact bindEq (arithmetic operands) fun _ => pure rfl
  | .binary _ _ _, _, alike => by
      cases alike with
      | binary left right =>
          refine bindEq (arithmetic left) fun _ => ?_
          exact bindEq (arithmetic right) fun _ => ofExcept fun _ _ => rfl

theorem test :
    ∀ {test other : BoolExpr},
      test.Alike paired other →
      Eval.Alike paired Eq (Test.evaluate below env test) (Test.evaluate below env other)
  | .compare _ _ _, _, alike => by
      cases alike with
      | compare left right =>
          refine bindEq (require env _) fun _ => ?_
          refine bindEq (belowAlike respects (.word left)) fun _ => ?_
          exact bindEq (belowAlike respects (.word right)) fun _ => ofExcept fun _ _ => rfl
  | .isEmpty _, _, alike => by
      cases alike with
      | isEmpty words =>
          exact bindEq (require env _) fun _ => bindEq (belowAlike respects (.word words)) fun _ =>
            pure rfl
  | .isNonempty _, _, alike => by
      cases alike with
      | isNonempty words =>
          exact bindEq (require env _) fun _ => bindEq (belowAlike respects (.word words)) fun _ =>
            pure rfl
  | .not _, _, alike => by
      cases alike with
      | not tests => exact bindEq (test tests) fun _ => pure rfl
  | .and _ _, _, alike => by
      cases alike with
      | and left right =>
          refine bindEq (test left) fun holds => ?_
          cases holds with
          | true => exact test right
          | false => exact pure rfl
  | .or _ _, _, alike => by
      cases alike with
      | or left right =>
          refine bindEq (test left) fun holds => ?_
          cases holds with
          | true => exact pure rfl
          | false => exact test right

section Calls

variable {commands otherCommands : List Command} {function otherFunction : Function}

theorem executeFrom
    {flow otherFlow : ControlFlow}
    (flows : flow.Alike paired otherFlow)
    (commandsAlike : List.Forall₂ (Command.Alike paired) commands otherCommands) :
    Eval.Alike paired (ControlFlow.Alike paired)
      (CommandList.executeFrom below env flow commands)
      (CommandList.executeFrom below env otherFlow otherCommands) := by
  induction commandsAlike generalizing flow otherFlow with
  | nil => exact pure flows
  | cons command _ inductionHypothesis =>
      refine bind (belowAlike respects (.command command)) fun _ _ ended => ?_
      cases ended with
      | normal status => exact inductionHypothesis (.normal status)
      | raise signals => exact pure (.raise signals)

theorem commandList
    (commandsAlike : List.Forall₂ (Command.Alike paired) commands otherCommands) :
    Eval.Alike paired (ControlFlow.Alike paired) (CommandList.execute below env commands)
      (CommandList.execute below env otherCommands) :=
  belowAlike.executeFrom respects (.normal 0) commandsAlike

theorem body
    (functions : function.Alike paired otherFunction) :
    Eval.Alike paired (ControlFlow.Alike paired)
      (CommandList.execute below env function.body)
      (CommandList.execute below env otherFunction.body) := by
  cases functions with
  | mk bodies _ => exact belowAlike.commandList respects bodies

theorem callProc
    (functions : function.Alike paired otherFunction)
    (argv : List String) :
    Eval.Alike paired Eq (Function.callProc below env function argv)
      (Function.callProc below env otherFunction argv) := by
  have ended := fun args => runFrame args functions (belowAlike.body respects functions)
  unfold Function.callProc
  rw [functions.typed_eq, functions.name_eq]
  split
  · exact throw (.tokenless rfl)
  · exact bind (ended _) fun _ _ flows => ofResult (Function.procStatus_alike functions flows)

theorem callTyped
    (functions : function.Alike paired otherFunction)
    (args : List Value) :
    Eval.Alike paired Eq (Function.callTyped below env function args)
      (Function.callTyped below env otherFunction args) :=
  bindEq (require env _) fun _ =>
    bind (runFrame args functions (belowAlike.body respects functions)) fun _ _ flows =>
      ofResult (Function.typedValue_alike flows)

/-- A callable answers both calls; without one, functions that are alike do. -/
theorem callNamed
    (name : String)
    (args : List Value)
    {span otherSpan : SpanId}
    (spans : paired span otherSpan) :
    Eval.Alike paired Eq (Expression.callNamed below env name args span)
      (Expression.callNamed below env name args otherSpan) := by
  unfold Expression.callNamed
  cases found : env.setup.callables.get? name with
  | some callable =>
      dsimp only
      cases called : callable args with
      | ok value => exact pure rfl
      | error error =>
          -- both calls are of one callable, and its error is about one token
          exact throw (.self fun token => respects.own name callable args error token found called)
  | none =>
      refine withScope fun {scope other} scopes => ?_
      have functions := scopes.function? name
      generalize scope.function? name = function? at functions
      generalize other.function? name = otherFunction? at functions
      cases functions with
      | none => exact throw (.undefinedFunction spans)
      | some functions =>
          dsimp only
          rw [functions.typed_eq]
          split
          · exact belowAlike.callTyped respects functions args
          · exact throw (.tokenless rfl)

end Calls

theorem expression
    {expr other : Expr}
    (exprs : expr.Alike paired other) :
    Eval.Alike paired Eq (Expression.evaluate below env expr)
      (Expression.evaluate below env other) := by
  cases exprs with
  | literal value => exact pure rfl
  | word words =>
      exact bindEq (require env _) fun _ => bindEq (belowAlike respects (.word words)) fun _ =>
        pure rfl
  | arith exprs =>
      exact bindEq (require env _) fun _ => bindEq (belowAlike respects (.arith exprs)) fun _ =>
        pure rfl
  | list items =>
      exact bindEq (eachEq items fun item => belowAlike respects (.expr item)) fun _ => pure rfl
  | commandSub bodies =>
      exact bindEq (require env _) fun _ => bindEq (belowAlike.commandSub respects bodies) fun _ =>
        pure rfl
  | call args spans =>
      exact bindEq (eachEq args fun arg => belowAlike respects (.expr arg)) fun values =>
        belowAlike.callNamed respects _ values spans

section Controls

variable {token otherToken : SpanId} (tokens : paired token otherToken)

include tokens

theorem numericArgument
    (keyword : ControlKeyword)
    {word other : Word}
    (words : word.Alike paired other) :
    Eval.Alike paired Eq (Control.numericArgument below env keyword word token)
      (Control.numericArgument below env keyword other otherToken) := by
  refine bindEq (require env _) fun _ => ?_
  refine bindEq (belowAlike respects (.word words)) fun text => ?_
  split
  · exact pure rfl
  · exact throw (.numericArgRequired tokens)

theorem argumentSignal
    (keyword : ControlKeyword)
    {argument otherArgument : ControlArgument}
    (arguments : argument.Alike paired otherArgument) :
    Eval.Alike paired (ControlSignal.Alike paired)
      (Control.signal below env keyword (some argument) token)
      (Control.signal below env keyword (some otherArgument) otherToken) := by
  cases arguments with
  | status words =>
      have number := belowAlike.numericArgument respects tokens keyword words
      have checked := fun level => ofResult (Control.loopSignal_alike keyword level tokens)
      cases keyword with
      | breakLoop => exact bindEq number checked
      | continueLoop => exact bindEq number checked
      | returnCall => exact bindEq number fun _ => pure (.mk _ tokens)
  | value exprs =>
      cases keyword with
      | breakLoop => exact throw (.tokenless rfl)
      | continueLoop => exact throw (.tokenless rfl)
      | returnCall =>
          exact bindEq (require env _) fun _ => bindEq (belowAlike respects (.expr exprs)) fun _ =>
            pure (.mk _ tokens)

end Controls

section Commands

/-- A name stands for functions that are alike, or for one command of the host. -/
theorem runNamed
    (name : String)
    (argv : List String) :
    Eval.Alike paired Eq (Commands.runNamed below env name argv)
      (Commands.runNamed below env name argv) := by
  unfold Commands.runNamed
  split
  · split
    · exact pure rfl
    · exact withFlush (runBuiltin _ _)
  · refine withScope fun {scope other} scopes => ?_
    have functions := scopes.function? name
    generalize scope.function? name = function? at functions
    generalize other.function? name = otherFunction? at functions
    cases functions with
    | none => exact runSimple argv
    | some functions => exact belowAlike.callProc respects functions argv

theorem simple
    {words otherWords : List Word}
    (wordsAlike : List.Forall₂ (Word.Alike paired) words otherWords) :
    Eval.Alike paired (ControlFlow.Alike paired) (Commands.runSimple below env words)
      (Commands.runSimple below env otherWords) := by
  refine bindEq (require env _) fun _ => ?_
  refine bindEq (eachEq wordsAlike fun word => belowAlike respects (.word word)) fun argv => ?_
  cases argv with
  | nil => exact pure (.normal 0)
  | cons name args =>
      refine bindEq (require env _) fun _ => bindEq (emitIfOn env _) fun _ => ?_
      exact bindEq (belowAlike.runNamed respects name (name :: args)) fun status =>
        pure (.normal status)

theorem assign
    (name : String)
    {value otherValue : Word}
    (values : value.Alike paired otherValue)
    (isLocal : Bool) :
    Eval.Alike paired (ControlFlow.Alike paired) (Commands.assign below env name value isLocal)
      (Commands.assign below env name otherValue isLocal) := by
  refine bindEq (require env _) fun _ => ?_
  refine bindEq (belowAlike respects (.word values)) fun text => ?_
  refine bindEq (mapScope fun scopes => ?_) fun _ => pure (.normal 0)
  cases isLocal with
  | true => exact scopes.set name (.str text)
  | false => exact scopes.setGlobal name (.str text)

theorem pipeline
    {stages otherStages : List Command}
    (stagesAlike : List.Forall₂ (Command.Alike paired) stages otherStages)
    (negated : Bool) :
    Eval.Alike paired (ControlFlow.Alike paired) (Commands.runPipeline below env stages negated)
      (Commands.runPipeline below env otherStages negated) := by
  have ran :
      Eval.Alike paired Eq (Host.runPipeline below env stages negated)
        (Host.runPipeline below env otherStages negated) := by
    unfold Host.runPipeline
    rw [← stagesAlike.length_eq]
    refine recorded _ ?_ (bindEq (callBack respects fun env respects => ?_) fun _ => pure rfl)
    · rw [List.map_const', List.map_const', stagesAlike.length_eq]
    · exact eachEq stagesAlike fun stage => belowAlike.isolated respects stage
  refine bindEq (require env _) fun _ => bindEq ran fun statuses => ?_
  refine bindEq (mapScope fun scopes => ?_) fun _ => pure (.normal _)
  exact scopes.map (fun scope => { scope with pipeStatus := statuses.stages }) fun _ _ _ => rfl

theorem subshell
    {body other : Command}
    (bodies : body.Alike paired other) :
    Eval.Alike paired Eq (Host.runSubshell below env body) (Host.runSubshell below env other) :=
  recorded _ rfl (callBack respects fun _ respects => belowAlike.isolated respects bodies)

theorem background
    {body other : Command}
    (bodies : body.Alike paired other) :
    Eval.Alike paired Eq (Host.runBackground below env body)
      (Host.runBackground below env other) := by
  unfold Host.runBackground
  rw [bodies.kindName_eq]
  exact recorded _ rfl
    (bindEq (callBack respects fun _ respects => belowAlike.isolated respects bodies) fun _ =>
      pure rfl)

theorem redirected
    {body other : Command}
    {redirects otherRedirects : List Redirect}
    (bodies : body.Alike paired other)
    (redirectsAlike : List.Forall₂ (Redirect.Alike paired) redirects otherRedirects) :
    Eval.Alike paired (ControlFlow.Alike paired)
      (Commands.runRedirected below env body redirects)
      (Commands.runRedirected below env other otherRedirects) := by
  have evaluated :
      ∀ {redirect otherRedirect : Redirect},
        redirect.Alike paired otherRedirect →
        Eval.Alike paired (Redirection.Alike paired)
          (Commands.evaluateRedirect below env redirect)
          (Commands.evaluateRedirect below env otherRedirect) := by
    intro redirect otherRedirect alike
    cases alike with
    | mk targets spans =>
        exact bindEq (belowAlike respects (.word targets)) fun _ => pure ⟨rfl, spans⟩
  refine bindEq (require env _) fun _ => ?_
  refine bind (each redirectsAlike evaluated) fun _ _ redirections => ?_
  exact underRedirects redirections (belowAlike respects (.command bodies))

theorem condition
    {condition other : Condition}
    (conditions : condition.Alike paired other) :
    Eval.Alike paired (ControlFlow.Alike paired) (Commands.condition below env condition)
      (Commands.condition below env other) := by
  cases conditions with
  | test tests =>
      exact bindEq (require env _) fun _ => bindEq (belowAlike respects (.test tests)) fun _ =>
        pure (.normal _)
  | run commands => exact belowAlike respects (.command commands)

/-- Arms of branches that are alike are taken alike, above what is done without an arm. -/
theorem branch
    {otherwise otherOtherwise : Option (List Command)}
    {arms otherArms : List BranchArm}
    (fallbacks : Eval.Alike paired (ControlFlow.Alike paired)
      (Commands.runArms below env otherwise [])
      (Commands.runArms below env otherOtherwise []))
    (armsAlike : List.Forall₂ (BranchArm.Alike paired) arms otherArms) :
    Eval.Alike paired (ControlFlow.Alike paired) (Commands.runArms below env otherwise arms)
      (Commands.runArms below env otherOtherwise otherArms) := by
  induction armsAlike with
  | nil => exact fallbacks
  | cons arm _ inductionHypothesis =>
      cases arm with
      | mk conditions bodies =>
          refine bind (belowAlike.condition respects conditions) fun _ _ ended => ?_
          cases ended with
          | normal status =>
              dsimp only
              split
              · exact belowAlike.commandList respects bodies
              · exact inductionHypothesis
          | raise signals => exact pure (.raise signals)

theorem items
    (name : String)
    {body other : List Command}
    (bodies : List.Forall₂ (Command.Alike paired) body other)
    (status : Int32)
    (items : List String) :
    Eval.Alike paired (ControlFlow.Alike paired)
      (Commands.runItems below env name body status items)
      (Commands.runItems below env name other status items) := by
  induction items generalizing status with
  | nil => exact pure (.normal status)
  | cons item rest inductionHypothesis =>
      refine bindEq (mapScope fun scopes => scopes.setGlobal name (.str item)) fun _ => ?_
      exact bind (belowAlike.commandList respects bodies) fun _ _ flows =>
        afterRound flows inductionHypothesis

theorem goOn
    {statement other : LoopStatement}
    (statements : statement.Alike paired other)
    (status : Int32) :
    Eval.Alike paired (ControlFlow.Alike paired) (below.loop env statement status)
      (below.loop env other status) := by
  have requests : Request.Alike paired (.loop statement status) (.loop other status) :=
    .loop statements
  exact belowAlike respects requests

/-- A round of a loop and the rounds behind it. -/
theorem loop
    {statement other : LoopStatement}
    (statements : statement.Alike paired other)
    (status : Int32) :
    Eval.Alike paired (ControlFlow.Alike paired) (Commands.runLoop below env statement status)
      (Commands.runLoop below env other status) := by
  have goesOn := belowAlike.goOn respects statements
  cases statements with
  | mk conditions bodies =>
      refine bind (belowAlike.condition respects conditions) fun _ _ ended => ?_
      cases ended with
      | normal code =>
          dsimp only
          split
          · exact pure (.normal status)
          · exact bind (belowAlike.commandList respects bodies) fun _ _ flows =>
              afterRound flows goesOn
      | raise signals => exact afterRound (.raise signals) fun _ => goesOn status

theorem run
    {command other : Command}
    (commands : command.Alike paired other) :
    Eval.Alike paired (ControlFlow.Alike paired) (Commands.run below env command)
      (Commands.run below env other) := by
  cases commands with
  | simple words span => exact withProcessSubs env (belowAlike.simple respects words)
  | assign values => exact belowAlike.assign respects _ values _
  | sequence commands => exact belowAlike.commandList respects commands
  | andThen left right =>
      refine bind (belowAlike respects (.command left)) fun _ _ ended => ?_
      cases ended with
      | normal status =>
          dsimp only
          split
          · exact belowAlike respects (.command right)
          · exact pure (.normal status)
      | raise signals => exact pure (.raise signals)
  | orElse left right =>
      refine bind (belowAlike respects (.command left)) fun _ _ ended => ?_
      cases ended with
      | normal status =>
          dsimp only
          split
          · exact pure (.normal status)
          · exact belowAlike respects (.command right)
      | raise signals => exact pure (.raise signals)
  | pipeline stages => exact belowAlike.pipeline respects stages _
  | subshell bodies =>
      exact bindEq (require env _) fun _ => bindEq (belowAlike.subshell respects bodies) fun _ =>
        pure (.normal _)
  | background bodies =>
      exact bindEq (require env _) fun _ => bindEq (belowAlike.background respects bodies) fun _ =>
        pure (.normal _)
  | branch arms otherwise =>
      exact belowAlike.branch respects (belowAlike.commandList respects otherwise) arms
  | branchOnly arms => exact belowAlike.branch respects (pure (.normal 0)) arms
  | forEach words bodies =>
      refine withProcessSubs env (bindEq (require env _) fun _ => ?_)
      exact bindEq (eachEq words fun word => belowAlike respects (.word word)) fun values =>
        belowAlike.items respects _ bodies 0 values
  | loop statements => exact belowAlike.goOn respects statements 0
  | define functions =>
      exact bindEq (mapScope fun scopes => scopes.define functions) fun _ => pure (.normal 0)
  | control tokens => exact raised (bareSignal _ tokens)
  | controlled arguments tokens =>
      exact raised (belowAlike.argumentSignal respects tokens _ arguments)
  | redirected bodies redirects =>
      exact withProcessSubs env (belowAlike.redirected respects bodies redirects)

/-- Commands that are alike leave the same status behind. -/
theorem command
    {command other : Command}
    (commands : command.Alike paired other) :
    Eval.Alike paired (ControlFlow.Alike paired) (Commands.execute below env command)
      (Commands.execute below env other) :=
  bind (belowAlike.run respects commands) fun _ _ flows =>
    bindEq (keepStatus flows) fun _ => pure flows

end Commands

omit respects in
theorem answer :
    Evaluator.Alike paired (ShellCore.answer below) := by
  intro α env request other respects requests
  cases requests with
  | word words => exact belowAlike.word respects words
  | arith exprs => exact belowAlike.arithmetic respects exprs
  | test tests => exact belowAlike.test respects tests
  | expr exprs => exact belowAlike.expression respects exprs
  | command commands => exact belowAlike.command respects commands
  | loop statements => exact belowAlike.loop respects statements _

end Evaluator.Alike

/-- With any fuel, requests that are alike are answered alike. -/
theorem Evaluator.alike
    (fuel : Nat) :
    Evaluator.Alike paired (evaluator fuel) := by
  induction fuel with
  | zero => exact fun _ _ _ _ _ => .none
  | succ fuel inductionHypothesis => exact inductionHypothesis.answer

end ShellCore
