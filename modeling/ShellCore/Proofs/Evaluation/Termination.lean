import ShellCore.Proofs.Evaluation.Execution
import ShellCore.Proofs.Evaluation.Loopless
import ShellCore.Proofs.Evaluation.Returning

namespace ShellCore

/-!
# Termination

Where no function is defined, nothing but a loop can go on forever. A loopless request
makes requests for its parts only, here or in the set that the host calls back, so its
size bounds how deep requests nest. No function gets defined on the way, so that this
holds of each request that follows, whatever has happened to the variables.
-/

/-- What answers the parts of a request returns. -/
def Evaluator.Returns
    (both : Prop)
    (below : Evaluator)
    (whole : Request α) :
    Prop :=
  ∀ {β : Type} {env : Env} {part : Request β},
    env.Means both →
    Request.Part part whole →
    Eval.Returns both (below β env part)

namespace Evaluator.Returns

open Eval.Returns

variable {both : Prop} {below : Evaluator} {env : Env}
variable (means : env.Means both)

include means

section Isolated

variable {whole : Request α} (parts : below.Returns both whole)

include parts

theorem isolated
    {command : Command}
    (isPart : Request.Part (.command command) whole) :
    Eval.Returns both (Isolation.execute below env command) :=
  bind (keepingScope (parts means isPart)) fun _ => pure _

theorem captured
    {body : Command}
    (isPart : Request.Part (.command body) whole) :
    Eval.Returns both (Host.capture below env body) :=
  callBack means fun _ means => withCapture (parts.isolated means isPart)

theorem commandSub
    {body : Command}
    (isPart : Request.Part (.command body) whole) :
    Eval.Returns both (Host.runCommandSub below env body) :=
  recorded _ _ (bind (parts.captured means isPart) fun _ => pure _)

theorem words
    {words : List Word}
    (areParts : ∀ word ∈ words, Request.Part (.word word) whole) :
    Eval.Returns both (Eval.each (below.word env) words) :=
  each fun word isMember => parts means (areParts word isMember)

theorem executeFrom
    {commands : List Command}
    (flow : ControlFlow)
    (areParts : ∀ command ∈ commands, Request.Part (.command command) whole) :
    Eval.Returns both (CommandList.executeFrom below env flow commands) := by
  induction commands generalizing flow with
  | nil => exact pure flow
  | cons command rest inductionHypothesis =>
      refine bind (parts means (areParts command (.head rest))) fun ended => ?_
      cases ended with
      | normal status =>
          exact inductionHypothesis _ fun other isLater => areParts other (.tail command isLater)
      | raise signal => exact pure _

end Isolated

theorem word
    {word : Word}
    (parts : below.Returns both (.word word)) :
    Eval.Returns both (Words.evaluate below env word) := by
  cases word with
  | literal text => exact pure text
  | var name => exact withScope fun _ _ => pure _
  | arith expr =>
      exact bind (require env _) fun _ => bind (parts means .wordArith) fun _ => pure _
  | commandSub body =>
      exact bind (require env _) fun _ =>
        bind (parts.commandSub means .wordCommandSub) fun _ => pure _
  | processSub body span =>
      refine bind (require env _) fun _ => recorded _ _ ?_
      exact bind (parts.captured means .wordProcessSub) fun _ => onHost _ _
  | prompt template => exact bind (require env _) fun _ => expandPrompt env template
  | expr expr =>
      exact bind (require env _) fun _ => bind (parts means .wordExpr) fun _ => pure _
  | concat words =>
      exact bind (parts.words means fun _ isMember => .wordConcat isMember) fun _ => pure _

theorem arithmetic :
    ∀ {expr : ArithExpr},
      below.Returns both (.arith expr) →
      Eval.Returns both (Arithmetic.evaluate below env expr)
  | .number _, _ => pure _
  | .word _, parts =>
      bind (require env _) fun _ => bind (parts means .arithWord) fun _ =>
        withScope fun _ _ => ofExcept _ _
  | .negate _, parts =>
      bind (arithmetic fun means isPart => parts means (.arithNegate isPart)) fun _ => pure _
  | .binary _ _ _, parts =>
      bind (arithmetic fun means isPart => parts means (.arithLeft isPart)) fun _ =>
        bind (arithmetic fun means isPart => parts means (.arithRight isPart)) fun _ =>
          ofExcept _ _

theorem test :
    ∀ {test : BoolExpr},
      below.Returns both (.test test) →
      Eval.Returns both (Test.evaluate below env test)
  | .compare _ _ _, parts =>
      bind (require env _) fun _ => bind (parts means .compareLeft) fun _ =>
        bind (parts means .compareRight) fun _ => ofExcept _ _
  | .isEmpty _, parts =>
      bind (require env _) fun _ => bind (parts means .testIsEmpty) fun _ => pure _
  | .isNonempty _, parts =>
      bind (require env _) fun _ => bind (parts means .testIsNonempty) fun _ => pure _
  | .not _, parts =>
      bind (test fun means isPart => parts means (.testNot isPart)) fun _ => pure _
  | .and _ _, parts => by
      refine bind (test fun means isPart => parts means (.andLeft isPart)) fun holds => ?_
      cases holds with
      | true => exact test fun means isPart => parts means (.andRight isPart)
      | false => exact pure false
  | .or _ _, parts => by
      refine bind (test fun means isPart => parts means (.orLeft isPart)) fun holds => ?_
      cases holds with
      | true => exact pure true
      | false => exact test fun means isPart => parts means (.orRight isPart)

/-- A call finds a callable, or else no function. -/
theorem expression
    {expr : Expr}
    (parts : below.Returns both (.expr expr)) :
    Eval.Returns both (Expression.evaluate below env expr) := by
  cases expr with
  | literal value => exact pure value
  | word word => exact bind (require env _) fun _ => bind (parts means .exprWord) fun _ => pure _
  | arith expr => exact bind (require env _) fun _ => bind (parts means .exprArith) fun _ => pure _
  | list items =>
      exact bind (each fun _ isMember => parts means (.exprList isMember)) fun _ => pure _
  | commandSub body =>
      exact bind (require env _) fun _ =>
        bind (parts.commandSub means .exprCommandSub) fun _ => pure _
  | call name args span =>
      refine bind (each fun _ isMember => parts means (.argument isMember)) fun values => ?_
      unfold Expression.callNamed
      split
      · exact ofExcept id _
      · refine withScope fun scope functionless => ?_
        rw [functionless name]
        exact throw _

section Commands

omit means in
theorem runNamed
    (name : String)
    (argv : List String) :
    Eval.Returns both (Commands.runNamed below env name argv) := by
  unfold Commands.runNamed
  split
  · split
    · exact pure _
    · exact withFlush (onHost _ _)
  · refine withScope fun scope functionless => ?_
    rw [functionless name]
    exact onHost _ _

theorem simple
    {words : List Word}
    {span : SpanId}
    (parts : below.Returns both (.command (.simple words span))) :
    Eval.Returns both (Commands.runSimple below env words) := by
  refine bind (require env _) fun _ => ?_
  refine bind (parts.words means fun _ isMember => .simpleWord isMember) fun argv => ?_
  cases argv with
  | nil => exact pure _
  | cons name args =>
      exact bind (require env _) fun _ => bind (emitIfOn env _) fun _ =>
        bind (runNamed name (name :: args)) fun _ => pure _

theorem assign
    {name : String}
    {value : Word}
    {isLocal : Bool}
    (parts : below.Returns both (.command (.assign name value isLocal))) :
    Eval.Returns both (Commands.assign below env name value isLocal) := by
  refine bind (require env _) fun _ => bind (parts means .assigned) fun text => ?_
  refine bind (mapScope fun scope other => ?_) fun _ => pure _
  cases isLocal with
  | true => exact scope.function?_set name other _
  | false => exact scope.function?_setGlobal name other _

theorem pipeline
    {stages : List Command}
    {negated : Bool}
    (parts : below.Returns both (.command (.pipeline stages negated))) :
    Eval.Returns both (Commands.runPipeline below env stages negated) := by
  refine bind (require env _) fun _ => ?_
  refine bind (recorded _ _ (bind (callBack means fun _ means => ?_) fun _ => pure _)) fun _ =>
    bind (mapScope fun _ _ => rfl) fun _ => pure _
  exact each fun _ isMember => parts.isolated means (.stage isMember)

theorem condition
    {whole : Request α}
    (parts : below.Returns both whole)
    {condition : Condition}
    (areParts : ∀ {β : Type} {part : Request β},
      Request.OfCondition part condition → Request.Part part whole) :
    Eval.Returns both (Commands.condition below env condition) := by
  cases condition with
  | test test =>
      exact bind (require env _) fun _ => bind (parts means (areParts .test)) fun _ => pure _
  | run command => exact parts means (areParts .run)

/-- The arms that are left are some of the arms of the branch. -/
theorem arms
    {arms : List BranchArm}
    {otherwise : Option (List Command)}
    (parts : below.Returns both (.command (.branch arms otherwise)))
    {left : List BranchArm}
    (areArms : ∀ arm ∈ left, arm ∈ arms) :
    Eval.Returns both (Commands.runArms below env otherwise left) := by
  induction left with
  | nil =>
      cases otherwise with
      | none => exact pure _
      | some body =>
          exact parts.executeFrom means .ok fun _ isMember => .otherwise isMember
  | cons arm rest inductionHypothesis =>
      have isArm := areArms arm (.head rest)
      refine bind (parts.condition means fun evaluates => .condition isArm evaluates)
        fun ended => ?_
      cases ended with
      | normal status =>
          dsimp only
          split
          · exact parts.executeFrom means .ok fun _ inBody => .arm isArm inBody
          · exact inductionHypothesis fun other isLater => areArms other (.tail arm isLater)
      | raise signal => exact pure _

/-- There are as many rounds as items. -/
theorem rounds
    {name : String}
    {items : List Word}
    {body : List Command}
    (parts : below.Returns both (.command (.forEach name items body)))
    (status : Int32)
    (values : List String) :
    Eval.Returns both (Commands.runItems below env name body status values) := by
  induction values generalizing status with
  | nil => exact pure _
  | cons value rest inductionHypothesis =>
      refine bind (mapScope fun scope other => scope.function?_setGlobal name other _) fun _ => ?_
      refine bind (parts.executeFrom means .ok fun _ inBody => .round inBody) fun ended => ?_
      split
      · exact inductionHypothesis _
      · exact pure _
      · exact pure _

theorem forEach
    {name : String}
    {items : List Word}
    {body : List Command}
    (parts : below.Returns both (.command (.forEach name items body))) :
    Eval.Returns both (Commands.runForEach below env name items body) :=
  bind (require env _) fun _ =>
    bind (parts.words means fun _ isMember => .item isMember) fun values =>
      parts.rounds means 0 values

theorem redirected
    {body : Command}
    {redirects : List Redirect}
    (parts : below.Returns both (.command (.redirected body redirects))) :
    Eval.Returns both (Commands.runRedirected below env body redirects) := by
  refine bind (require env _) fun _ => ?_
  refine bind (each fun redirect isMember => ?_) fun redirections => ?_
  · exact bind (parts means (.target isMember)) fun _ => pure _
  · exact underRedirects redirections (parts means .redirected)

theorem numericArgument
    {keyword : ControlKeyword}
    {word : Word}
    {token : SpanId}
    (parts : below.Returns both (.command (.control keyword (some (.status word)) token)))
    (raised : ControlKeyword) :
    Eval.Returns both (Control.numericArgument below env raised word token) := by
  refine bind (require env _) fun _ => bind (parts means .status) fun text => ?_
  split
  · exact pure _
  · exact throw _

theorem signal
    {keyword : ControlKeyword}
    {argument : Option ControlArgument}
    {token : SpanId}
    (parts : below.Returns both (.command (.control keyword argument token))) :
    Eval.Returns both (Control.signal below env keyword argument token) := by
  unfold Control.signal
  split
  · exact bind (require env _) fun _ => bind (parts means .value) fun _ => pure _
  · exact throw _
  · exact bind (parts.numericArgument means _) fun _ => pure _
  · exact withScope fun _ _ => pure _
  · exact bind (parts.numericArgument means _) fun _ => ofExcept _ _
  · exact ofExcept _ _

theorem run
    {command : Command}
    (parts : below.Returns both (.command command))
    (loopless : command.isLoopless = true) :
    Eval.Returns both (Commands.run below env command) := by
  cases command with
  | simple words span => exact withProcessSubs env (parts.simple means)
  | assign name value isLocal => exact parts.assign means
  | sequence commands => exact parts.executeFrom means .ok fun _ isMember => .member isMember
  | andThen left right =>
      refine bind (parts means .andThenLeft) fun ended => ?_
      cases ended with
      | normal status =>
          dsimp only
          split
          · exact parts means .andThenRight
          · exact pure _
      | raise signal => exact pure _
  | orElse left right =>
      refine bind (parts means .orElseLeft) fun ended => ?_
      cases ended with
      | normal status =>
          dsimp only
          split
          · exact pure _
          · exact parts means .orElseRight
      | raise signal => exact pure _
  | pipeline stages negated => exact parts.pipeline means
  | subshell body =>
      refine bind (require env _) fun _ => bind (recorded _ _ ?_) fun _ => pure _
      exact callBack means fun _ means => parts.isolated means .subshell
  | background body =>
      refine bind (require env _) fun _ => bind (recorded _ _ ?_) fun _ => pure _
      exact bind (callBack means fun _ means => parts.isolated means .background) fun _ => pure _
  | branch arms otherwise => exact parts.arms means fun _ isArm => isArm
  | forEach name items body => exact withProcessSubs env (parts.forEach means)
  | loop statement => cases loopless
  | define function => cases loopless
  | control keyword argument token =>
      refine bind (parts.signal means) fun raised => bind (require env _) fun _ => ?_
      exact bind (emitIfOn env _) fun _ => pure _
  | redirected body redirects => exact withProcessSubs env (parts.redirected means)

theorem command
    {command : Command}
    (parts : below.Returns both (.command command))
    (loopless : command.isLoopless = true) :
    Eval.Returns both (Commands.execute below env command) := by
  refine bind (parts.run means loopless) fun flow => bind ?_ fun _ => pure _
  cases flow with
  | normal status => exact mapScope fun _ _ => rfl
  | raise signal => exact pure ()

end Commands

/-- What is loopless is answered if its parts are. -/
theorem answer
    {request : Request α}
    (parts : below.Returns both request)
    (loopless : request.isLoopless = true) :
    Eval.Returns both (ShellCore.answer below α env request) := by
  cases request with
  | word _ => exact parts.word means
  | arith _ => exact parts.arithmetic means
  | test _ => exact parts.test means
  | expr _ => exact parts.expression means
  | command _ => exact parts.command means loopless
  | loop statement status => cases loopless

end Evaluator.Returns

/-- What is loopless and not larger than the fuel is answered. -/
theorem evaluator_returns
    {both : Prop}
    {env : Env}
    {fuel : Nat}
    {request : Request α}
    (means : env.Means both)
    (loopless : request.isLoopless = true)
    (enough : sizeOf request ≤ fuel) :
    Eval.Returns both (evaluator fuel α env request) := by
  induction fuel generalizing α env with
  | zero => cases request <;> simp at enough
  | succ fuel inductionHypothesis =>
      -- a part is smaller than the whole, so it is answered with one step less
      have parts : Evaluator.Returns both (evaluator fuel) request := by
        intro β env part means isPart
        refine inductionHypothesis means (isPart.isLoopless loopless) ?_
        exact Nat.le_of_lt_succ (Nat.lt_of_lt_of_le isPart.sizeOf_lt enough)
      exact parts.answer means loopless

/--
A command that holds no loop with a condition and no definition of a function, executed
where no function is defined, ends with a result, whatever its words substitute and
however its loops over items are nested. It has defined no function then.
-/
theorem loopless_command_ends
    {env : Env}
    {command : Command}
    {before : Machine}
    (loopless : command.isLoopless = true)
    (functionless : before.scope.Functionless)
    (peerFunctionless :
      ∀ setup, env.callback = .peer setup → before.peer.scope.Functionless) :
    ∃ result after, Executes env command before result after ∧ after.scope.Functionless := by
  have known : before.Functionless (∃ setup, env.callback = .peer setup) :=
    ⟨functionless, fun ⟨setup, called⟩ => peerFunctionless setup called⟩
  have request : (Request.command command).isLoopless = true := loopless
  obtain ⟨result, after, finished, kept⟩ :=
    evaluator_returns (fun setup called => ⟨setup, called⟩) request (Nat.le_refl _) known
  exact ⟨result, after, ⟨_, finished⟩, kept.own⟩

/-- Loops over items in a pipeline, in a condition and in a substitution. -/
theorem nested_rounds_end :
    ∃ result after,
      Executes .connected
          (.forEach "x"
            [.literal "a", .commandSub (.pipeline [.simple [.literal "echo", .var "x"] .none] true)]
            [.branch
              [⟨.run (.forEach "y" [.var "x", .arith (.binary .div (.number 1) (.word (.var "x")))]
                  [.subshell (.control .breakLoop none .none)]), [.background (.simple [] .none)]⟩]
              (some [.redirected
                (.simple [.processSub (.forEach "z" [.prompt "$x"] []) .none] .none) []])])
          .fresh result after ∧
        after.scope.Functionless :=
  loopless_command_ends rfl (fun _ => rfl) nofun

end ShellCore
