import ShellCore.Proofs.Control.Raise
import ShellCore.Proofs.Evaluation.Execution

namespace ShellCore

/-!
# Signals that escape from a command

A command that ends with a signal holds the control statement that raised it.
From there the signal only travelled outward: the loops around the statement
lowered its level, or nothing if it is a return, and no other command ran.
-/

/--
The machine is as it was when a signal was raised, but for the host and the
statuses of process substitutions: guards on the way let go of what they held.
-/
structure Machine.Unwound
    (raised after : Machine) :
    Prop where
  scope :
    after.scope =
      { raised.scope with processSubStatus := after.scope.processSubStatus }
  trace : after.trace = raised.trace
  peer : after.peer = raised.peer

namespace Machine.Unwound

theorem refl
    (machine : Machine) :
    Unwound machine machine :=
  ⟨rfl, rfl, rfl⟩

theorem trans
    {left middle right : Machine}
    (first : Unwound left middle)
    (second : Unwound middle right) :
    Unwound left right where
  scope := by
    rw [second.scope, first.scope]
  trace := second.trace.trans first.trace
  peer := second.peer.trans first.peer

end Machine.Unwound

/-- The statement of a site raised a signal that crossed the loops around it and nothing else. -/
def ControlSite.Emits
    (site : ControlSite)
    (env : Env)
    (signal : ControlSignal)
    (after : Machine) :
    Prop :=
  ∃ start raised landed,
    Executes env site.statement start (.ok (.raise raised)) landed ∧
      landed.Unwound after ∧
        raised.Crosses site.depth signal

namespace ControlSite.Emits

/-- A loop hands a signal on that is not for it. -/
theorem inLoop
    {site : ControlSite}
    {env : Env}
    {inner passed : ControlSignal}
    {after : Machine}
    (emits : site.Emits env inner after)
    (propagates : inner.throughLoop = (.propagate, passed)) :
    site.inLoop.Emits env passed after := by
  obtain ⟨start, raised, landed, executed, unwound, crosses⟩ := emits
  exact ⟨start, raised, landed, executed, unwound, crosses.throughLoop propagates⟩

/-- A guard hands every signal on. -/
theorem unwound
    {site : ControlSite}
    {env : Env}
    {signal : ControlSignal}
    {between after : Machine}
    (emits : site.Emits env signal between)
    (released : between.Unwound after) :
    site.Emits env signal after := by
  obtain ⟨start, raised, landed, executed, unwound, crosses⟩ := emits
  exact ⟨start, raised, landed, executed, unwound.trans released, crosses⟩

end ControlSite.Emits

/-- What a loop hands on is a signal that one of its commands ended with. -/
theorem LoopStep.ofFlow_eq_raise
    {flow : ControlFlow}
    {passed : ControlSignal}
    (handsOn : ofFlow flow = .raise passed) :
    ∃ inner, flow = .raise inner ∧ inner.throughLoop = (.propagate, passed) := by
  cases flow with
  | normal status =>
      cases handsOn
  | raise inner =>
      refine ⟨inner, rfl, ?_⟩
      unfold ofFlow at handsOn
      dsimp only at handsOn
      split at handsOn
      · cases handsOn
      · cases handsOn
      next propagates =>
        cases handsOn
        exact propagates

namespace Eval

/-- An evaluation that ends with a status if it has an answer. -/
def NeverRaises
    (evaluation : Eval ControlFlow) :
    Prop :=
  ∀ ⦃before after : Machine⦄ ⦃signal : ControlSignal⦄,
    evaluation.run before ≠ some (.ok (.raise signal), after)

namespace NeverRaises

theorem normal
    (status : Int32) :
    NeverRaises (pure (.normal status)) := by
  intro before after signal finished
  cases finished

theorem bind
    {first : Eval α}
    {next : α → Eval ControlFlow}
    (never : ∀ answer, NeverRaises (next answer)) :
    NeverRaises (first >>= next) := by
  intro before after signal finished
  obtain ⟨answer, between, _, ended⟩ := bind_answers_iff.mp finished
  exact never answer ended

end NeverRaises

end Eval

namespace Commands

variable {below : Evaluator} {env : Env}
variable {before after : Machine} {signal : ControlSignal}

/-- A signal that a command ends with is raised by what it runs. -/
theorem run_of_execute_raise
    {fuel : Nat}
    {command : Command}
    (finished :
      (Evaluator.command (evaluator (fuel + 1)) env command).run before =
        some (.ok (.raise signal), after)) :
    (run (evaluator fuel) env command).run before =
      some (.ok (.raise signal), after) := by
  change (execute (evaluator fuel) env command).run before = _ at finished
  obtain ⟨flow, between, ran, kept⟩ := Eval.bind_answers_iff.mp finished
  obtain ⟨_, last, settled, returned⟩ := Eval.bind_answers_iff.mp kept
  cases returned
  cases settled
  exact ran

/-- A signal leaves a process substitution frame as it was raised inside. -/
theorem withProcessSubs_raise
    {evaluation : Eval ControlFlow}
    (finished :
      (withProcessSubs env evaluation).run before = some (.ok (.raise signal), after)) :
    ∃ start between,
      evaluation.run start = some (.ok (.raise signal), between) ∧
        between.Unwound after := by
  obtain ⟨_, _, _, bracketed⟩ := Eval.bind_answers_iff.mp finished
  obtain ⟨collected, closed, ran, ended⟩ := Run.bind_eq_some_iff.mp bracketed
  obtain ⟨_, _, kept, returned⟩ := Run.bind_eq_some_iff.mp ended
  obtain ⟨_, start, pushed, started⟩ := Run.bind_eq_some_iff.mp ran
  obtain ⟨result, between, evaluated, popping⟩ := Run.bind_eq_some_iff.mp started
  obtain ⟨_, _, popped, collectedAll⟩ := Run.bind_eq_some_iff.mp popping
  cases popped
  cases collectedAll
  cases kept
  cases returned
  exact ⟨start, between, evaluated, ⟨rfl, rfl, rfl⟩⟩

/-- A simple command never raises a signal, whatever the procedure that it calls does. -/
theorem simple_neverRaises
    (words : List Word)
    (span : SpanId) :
    Eval.NeverRaises (run below env (.simple words span)) := by
  intro before after signal finished
  obtain ⟨start, between, ran, _⟩ := withProcessSubs_raise finished
  refine Eval.NeverRaises.bind (fun _ => ?_) ran
  refine Eval.NeverRaises.bind fun argv => ?_
  cases argv with
  | nil => exact .normal 0
  | cons name args =>
      exact .bind fun _ => .bind fun _ => .bind fun status => .normal status

/-- A command that is opaque never raises a signal. -/
theorem neverRaises_of_opaque
    {command : Command}
    (closed : command.Opaque) :
    Eval.NeverRaises (run below env command) := by
  cases closed with
  | simple words span => exact simple_neverRaises words span
  | assign name value isLocal =>
      exact .bind fun _ => .bind fun _ => .bind fun _ => .normal 0
  | pipeline stages negated =>
      exact .bind fun _ => .bind fun statuses => .bind fun _ => .normal statuses.status
  | subshell body =>
      exact .bind fun _ => .bind fun status => .normal status
  | background body =>
      exact .bind fun _ => .bind fun status => .normal status
  | define function =>
      exact .bind fun _ => .normal 0

theorem executeFrom_raise
    {commands : List Command}
    {status : Int32}
    (finished :
      (CommandList.executeFrom below env (.normal status) commands).run before =
        some (.ok (.raise signal), after)) :
    ∃ command start,
      command ∈ commands ∧
        (below.command env command).run start = some (.ok (.raise signal), after) := by
  induction commands generalizing status before with
  | nil =>
      cases finished
  | cons first rest inductionHypothesis =>
      obtain ⟨flow, between, ran, ended⟩ := Eval.bind_answers_iff.mp finished
      cases flow with
      | normal status =>
          obtain ⟨command, start, member, raises⟩ := inductionHypothesis ended
          exact ⟨command, start, List.mem_cons_of_mem first member, raises⟩
      | raise raised =>
          cases ended
          exact ⟨first, before, List.mem_cons_self, ran⟩

theorem condition_raise
    {tested : Condition}
    (finished :
      (condition below env tested).run before = some (.ok (.raise signal), after)) :
    ∃ command,
      tested = .run command ∧
        (below.command env command).run before = some (.ok (.raise signal), after) := by
  cases tested with
  | test test =>
      have never : Eval.NeverRaises (condition below env (.test test)) :=
        .bind fun _ => .bind fun _ => .normal _
      exact absurd finished (@never before after signal)
  | run command =>
      exact ⟨command, rfl, finished⟩

theorem runArms_raise
    {otherwise : Option (List Command)}
    {arms : List BranchArm}
    (finished :
      (runArms below env otherwise arms).run before = some (.ok (.raise signal), after)) :
    ∃ command start,
      (below.command env command).run start = some (.ok (.raise signal), after) ∧
        ((∃ arm ∈ arms, arm.condition = .run command ∨ command ∈ arm.body) ∨
          ∃ body, otherwise = some body ∧ command ∈ body) := by
  induction arms generalizing before with
  | nil =>
      cases otherwise with
      | none => cases finished
      | some body =>
          obtain ⟨command, start, member, raises⟩ := executeFrom_raise finished
          exact ⟨command, start, raises, .inr ⟨body, rfl, member⟩⟩
  | cons arm rest inductionHypothesis =>
      obtain ⟨flow, between, tested, ended⟩ := Eval.bind_answers_iff.mp finished
      cases flow with
      | normal status =>
          dsimp only at ended
          split at ended
          · obtain ⟨command, start, member, raises⟩ := executeFrom_raise ended
            exact ⟨command, start, raises,
              .inl ⟨arm, List.mem_cons_self, .inr member⟩⟩
          · obtain ⟨command, start, raises, place⟩ := inductionHypothesis ended
            refine ⟨command, start, raises, place.imp_left ?_⟩
            rintro ⟨later, member, stands⟩
            exact ⟨later, List.mem_cons_of_mem arm member, stands⟩
      | raise raised =>
          cases ended
          obtain ⟨command, isRun, raises⟩ := condition_raise tested
          exact ⟨command, before, raises,
            .inl ⟨arm, List.mem_cons_self, .inl isRun⟩⟩

/-- A loop over items hands on a signal of its body that is not for it. -/
theorem runItems_raise
    {name : String}
    {body : List Command}
    {status : Int32}
    {items : List String}
    (finished :
      (runItems below env name body status items).run before =
        some (.ok (.raise signal), after)) :
    ∃ command start inner,
      command ∈ body ∧
        (below.command env command).run start = some (.ok (.raise inner), after) ∧
          inner.throughLoop = (.propagate, signal) := by
  induction items generalizing status before with
  | nil =>
      cases finished
  | cons item rest inductionHypothesis =>
      obtain ⟨_, _, _, bound⟩ := Eval.bind_answers_iff.mp finished
      obtain ⟨flow, between, ran, ended⟩ := Eval.bind_answers_iff.mp bound
      split at ended
      · exact inductionHypothesis ended
      · cases ended
      next handsOn =>
        cases ended
        obtain ⟨inner, rfl, propagates⟩ := LoopStep.ofFlow_eq_raise handsOn
        obtain ⟨command, start, member, raises⟩ := executeFrom_raise ran
        exact ⟨command, start, inner, member, raises, propagates⟩

/--
A loop hands on a signal of its condition or its body that is not for it, in
this round or in one that follows.
-/
theorem runLoop_raise
    {statement : LoopStatement}
    {status : Int32}
    (finished :
      (runLoop below env statement status).run before =
        some (.ok (.raise signal), after)) :
    (∃ command start inner,
      (statement.condition = .run command ∨ command ∈ statement.body) ∧
        (below.command env command).run start = some (.ok (.raise inner), after) ∧
          inner.throughLoop = (.propagate, signal)) ∨
      ∃ start status,
        (below.loop env statement status).run start =
          some (.ok (.raise signal), after) := by
  obtain ⟨flow, between, tested, ended⟩ := Eval.bind_answers_iff.mp finished
  cases flow with
  | normal code =>
      dsimp only at ended
      split at ended
      · cases ended
      · obtain ⟨flow, last, ran, ended⟩ := Eval.bind_answers_iff.mp ended
        split at ended
        next status _ =>
          exact .inr ⟨last, status, ended⟩
        · cases ended
        next handsOn =>
          cases ended
          obtain ⟨inner, rfl, propagates⟩ := LoopStep.ofFlow_eq_raise handsOn
          obtain ⟨command, start, member, raises⟩ := executeFrom_raise ran
          exact .inl ⟨command, start, inner, .inr member, raises, propagates⟩
  | raise raised =>
      dsimp only at ended
      split at ended
      · exact .inr ⟨between, status, ended⟩
      · cases ended
      next handsOn =>
        cases ended
        obtain ⟨inner, same, propagates⟩ := LoopStep.ofFlow_eq_raise handsOn
        cases same
        obtain ⟨command, isRun, raises⟩ := condition_raise tested
        exact .inl ⟨command, before, raised, .inl isRun, raises, propagates⟩

/-- Redirections hand a signal of their body on. -/
theorem runRedirected_raise
    {body : Command}
    {redirects : List Redirect}
    (finished :
      (runRedirected below env body redirects).run before =
        some (.ok (.raise signal), after)) :
    ∃ start between,
      (below.command env body).run start = some (.ok (.raise signal), between) ∧
        between.Unwound after := by
  obtain ⟨_, _, _, required⟩ := Eval.bind_answers_iff.mp finished
  obtain ⟨redirections, _, _, bracketed⟩ := Eval.bind_answers_iff.mp required
  obtain ⟨outcome, closed, ran, returned⟩ := Run.bind_eq_some_iff.mp bracketed
  obtain ⟨holds, opened, pushed, started⟩ := Run.bind_eq_some_iff.mp ran
  cases holds with
  | false =>
      cases started
      cases returned
  | true =>
      obtain ⟨result, between, evaluated, popping⟩ := Run.bind_eq_some_iff.mp started
      obtain ⟨_, _, popped, kept⟩ := Run.bind_eq_some_iff.mp popping
      cases popped
      cases kept
      cases returned
      exact ⟨opened, between, evaluated, ⟨rfl, rfl, rfl⟩⟩

end Commands

/-- What an evaluator ends with comes from a site of what it executes. -/
structure Evaluator.Escapes
    (below : Evaluator)
    (env : Env) :
    Prop where
  command : ∀ {command before signal after},
    (below.command env command).run before = some (.ok (.raise signal), after) →
    ∃ site, command.Holds site ∧ site.Emits env signal after
  loop : ∀ {statement status before signal after},
    (below.loop env statement status).run before = some (.ok (.raise signal), after) →
    ∃ site, (Command.loop statement).Holds site ∧ site.Emits env signal after

namespace Evaluator.Escapes

variable {below : Evaluator} {env : Env}
variable {before after : Machine} {signal : ControlSignal}

theorem list
    (escapes : below.Escapes env)
    {commands : List Command}
    (finished :
      (CommandList.execute below env commands).run before =
        some (.ok (.raise signal), after)) :
    ∃ command site,
      command ∈ commands ∧ command.Holds site ∧ site.Emits env signal after := by
  obtain ⟨command, _, member, raises⟩ := Commands.executeFrom_raise finished
  obtain ⟨site, holds, emits⟩ := escapes.command raises
  exact ⟨command, site, member, holds, emits⟩

theorem branch
    (escapes : below.Escapes env)
    {arms : List BranchArm}
    {otherwise : Option (List Command)}
    (finished :
      (Commands.runArms below env otherwise arms).run before =
        some (.ok (.raise signal), after)) :
    ∃ site, (Command.branch arms otherwise).Holds site ∧ site.Emits env signal after := by
  obtain ⟨command, _, raises, place⟩ := Commands.runArms_raise finished
  obtain ⟨site, holds, emits⟩ := escapes.command raises
  rcases place with ⟨arm, member, isRun | stands⟩ | ⟨body, rfl, stands⟩
  · exact ⟨site, .armCondition member isRun holds, emits⟩
  · exact ⟨site, .armBody member stands holds, emits⟩
  · exact ⟨site, .otherwise stands holds, emits⟩

theorem forEach
    (escapes : below.Escapes env)
    {name : String}
    {items : List Word}
    {body : List Command}
    (finished :
      (Commands.runForEach below env name items body).run before =
        some (.ok (.raise signal), after)) :
    ∃ site,
      (Command.forEach name items body).Holds site ∧ site.Emits env signal after := by
  obtain ⟨_, _, _, required⟩ := Eval.bind_answers_iff.mp finished
  obtain ⟨_, _, _, ran⟩ := Eval.bind_answers_iff.mp required
  obtain ⟨command, _, inner, member, raises, propagates⟩ := Commands.runItems_raise ran
  obtain ⟨site, holds, emits⟩ := escapes.command raises
  exact ⟨site.inLoop, .itemBody member holds, emits.inLoop propagates⟩

/-- The rounds of a loop are left by the signals that are not for the loop. -/
theorem rounds
    (escapes : below.Escapes env)
    {statement : LoopStatement}
    {status : Int32}
    (finished :
      (Commands.runLoop below env statement status).run before =
        some (.ok (.raise signal), after)) :
    ∃ site, (Command.loop statement).Holds site ∧ site.Emits env signal after := by
  rcases Commands.runLoop_raise finished with
    ⟨command, _, inner, place, raises, propagates⟩ | ⟨_, _, later⟩
  · obtain ⟨site, holds, emits⟩ := escapes.command raises
    refine ⟨site.inLoop, ?_, emits.inLoop propagates⟩
    exact place.elim (fun isRun => .loopCondition isRun holds) fun stands =>
      .loopBody stands holds
  · exact escapes.loop later

theorem guarded
    {command : Command}
    {evaluation : Eval ControlFlow}
    (finished :
      (Commands.withProcessSubs env evaluation).run before =
        some (.ok (.raise signal), after))
    (inside : ∀ {start between},
      evaluation.run start = some (.ok (.raise signal), between) →
      ∃ site, command.Holds site ∧ site.Emits env signal between) :
    ∃ site, command.Holds site ∧ site.Emits env signal after := by
  obtain ⟨_, between, ran, released⟩ := Commands.withProcessSubs_raise finished
  obtain ⟨site, holds, emits⟩ := inside ran
  exact ⟨site, holds, emits.unwound released⟩

theorem redirected
    (escapes : below.Escapes env)
    {body : Command}
    {redirects : List Redirect}
    (finished :
      (Commands.runRedirected below env body redirects).run before =
        some (.ok (.raise signal), after)) :
    ∃ site, (Command.redirected body redirects).Holds site ∧ site.Emits env signal after := by
  obtain ⟨_, between, raises, released⟩ := Commands.runRedirected_raise finished
  obtain ⟨site, holds, emits⟩ := escapes.command raises
  exact ⟨site, .redirected holds, emits.unwound released⟩

/-- Of two commands in a row, the first is left by its signals, or the second goes on. -/
theorem inSequence
    (escapes : below.Escapes env)
    {left : Command}
    {next : Int32 → Eval ControlFlow}
    (finished :
      (do
        match ← below.command env left with
        | .normal status => next status
        | .raise signal => return .raise signal : Eval ControlFlow).run before =
          some (.ok (.raise signal), after)) :
    (∃ site, left.Holds site ∧ site.Emits env signal after) ∨
      ∃ status between, (next status).run between = some (.ok (.raise signal), after) := by
  obtain ⟨flow, between, leftRan, ended⟩ := Eval.bind_answers_iff.mp finished
  cases flow with
  | normal status => exact .inr ⟨status, between, ended⟩
  | raise raised =>
      cases ended
      exact .inl (escapes.command leftRan)

end Evaluator.Escapes

/-- The statement of a site, on its own, is where its signal comes from. -/
theorem ControlSite.emits_of_executes
    {env : Env}
    {keyword : ControlKeyword}
    {argument : Option ControlArgument}
    {token : SpanId}
    {before after : Machine}
    {signal : ControlSignal}
    (executed :
      Executes env (.control keyword argument token) before (.ok (.raise signal)) after)
    (unspent : signal.Crosses 0 signal) :
    ControlSite.Emits ⟨keyword, argument, token, 0⟩ env signal after :=
  ⟨before, signal, after, executed, .refl after, unspent⟩

/-- What a step of the evaluator raises comes from a site, if that holds of the steps below it. -/
theorem Evaluator.Escapes.step
    {env : Env}
    {fuel : Nat}
    (escapes : Escapes (evaluator fuel) env) :
    Escapes (evaluator (fuel + 1)) env where
  command := by
    intro command before signal after finished
    have ran := Commands.run_of_execute_raise finished
    cases command with
    | sequence commands =>
        obtain ⟨command, site, member, holds, emits⟩ := escapes.list ran
        exact ⟨site, .sequence member holds, emits⟩
    | andThen left right =>
        rcases escapes.inSequence ran with ⟨site, holds, emits⟩ | ⟨status, between, ended⟩
        · exact ⟨site, .andLeft holds, emits⟩
        · split at ended
          · obtain ⟨site, holds, emits⟩ := escapes.command ended
            exact ⟨site, .andRight holds, emits⟩
          · cases ended
    | orElse left right =>
        rcases escapes.inSequence ran with ⟨site, holds, emits⟩ | ⟨status, between, ended⟩
        · exact ⟨site, .orLeft holds, emits⟩
        · split at ended
          · cases ended
          · obtain ⟨site, holds, emits⟩ := escapes.command ended
            exact ⟨site, .orRight holds, emits⟩
    | branch arms otherwise => exact escapes.branch ran
    | forEach name items body => exact guarded ran escapes.forEach
    | loop statement => exact escapes.loop ran
    | redirected body redirects => exact guarded ran escapes.redirected
    | control keyword argument token =>
        -- The only place where a signal comes into being; no loop is around it yet.
        obtain ⟨_, answered⟩ := Control.execute_raise ran
        obtain ⟨_, _, unspent⟩ := Control.signal_answers answered
        exact ⟨_, .control, ControlSite.emits_of_executes ⟨fuel + 1, finished⟩ unspent⟩
    | simple words span =>
        exact (Commands.neverRaises_of_opaque (.simple words span) ran).elim
    | assign name value isLocal =>
        exact (Commands.neverRaises_of_opaque (.assign name value isLocal) ran).elim
    | pipeline stages negated =>
        exact (Commands.neverRaises_of_opaque (.pipeline stages negated) ran).elim
    | subshell body =>
        exact (Commands.neverRaises_of_opaque (.subshell body) ran).elim
    | background body =>
        exact (Commands.neverRaises_of_opaque (.background body) ran).elim
    | define function =>
        exact (Commands.neverRaises_of_opaque (.define function) ran).elim
  loop := escapes.rounds

/-- Whatever fuel there is, raised signals come from sites. -/
theorem Evaluator.escapes
    (env : Env) :
    ∀ fuel, Escapes (evaluator fuel) env
  | 0 =>
      { command := fun finished => nomatch finished
        loop := fun finished => nomatch finished }
  | fuel + 1 => (escapes env fuel).step

/-- Executing the statement of a site evaluates the signal that it raises. -/
theorem ControlSite.signal_of_executes
    {env : Env}
    {site : ControlSite}
    {start landed : Machine}
    {raised : ControlSignal}
    (executed : Executes env site.statement start (.ok (.raise raised)) landed) :
    ∃ fuel between,
      (Control.signal (evaluator fuel) env site.keyword site.argument site.token).run start =
        some (.ok raised, between) := by
  obtain ⟨_ | fuel, finished⟩ := executed
  · cases finished
  · have ran := Commands.run_of_execute_raise finished
    exact ⟨fuel, Control.execute_raise ran⟩

theorem Words.literal_answers
    {env : Env}
    {fuel : Nat}
    {written text : String}
    {before after : Machine}
    (evaluated :
      (Evaluator.word (evaluator fuel) env (.literal written)).run before =
        some (.ok text, after)) :
    text = written := by
  cases fuel with
  | zero => cases evaluated
  | succ fuel =>
      cases evaluated
      rfl

/-- The statement of a loop keyword raises the level that its literal argument asks for. -/
theorem ControlSite.level_of_executes
    {env : Env}
    {site : ControlSite}
    {start landed : Machine}
    {raised : ControlSignal}
    (executed : Executes env site.statement start (.ok (.raise raised)) landed)
    (loops : site.keyword ≠ .returnCall)
    (isLiteral : site.IsLiteral) :
    site.level? = raised.level? := by
  obtain ⟨keyword, argument, token, depth⟩ := site
  obtain ⟨fuel, _, answered⟩ := ControlSite.signal_of_executes executed
  rcases isLiteral with isNone | ⟨written, isStatus⟩
  · obtain rfl : argument = none := isNone
    exact (Control.signal_none_level loops answered).symm
  · obtain rfl : argument = some (.status (.literal written)) := isStatus
    obtain ⟨text, value, _, _, evaluated, read, asked⟩ :=
      Control.signal_status_level loops answered
    obtain rfl := Words.literal_answers evaluated
    exact (congrArg (Option.map Int64.toInt) read).trans asked.symm

/--
A signal that a command ends with comes from a control statement that the
command runs by itself, with the same keyword and the same token, and not from a
command that is opaque. The level of a loop keyword exceeded the number of loops
that the signal crossed, and what exceeds it is left; a return crossed them
unchanged.
-/
theorem escaped_signal_has_site
    {env : Env}
    {command : Command}
    {before after : Machine}
    {signal : ControlSignal}
    (executed : Executes env command before (.ok (.raise signal)) after) :
    ¬ command.Opaque ∧
      ∃ site raised start landed,
        command.Holds site ∧
        Executes env site.statement start (.ok (.raise raised)) landed ∧
        landed.Unwound after ∧
        signal.keyword = site.keyword ∧
        signal.token = site.token ∧
        (site.keyword ≠ .returnCall →
          ∃ level,
            raised.level? = some level ∧
            (site.IsLiteral → site.level? = some level) ∧
            site.depth < level ∧
            signal.level? = some (level - site.depth)) ∧
        (signal.isReturn → signal = raised) := by
  obtain ⟨fuel, finished⟩ := executed
  obtain ⟨site, holds, start, raised, landed, emitted, unwound, crosses⟩ :=
    (Evaluator.escapes env fuel).command finished
  obtain ⟨_, _, answered⟩ := ControlSite.signal_of_executes emitted
  obtain ⟨keyword, token, _⟩ := Control.signal_answers answered
  refine ⟨fun isOpaque => isOpaque.holds_nothing holds, site, raised, start, landed,
    holds, emitted, unwound, crosses.keyword.trans keyword, crosses.token.trans token,
    ?_, crosses.eq_of_isReturn⟩
  intro loops
  obtain ⟨level, raisedLevel⟩ := ControlSignal.exists_level (keyword ▸ loops)
  obtain ⟨exceeds, left⟩ := crosses.level raisedLevel
  refine ⟨level, raisedLevel, fun isLiteral => ?_, exceeds, left⟩
  exact (ControlSite.level_of_executes emitted loops isLiteral).trans raisedLevel

/-- A break of three levels leaves two loops and a redirection, and a level of one. -/
theorem break_three_has_site :
    ∃ (site : ControlSite) (raised : ControlSignal) (start landed after : Machine),
      Executes .connected
          (.forEach "x" [.literal "a"]
            [.redirected
              (.forEach "y" [.literal "b"]
                [.control .breakLoop (some (.status (.literal "3"))) ⟨4⟩])
              [⟨1, .write, .literal "out", ⟨9⟩⟩]])
          .fresh (.ok (.raise (.breakLoops 1 ⟨4⟩))) after ∧
        Executes .connected site.statement start (.ok (.raise raised)) landed ∧
        landed.Unwound after ∧
        site.keyword = .breakLoop ∧
        site.token = ⟨4⟩ ∧
        ∃ level : Int,
          raised.level? = some level ∧
          level = site.depth + 1 := by
  have executed :
      ∃ after,
        Executes .connected
          (.forEach "x" [.literal "a"]
            [.redirected
              (.forEach "y" [.literal "b"]
                [.control .breakLoop (some (.status (.literal "3"))) ⟨4⟩])
              [⟨1, .write, .literal "out", ⟨9⟩⟩]])
          .fresh (.ok (.raise (.breakLoops 1 ⟨4⟩))) after :=
    ⟨_, 10, rfl⟩
  obtain ⟨after, executed⟩ := executed
  obtain ⟨_, site, raised, start, landed, _, emitted, unwound, keyword, token, levels, _⟩ :=
    escaped_signal_has_site executed
  have isBreak : site.keyword ≠ .returnCall := fun isReturn =>
    nomatch keyword.trans isReturn
  obtain ⟨level, asked, _, _, left⟩ := levels isBreak
  have remains : (1 : Int) = level - site.depth := Option.some.inj left
  exact ⟨site, raised, start, landed, after, executed, emitted, unwound, keyword.symm,
    token.symm, level, asked, by omega⟩

end ShellCore
