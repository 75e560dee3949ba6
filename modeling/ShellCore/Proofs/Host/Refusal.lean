import ShellCore.Proofs.Evaluation.Fuel
import ShellCore.Proofs.Host.Comparison

namespace ShellCore

/-!
# Process substitutions without a frame

A command that opens a frame has it open while its words are evaluated, so none of
their process substitutions is refused, at whatever depth. Other commands rely on a
frame around them: if there is none, a process substitution in their words runs, is
refused, and ends everything up to the statement with an error. So it depends on
what is open around a command whether it ends as it would with a frame.
-/

/-- Of all requests, only commands open a frame. -/
def Request.OpensFrame :
    Request α →
    Prop
  | .command body => body.OpensFrame
  | _ => False

/-- A request that opens a frame is never refused a process substitution. -/
theorem Eval.Comparable.of_opensFrame
    {request : Request α}
    (opensFrame : request.OpensFrame)
    (fuel : Nat)
    (env : Env) :
    (ShellCore.evaluator fuel α env request).Comparable none := by
  cases fuel with
  | zero => exact outOfFuel
  | succ fuel =>
      cases request with
      | command command =>
          cases command with
          | simple words span =>
              exact inFrame env (simple fuel env words)
          | forEach name items body =>
              exact inFrame env (forEach fuel env name items body)
          | redirected body redirects =>
              exact inFrame env (redirected fuel env body redirects)
          | _ => exact opensFrame.elim
      | _ => exact opensFrame.elim

/-- Where a substitution was refused, the request does not end so with a frame around it. -/
theorem Machine.Refused.not_framed
    {env : Env}
    {request : Request α}
    {before after : Machine}
    {result : Except RuntimeError α}
    {host : MemoryHost}
    (inMemory : before.host = .memory host)
    (noFrame : host.frames = [])
    (answered : Answers env request before result after)
    (refused : before.Refused after) :
    ¬ Answers env request before.framed result after.framed := by
  rintro ⟨framedFuel, framedFinished⟩
  obtain ⟨fuel, finished⟩ := answered
  -- Only with fuel that is enough for both runs can they be put side by side.
  have ran := evaluator_refinedBy (Nat.le_max_left fuel framedFuel) env request finished
  have framedRan :=
    evaluator_refinedBy (Nat.le_max_right fuel framedFuel) env request framedFinished
  have comparable := Eval.Comparable.evaluator (max fuel framedFuel) env request
  cases comparable.compares inMemory with
  | unfinished unfinished => exact nomatch unfinished.symm.trans ran
  | alike alsoRan _ unrefused =>
      cases alsoRan.symm.trans ran
      exact unrefused.not_refused inMemory refused
  | refused _ _ _ _ _ holds =>
      obtain ⟨framedFinal, entry, others, framedInMemory, frames⟩ := holds _ framedRan
      obtain ⟨final, finallyInMemory⟩ := refused.inMemory inMemory
      have stillNone : final.frames = [] :=
        ((comparable.collects ran).frames_eq_nil_iff inMemory finallyInMemory).mpr noFrame
      have isFramed := Machine.host_framed finallyInMemory
      obtain rfl := Host.memory.inj (isFramed.symm.trans framedInMemory)
      simp [MemoryHost.framed, stillNone] at frames

/-- Without a frame, the word of a process substitution never evaluates to a path. -/
theorem processSub_fails_unframed
    {env : Env}
    {body : Command}
    {span : SpanId}
    {before after : Machine}
    {result : Except RuntimeError String}
    {host : MemoryHost}
    (inMemory : before.host = .memory host)
    (noFrame : host.frames = [])
    (answered : Answers env (.word (.processSub body span)) before result after) :
    ∃ error, result = .error error := by
  cases result with
  | error error => exact ⟨error, rfl⟩
  | ok path =>
      obtain ⟨fuel, finished⟩ := answered
      cases fuel with
      | zero => cases finished
      | succ fuel =>
          have collects := Collects.discipline.evaluator (fuel + 1) env _ finished
          obtain ⟨_, _, required, substituted⟩ := Eval.bind_answers_iff.mp finished
          obtain rfl := Composable.unchanged.require env _ required
          obtain ⟨ended, status, stored⟩ := runProcessSub_finished inMemory substituted
          cases stored with
          | finished _ stores =>
              have noneAfter := (collects.frames_eq_nil_iff inMemory rfl).mpr noFrame
              have held := (MemoryHost.Grown.of_finished stores).heldCount
              rw [noneAfter] at held
              simp [ProcessSubEvent.heldCount] at held

/--
Of the process substitutions that are started while a request is answered, only the
last can be refused, and then that is how the request ends. None is refused inside a
command that opens a frame, nor where a frame is open already. Where no frame is open,
one is refused exactly if the request would not end in the same way with a frame
around it.
-/
theorem answer_refuses_iff_frame_matters
    {env : Env}
    {request : Request α}
    {before after : Machine}
    {result : Except RuntimeError α}
    {host : MemoryHost}
    (inMemory : before.host = .memory host)
    (answered : Answers env request before result after) :
    ∃ final history,
      after.host = .memory final ∧
        Trail before history after ∧
        MemoryHost.Marked history host final ∧
        (.refused ∈ history →
          result = .error .unframed ∧
            ∃ earlier, history = earlier ++ [.refused] ∧ .refused ∉ earlier) ∧
        (request.OpensFrame ∨ host.frames ≠ [] → .refused ∉ history) ∧
        (host.frames = [] →
          (.refused ∉ history ↔ Answers env request before.framed result after.framed)) := by
  obtain ⟨fuel, finished⟩ := answered
  cases (Eval.Comparable.evaluator fuel env request).compares inMemory with
  | unfinished unfinished => exact nomatch unfinished.symm.trans finished
  | alike ran framed unrefused =>
      cases ran.symm.trans finished
      obtain ⟨history, trail, noneRefused⟩ := unrefused
      obtain ⟨final, finallyInMemory, marked⟩ := trail.marked inMemory
      exact ⟨final, history, finallyInMemory, trail, marked,
        fun isRefused => absurd isRefused noneRefused, fun _ => noneRefused,
        fun _ => iff_of_true noneRefused ⟨fuel, framed⟩⟩
  | refused isRefusal found noFrame ran refused _ =>
      obtain rfl := Host.memory.inj (found.symm.trans inMemory)
      cases isRefusal
      cases ran.symm.trans finished
      have notFramed := refused.not_framed inMemory noFrame ⟨fuel, finished⟩
      have notOpening : ¬ request.OpensFrame := by
        intro opensFrame
        cases (Eval.Comparable.of_opensFrame opensFrame fuel env).compares inMemory with
        | unfinished unfinished => exact nomatch unfinished.symm.trans finished
        | alike alsoRan _ unrefused =>
            cases alsoRan.symm.trans finished
            exact unrefused.not_refused inMemory refused
        | refused isRefusal => cases isRefusal
      obtain ⟨earlier, trail, noneEarlier⟩ := refused
      obtain ⟨final, finallyInMemory, marked⟩ := trail.marked inMemory
      have isRefused : .refused ∈ earlier ++ [ProcessSubEvent.refused] := by simp
      refine ⟨final, _, finallyInMemory, trail, marked,
        fun _ => ⟨rfl, earlier, rfl, noneEarlier⟩, ?_,
        fun _ => iff_of_false (not_not_intro isRefused) notFramed⟩
      rintro (opensFrame | isOpen)
      · exact absurd opensFrame notOpening
      · exact absurd noFrame isOpen

/-- Whether a run ended with the error of a process substitution that no frame takes. -/
def endsUnframed
    (ended : Except RuntimeError ControlFlow × Machine) :
    Bool :=
  match ended.1 with
  | .error error => error = .unframed
  | .ok _ => false

theorem eq_unframed_of_endsUnframed
    {ended : Except RuntimeError ControlFlow × Machine}
    (unframed : endsUnframed ended = true) :
    ended.1 = .error .unframed := by
  rcases ended with ⟨result, after⟩
  cases result with
  | error error => exact congrArg Except.error (of_decide_eq_true unframed)
  | ok flow => cases unframed

/-- A command with a process substitution of its own, then one that opens no frame. -/
def framedThenFrameless : Command :=
  .sequence
    [.simple [.literal "echo", .processSub (.simple [.literal "true"] ⟨0⟩) ⟨1⟩] ⟨2⟩,
      .assign "y" (.processSub (.simple [.literal "false"] ⟨3⟩) ⟨4⟩) false]

/-- Only the process substitution of the assignment is refused, and a frame would matter. -/
theorem framedThenFrameless_refuses_last :
    ∃ after earlier,
      Answers .connected (.command framedThenFrameless) .fresh (.error .unframed) after ∧
        Trail .fresh (earlier ++ [.refused]) after ∧
        .refused ∉ earlier ∧
        ¬ Answers .connected (.command framedThenFrameless) Machine.fresh.framed
            (.error .unframed) after.framed := by
  have ran :
      ((evaluator 8 _ .connected (.command framedThenFrameless)).run .fresh).map
        endsUnframed = some true := by
    decide +kernel
  have ranFramed :
      ((evaluator 8 _ .connected (.command framedThenFrameless)).run
        Machine.fresh.framed).map endsUnframed = some false := by
    decide +kernel
  obtain ⟨⟨result, after⟩, finished, unframed⟩ := Option.map_eq_some_iff.mp ran
  obtain rfl : result = .error .unframed := eq_unframed_of_endsUnframed unframed
  have answered :
      Answers .connected (.command framedThenFrameless) .fresh (.error .unframed) after :=
    ⟨8, finished⟩
  have otherwise :
      ¬ Answers .connected (.command framedThenFrameless) Machine.fresh.framed
          (.error .unframed) after.framed := by
    intro framedAnswered
    obtain ⟨⟨framedResult, framedAfter⟩, framedFinished, framed⟩ :=
      Option.map_eq_some_iff.mp ranFramed
    obtain ⟨rfl, -⟩ := Answers.unique ⟨8, framedFinished⟩ framedAnswered
    simp [endsUnframed] at framed
  obtain ⟨final, history, -, trail, -, last, -, matters⟩ :=
    answer_refuses_iff_frame_matters rfl answered
  by_cases isRefused : .refused ∈ history
  · obtain ⟨-, earlier, rfl, noneEarlier⟩ := last isRefused
    exact ⟨after, earlier, answered, trail, noneEarlier, otherwise⟩
  · exact absurd ((matters rfl).mp isRefused) otherwise

/-- Each position in which a word is evaluated outside a command that opens a frame. -/
def frameless
    (word : Word) :
    List Command :=
  [.assign "x" word false,
    .branch [⟨.test (.isEmpty word), []⟩] none,
    .loop ⟨.test (.isNonempty word), [], true⟩,
    .control .returnCall (some (.status word)) ⟨2⟩,
    .control .breakLoop (some (.status word)) ⟨2⟩]

/-- In each of these positions, the first process substitution of a new host is refused. -/
theorem frameless_substitutions_are_refused :
    ∀ command ∈ frameless (.processSub (.simple [.literal "true"] ⟨0⟩) ⟨1⟩),
      ∃ after,
        Executes .connected command .fresh (.error .unframed) after ∧
          Machine.fresh.Refused after := by
  have runs :
      ∀ command ∈ frameless (.processSub (.simple [.literal "true"] ⟨0⟩) ⟨1⟩),
        ((Evaluator.command (evaluator 8) .connected command).run .fresh).map endsUnframed =
            some true ∧
          ((Evaluator.command (evaluator 8) .connected command).run
              Machine.fresh.framed).map endsUnframed =
            some false := by
    decide +kernel
  intro command isFrameless
  obtain ⟨ran, ranFramed⟩ := runs command isFrameless
  obtain ⟨⟨result, after⟩, finished, unframed⟩ := Option.map_eq_some_iff.mp ran
  obtain rfl : result = .error .unframed := eq_unframed_of_endsUnframed unframed
  refine ⟨after, ⟨8, finished⟩, ?_⟩
  have compares :
      Run.Compares (some (.error .unframed))
        (Evaluator.command (evaluator 8) .connected command).run .fresh :=
    (Eval.Comparable.evaluator 8 .connected (.command command)).compares rfl
  cases compares with
  | unfinished unfinished => exact nomatch unfinished.symm.trans finished
  | alike alsoRan framed =>
      -- With one more frame the command ends otherwise.
      cases alsoRan.symm.trans finished
      rw [framed] at ranFramed
      cases ranFramed
  | refused _ _ _ alsoRan refused =>
      cases alsoRan.symm.trans finished
      exact refused

/-- The process substitution of an assignment runs, and its status is dropped. -/
theorem assigned_substitution_is_refused :
    ∃ after,
      Executes .connected
          (.assign "x" (.processSub (.simple [.literal "true"] ⟨0⟩) ⟨1⟩) false) .fresh
          (.error .unframed) after ∧
        Machine.fresh.Refused after :=
  frameless_substitutions_are_refused _ List.mem_cons_self

end ShellCore
