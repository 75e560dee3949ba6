import ShellCore.Proofs.Evaluation.Execution
import ShellCore.Proofs.Evaluation.Faults
import ShellCore.Proofs.Shell.Statement
import ShellCore.Proofs.Source.Window
import ShellCore.Proofs.Tracing.Observation

namespace ShellCore

/-!
# A shell that was built meets no faults

Building a shell makes all its connections and wires its host to call it back.
Nothing that is done with the shell takes that away, so no program that it
executes ever meets a fault of the wiring or of the arena.
-/

/-- The host lets itself be wired, if there is anything to wire. -/
def Host.Connects :
    Host →
    Prop
  | .inert => True
  | .memory host => host.connects = true

/-- A host that is inert, or wired to call back the shell's own set. -/
inductive Host.CallsOwnSet : Host → Prop where
  | inert : CallsOwnSet .inert
  | memory {host : MemoryHost} :
      host.connects = true →
      host.callback.target = some Shell.ownSet →
      CallsOwnSet (.memory host)

namespace Host.CallsOwnSet

variable {host after : Host}

theorem callback?_eq
    (callsOwn : host.CallsOwnSet)
    (isMemory : host.isMemory = true) :
    host.callback? = some Shell.ownSet := by
  cases callsOwn with
  | inert => cases isMemory
  | memory connects target => exact target

theorem of_related
    (callsOwn : host.CallsOwnSet)
    (related : host.Related MemoryHost.SameWiring after) :
    after.CallsOwnSet := by
  cases related with
  | inert => exact callsOwn
  | memory same =>
      cases callsOwn with
      | memory connects target =>
          exact .memory (same.connects.trans connects) (same.callback ▸ target)

/-- A host that lets itself be wired calls back the set that it was wired to. -/
theorem of_wire
    (connects : host.Connects)
    (wired : host.wire Shell.ownSet = .ok after) :
    after.CallsOwnSet := by
  cases host with
  | inert =>
      cases wired
      exact .inert
  | memory host =>
      have lets : host.connects = true := connects
      simp only [wire, MemoryHost.wire, Link.set, lets, if_true] at wired
      cases target : host.callback.target with
      | some set =>
          rw [target] at wired
          cases wired
      | none =>
          rw [target] at wired
          cases wired
          exact .memory rfl rfl

end Host.CallsOwnSet

namespace Assembly

/-- A set is connected to a host only after wiring it. -/
theorem connect_wires
    {find : SetId → Option α}
    {set : SetId}
    {made connections : List Connection}
    {host after : Host}
    (connected : connect find set made host = (.ok (), connections, after)) :
    host.wire set = .ok after := by
  unfold connect at connected
  split at connected
  · cases connected
  · split at connected
    · cases connected
    next wired =>
      rw [wired]
      exact congrArg Except.ok (Prod.mk.inj (Prod.mk.inj connected).2).2

/-- A set that has connections is not connected once more, and its host stays as it is. -/
theorem connect_again
    {find : SetId → Option α}
    {set : SetId}
    {made : List Connection}
    (all : ∀ connection, connection ∈ made)
    (host : Host) :
    (connect find set made host).2.2 = host := by
  have refused :
      Connection.make made Connection.all =
        (.error (.alreadyWired Connection.arithToWord.name), made) :=
    if_pos (all .arithToWord)
  unfold connect
  rw [refused]

end Assembly

namespace Shell

/-- A shell in which nothing is missing that an evaluation could ask for. -/
structure Sound
    (shell : Shell) :
    Prop where
  env : shell.env.Sound shell.machine.host.isMemory
  host : shell.machine.host.CallsOwnSet

/-- What a host that calls back the shell's own set is connected to is sound. -/
theorem connectedEnv_sound
    {setup : Setup}
    {made : List Connection}
    {host : Host}
    (all : ∀ connection, connection ∈ made)
    (harmless : setup.IsHarmless)
    (callsOwn : host.CallsOwnSet) :
    (connectedEnv setup made host).Sound host.isMemory where
  wired := connectedEnv_wired all host
  harmless := harmless
  peerHarmless := by
    intro peer isPeer
    unfold connectedEnv Callback.ofHost at isPeer
    dsimp only at isPeer
    split at isPeer
    · cases isPeer
    · split at isPeer <;> cases isPeer
  alive isMemory := by
    unfold connectedEnv Callback.ofHost
    rw [callsOwn.callback?_eq isMemory]
    rfl

namespace Sound

variable {shell : Shell}

theorem new
    {config : Config}
    {host : Host}
    (connects : host.Connects)
    (built : Shell.new config host = .ok shell) :
    shell.Sound := by
  unfold Shell.new at built
  split at built
  · cases built
  next made wiredHost connected =>
    cases built
    have callsOwn := Host.CallsOwnSet.of_wire connects (Assembly.connect_wires connected)
    refine ⟨connectedEnv_sound (Assembly.connect_makes_all connected) ?_ callsOwn, callsOwn⟩
    intro name callable registered
    cases registered

theorem register
    (sound : shell.Sound)
    {callable : Callable}
    (harmless : callable.IsHarmless)
    (name : String) :
    (shell.register name callable).Sound where
  env :=
    { wired := ⟨sound.env.wired.own, sound.env.wired.peer⟩
      harmless := by
        intro other found registered
        unfold Shell.register at registered
        by_cases same : other = name
        · subst same
          rw [Table.get?_insert_self] at registered
          cases registered
          exact harmless
        · rw [Table.get?_insert_of_ne _ _ same] at registered
          exact sound.env.harmless other found registered
      peerHarmless := sound.env.peerHarmless
      alive := sound.env.alive }
  host := sound.host

theorem reconnect
    (sound : shell.Sound) :
    shell.reconnect.2.Sound := by
  have sameHost :
      (Assembly.connect findOwn ownSet shell.env.setup.connections shell.machine.host).2.2 =
        shell.machine.host :=
    Assembly.connect_again sound.env.wired.own shell.machine.host
  have callsOwn : shell.reconnect.2.machine.host.CallsOwnSet := by
    change Host.CallsOwnSet (Assembly.connect _ _ _ _).2.2
    rw [sameHost]
    exact sound.host
  refine ⟨connectedEnv_sound ?_ sound.env.harmless callsOwn, callsOwn⟩
  exact fun connection => Assembly.mem_connect (sound.env.wired.own connection)

/-- A shell stays sound while its environment stays and its host stays wired. -/
theorem of_machine
    (sound : shell.Sound)
    {after : Shell}
    (sameEnv : after.env = shell.env)
    (related : shell.machine.host.Related MemoryHost.SameWiring after.machine.host) :
    after.Sound where
  env := by
    rw [sameEnv, related.isMemory_eq]
    exact sound.env
  host := sound.host.of_related related

/-- Evaluating in the shell's own set leaves a sound shell. -/
theorem evaluated
    (sound : shell.Sound)
    {fuel : Nat}
    {request : Request α}
    {ended : Except RuntimeError α}
    {machine : Machine}
    (ran : (evaluator fuel α shell.env request).run shell.machine = some (ended, machine)) :
    (shell.withMachine machine).Sound :=
  sound.of_machine rfl ((Eval.Faultless.evaluator sound.env fuel request).wiring ran)

/-- A statement is settled, or a token of its diagnostic stands too far right. -/
theorem executeStatement
    (sound : shell.Sound)
    {fuel : Nat}
    {statement : Command}
    {result : Except ShellError (Int32 × Option Diagnostic)}
    {after : Shell}
    (ran : (Shell.executeStatement fuel statement).run shell = some (result, after)) :
    after.Sound ∧
      ∀ error, result = .error error →
        error = .columnOverflow ∧ ∃ span, TooFarRight after.arena span := by
  obtain ⟨ended, machine, finished, rfl, rfl⟩ := executeStatement_eq_some_iff.mp ran
  have left := sound.evaluated finished
  have harmless : ∀ error, ended = .error error → error.isFatal = false := by
    rintro error rfl
    exact (Eval.Faultless.evaluator sound.env fuel (.command statement)).errors rfl finished
  cases verdict : judge shell.arena ended with
  | ok settled => exact ⟨⟨left.env, left.host⟩, nofun⟩
  | error error =>
      refine ⟨left, ?_⟩
      rintro _ ⟨⟩
      exact judge_eq_error harmless verdict

theorem executeFrom
    (sound : shell.Sound)
    {fuel : Nat}
    {outcome : Outcome}
    {program : List Command}
    {result : Except ShellError Outcome}
    {after : Shell}
    (ran : (Shell.executeFrom fuel outcome program).run shell = some (result, after)) :
    after.Sound ∧
      ∀ error, result = .error error →
        error = .columnOverflow ∧ ∃ span, TooFarRight after.arena span := by
  induction program generalizing shell outcome with
  | nil =>
      cases ran
      exact ⟨sound, nofun⟩
  | cons statement rest inductionHypothesis =>
      rcases Execution.bind_eq_some_iff.mp ran with
        ⟨error, failed, rfl⟩ | ⟨settled, between, started, others⟩
      · obtain ⟨left, overflows⟩ := sound.executeStatement failed
        refine ⟨left, ?_⟩
        rintro _ ⟨⟩
        exact overflows error rfl
      · exact inductionHypothesis (sound.executeStatement started).1 others

end Sound

/-- A shell that was built over a host that can be wired, and used since then. -/
inductive InUse : Shell → Prop where
  | built {config : Config} {host : Host} {shell : Shell} :
      host.Connects →
      Shell.new config host = .ok shell →
      InUse shell
  | registered {shell : Shell} {callable : Callable} (name : String) :
      InUse shell →
      callable.IsHarmless →
      InUse (shell.register name callable)
  | reconnected {shell : Shell} :
      InUse shell →
      InUse shell.reconnect.2
  | fed {shell : Shell} (text : String) :
      InUse shell →
      InUse (shell.feedLine text).2
  | lexed {shell : Shell} (provenance : Provenance) (text : String) :
      InUse shell →
      InUse (shell.lexSource provenance text).2
  /-- The arena is lent out to be changed at will. -/
  | withArena {shell : Shell} (arena : Arena) :
      InUse shell →
      InUse { shell with arena := arena }
  /-- So is the scope. -/
  | withScope {shell : Shell} (scope : Scope) :
      InUse shell →
      InUse { shell with machine := shell.machine.mapScope fun _ => scope }
  /-- The host is shared; whoever shares it can act on it, but not wire it again. -/
  | withHost {shell : Shell} (action : MemoryHost → MemoryHost) :
      InUse shell →
      (∀ host, MemoryHost.SameWiring host (action host)) →
      InUse { shell with
        machine := { shell.machine with
          host := (shell.machine.host.act () fun host => ((), action host)).2 } }
  | executed {shell after : Shell} {fuel : Nat} {program : List Command}
      {result : Except ShellError Outcome} :
      InUse shell →
      (Shell.execute fuel program).run shell = some (result, after) →
      InUse after

theorem InUse.sound
    {shell : Shell}
    (inUse : shell.InUse) :
    shell.Sound := by
  induction inUse with
  | built connects built => exact .new connects built
  | registered name _ harmless sound => exact sound.register harmless name
  | reconnected _ sound => exact sound.reconnect
  | fed text _ sound => exact ⟨sound.env, sound.host⟩
  | lexed provenance text _ sound => exact ⟨sound.env, sound.host⟩
  | withArena arena _ sound => exact ⟨sound.env, sound.host⟩
  | withScope scope _ sound => exact ⟨sound.env, sound.host⟩
  | @withHost shell action _ keeps sound =>
      refine sound.of_machine rfl ?_
      dsimp only
      cases shell.machine.host with
      | inert => exact .inert
      | memory host => exact .memory (keeps host)
  | executed _ ran sound => exact (sound.executeFrom ran).1

/--
A program that a shell in use executes to an end has an outcome, unless a token
that a diagnostic is about stands at the last column. No request that the shell's
evaluators answer ends with a fault, from any machine over such a host.
-/
theorem in_use_meets_no_fault
    {shell : Shell}
    (inUse : shell.InUse) :
    (∀ fuel program result after,
      (execute fuel program).run shell = some (result, after) →
      (∃ outcome, result = .ok outcome) ∨
        result = .error .columnOverflow ∧ ∃ span, TooFarRight after.arena span) ∧
    ∀ (α : Type) (request : Request α) (before after : Machine) error,
      before.host.isMemory = shell.machine.host.isMemory →
      Answers shell.env request before (.error error) after →
      error.isFatal = false := by
  have sound := inUse.sound
  constructor
  · intro fuel program result after ran
    have overflows := (sound.executeFrom ran).2
    cases result with
    | ok outcome => exact .inl ⟨outcome, rfl⟩
    | error error =>
        obtain ⟨rfl, tooFar⟩ := overflows error rfl
        exact .inr ⟨rfl, tooFar⟩
  · rintro α request before after error kind ⟨fuel, failed⟩
    exact (Eval.Faultless.evaluator sound.env fuel request).errors kind failed

/-- A callable that counts its arguments. -/
def countArguments : Callable :=
  fun args => .ok (.int (Int64.ofNat args.length))

/-- A program that enters the evaluators again in every way, and breaks out of nothing. -/
def nestedProgram : List Command :=
  [.pipeline
      [.subshell
        (.simple
          [.literal "echo", .commandSub (.background (.simple [.literal "true"] ⟨1⟩))] ⟨2⟩),
        .simple
          [.literal "echo", .expr (.call "count" [.word (.prompt "$HOME")] ⟨3⟩),
            .processSub (.simple [.literal "false"] ⟨4⟩) ⟨5⟩] ⟨6⟩]
      false,
    .control .breakLoop none ⟨7⟩]

theorem nestedProgram_meets_no_fault :
    ∃ shell outcome after,
      Shell.new .transient (.memory .initial) = .ok shell ∧
        (execute 9 nestedProgram).run (shell.register "count" countArguments) =
          some (.ok outcome, after) ∧
        outcome.status = 1 ∧
        ∀ (α : Type) (request : Request α) (before later : Machine) error,
          before.host.isMemory = shell.machine.host.isMemory →
          Answers (shell.register "count" countArguments).env request before
            (.error error) later →
          error.isFatal = false := by
  have ran :
      ((Shell.new .transient (.memory .initial)).toOption.bind fun shell =>
          (execute 9 nestedProgram).run (shell.register "count" countArguments)).map
            (fun ended => ended.1.toOption.map (·.status)) =
        some (some 1) := by
    decide +kernel
  obtain ⟨⟨result, after⟩, found, shape⟩ := Option.map_eq_some_iff.mp ran
  obtain ⟨shell, isBuilt, finished⟩ := Option.bind_eq_some_iff.mp found
  have built : Shell.new .transient (.memory .initial) = .ok shell :=
    Arena.ok_of_toOption isBuilt
  have connects : Host.Connects (.memory .initial) := rfl
  have inUse : (shell.register "count" countArguments).InUse :=
    .registered "count" (.built connects built) fun _ _ => nofun
  obtain ⟨ends, noFault⟩ := in_use_meets_no_fault inUse
  rcases ends 9 nestedProgram result after finished with ⟨outcome, rfl⟩ | ⟨rfl, -⟩
  · exact ⟨shell, outcome, after, built, finished, Option.some.inj shape, noFault⟩
  · cases shape

end Shell

end ShellCore
