import Mathlib.Data.List.Forall2
import Mathlib.Data.Option.Basic
import ShellCore.Proofs.Host.Frameless
import ShellCore.Evaluation.Request

namespace ShellCore

/-!
# Likeness but for tokens

Two trees are alike if they are equal except for the tokens that their nodes come from,
and the tokens of corresponding nodes are paired. Two states are alike if they are equal
except for the tokens of stored functions and of the statuses of process substitutions.
What pairs tokens can be any relation; so whatever likeness says of the tokens in two
results, they come from corresponding nodes.
-/

variable (paired : SpanId → SpanId → Prop)

mutual

/-- Commands that are alike. -/
inductive Command.Alike (paired : SpanId → SpanId → Prop) : Command → Command → Prop where
  | simple {words otherWords : List Word} {span otherSpan : SpanId} :
      List.Forall₂ (Word.Alike paired) words otherWords →
      paired span otherSpan →
      Command.Alike paired (.simple words span) (.simple otherWords otherSpan)
  | assign {name : String} {value otherValue : Word} {isLocal : Bool} :
      Word.Alike paired value otherValue →
      Command.Alike paired (.assign name value isLocal) (.assign name otherValue isLocal)
  | sequence {commands otherCommands : List Command} :
      List.Forall₂ (Command.Alike paired) commands otherCommands →
      Command.Alike paired (.sequence commands) (.sequence otherCommands)
  | andThen {left otherLeft right otherRight : Command} :
      Command.Alike paired left otherLeft →
      Command.Alike paired right otherRight →
      Command.Alike paired (.andThen left right) (.andThen otherLeft otherRight)
  | orElse {left otherLeft right otherRight : Command} :
      Command.Alike paired left otherLeft →
      Command.Alike paired right otherRight →
      Command.Alike paired (.orElse left right) (.orElse otherLeft otherRight)
  | pipeline {stages otherStages : List Command} {negated : Bool} :
      List.Forall₂ (Command.Alike paired) stages otherStages →
      Command.Alike paired (.pipeline stages negated) (.pipeline otherStages negated)
  | subshell {body otherBody : Command} :
      Command.Alike paired body otherBody →
      Command.Alike paired (.subshell body) (.subshell otherBody)
  | background {body otherBody : Command} :
      Command.Alike paired body otherBody →
      Command.Alike paired (.background body) (.background otherBody)
  | branch {arms otherArms : List BranchArm} {otherwise otherOtherwise : List Command} :
      List.Forall₂ (BranchArm.Alike paired) arms otherArms →
      List.Forall₂ (Command.Alike paired) otherwise otherOtherwise →
      Command.Alike paired (.branch arms (some otherwise))
        (.branch otherArms (some otherOtherwise))
  | branchOnly {arms otherArms : List BranchArm} :
      List.Forall₂ (BranchArm.Alike paired) arms otherArms →
      Command.Alike paired (.branch arms none) (.branch otherArms none)
  | forEach {name : String} {items otherItems : List Word} {body otherBody : List Command} :
      List.Forall₂ (Word.Alike paired) items otherItems →
      List.Forall₂ (Command.Alike paired) body otherBody →
      Command.Alike paired (.forEach name items body) (.forEach name otherItems otherBody)
  | loop {statement otherStatement : LoopStatement} :
      LoopStatement.Alike paired statement otherStatement →
      Command.Alike paired (.loop statement) (.loop otherStatement)
  | define {function otherFunction : Function} :
      Function.Alike paired function otherFunction →
      Command.Alike paired (.define function) (.define otherFunction)
  | control {keyword : ControlKeyword} {token otherToken : SpanId} :
      paired token otherToken →
      Command.Alike paired (.control keyword none token) (.control keyword none otherToken)
  | controlled {keyword : ControlKeyword} {argument otherArgument : ControlArgument}
      {token otherToken : SpanId} :
      ControlArgument.Alike paired argument otherArgument →
      paired token otherToken →
      Command.Alike paired (.control keyword (some argument) token)
        (.control keyword (some otherArgument) otherToken)
  | redirected {body otherBody : Command} {redirects otherRedirects : List Redirect} :
      Command.Alike paired body otherBody →
      List.Forall₂ (Redirect.Alike paired) redirects otherRedirects →
      Command.Alike paired (.redirected body redirects) (.redirected otherBody otherRedirects)

/-- Arms of a branch that are alike. -/
inductive BranchArm.Alike (paired : SpanId → SpanId → Prop) : BranchArm → BranchArm → Prop where
  | mk {condition otherCondition : Condition} {body otherBody : List Command} :
      Condition.Alike paired condition otherCondition →
      List.Forall₂ (Command.Alike paired) body otherBody →
      BranchArm.Alike paired ⟨condition, body⟩ ⟨otherCondition, otherBody⟩

/-- Loops that are alike. -/
inductive LoopStatement.Alike (paired : SpanId → SpanId → Prop) :
    LoopStatement → LoopStatement → Prop where
  | mk {condition otherCondition : Condition} {body otherBody : List Command}
      {untilHolds : Bool} :
      Condition.Alike paired condition otherCondition →
      List.Forall₂ (Command.Alike paired) body otherBody →
      LoopStatement.Alike paired ⟨condition, body, untilHolds⟩
        ⟨otherCondition, otherBody, untilHolds⟩

/-- Functions that are alike. -/
inductive Function.Alike (paired : SpanId → SpanId → Prop) : Function → Function → Prop where
  | mk {name : String} {params : List String} {body otherBody : List Command} {typed : Bool}
      {span otherSpan : SpanId} :
      List.Forall₂ (Command.Alike paired) body otherBody →
      paired span otherSpan →
      Function.Alike paired ⟨name, params, body, typed, span⟩
        ⟨name, params, otherBody, typed, otherSpan⟩

/-- Arguments of control keywords that are alike. -/
inductive ControlArgument.Alike (paired : SpanId → SpanId → Prop) :
    ControlArgument → ControlArgument → Prop where
  | status {word otherWord : Word} :
      Word.Alike paired word otherWord →
      ControlArgument.Alike paired (.status word) (.status otherWord)
  | value {expr otherExpr : Expr} :
      Expr.Alike paired expr otherExpr →
      ControlArgument.Alike paired (.value expr) (.value otherExpr)

/-- Conditions that are alike. -/
inductive Condition.Alike (paired : SpanId → SpanId → Prop) : Condition → Condition → Prop where
  | test {test otherTest : BoolExpr} :
      BoolExpr.Alike paired test otherTest →
      Condition.Alike paired (.test test) (.test otherTest)
  | run {command otherCommand : Command} :
      Command.Alike paired command otherCommand →
      Condition.Alike paired (.run command) (.run otherCommand)

/-- Words that are alike. -/
inductive Word.Alike (paired : SpanId → SpanId → Prop) : Word → Word → Prop where
  | literal (text : String) :
      Word.Alike paired (.literal text) (.literal text)
  | var (name : String) :
      Word.Alike paired (.var name) (.var name)
  | arith {expr otherExpr : ArithExpr} :
      ArithExpr.Alike paired expr otherExpr →
      Word.Alike paired (.arith expr) (.arith otherExpr)
  | commandSub {body otherBody : Command} :
      Command.Alike paired body otherBody →
      Word.Alike paired (.commandSub body) (.commandSub otherBody)
  | processSub {body otherBody : Command} {span otherSpan : SpanId} :
      Command.Alike paired body otherBody →
      paired span otherSpan →
      Word.Alike paired (.processSub body span) (.processSub otherBody otherSpan)
  | prompt (template : String) :
      Word.Alike paired (.prompt template) (.prompt template)
  | expr {expr otherExpr : Expr} :
      Expr.Alike paired expr otherExpr →
      Word.Alike paired (.expr expr) (.expr otherExpr)
  | concat {parts otherParts : List Word} :
      List.Forall₂ (Word.Alike paired) parts otherParts →
      Word.Alike paired (.concat parts) (.concat otherParts)

/-- Arithmetic expressions that are alike. -/
inductive ArithExpr.Alike (paired : SpanId → SpanId → Prop) : ArithExpr → ArithExpr → Prop where
  | number (value : Int64) :
      ArithExpr.Alike paired (.number value) (.number value)
  | word {word otherWord : Word} :
      Word.Alike paired word otherWord →
      ArithExpr.Alike paired (.word word) (.word otherWord)
  | negate {operand otherOperand : ArithExpr} :
      ArithExpr.Alike paired operand otherOperand →
      ArithExpr.Alike paired (.negate operand) (.negate otherOperand)
  | binary {op : ArithOp} {left otherLeft right otherRight : ArithExpr} :
      ArithExpr.Alike paired left otherLeft →
      ArithExpr.Alike paired right otherRight →
      ArithExpr.Alike paired (.binary op left right) (.binary op otherLeft otherRight)

/-- Tests that are alike. -/
inductive BoolExpr.Alike (paired : SpanId → SpanId → Prop) : BoolExpr → BoolExpr → Prop where
  | compare {op : Comparison} {left otherLeft right otherRight : Word} :
      Word.Alike paired left otherLeft →
      Word.Alike paired right otherRight →
      BoolExpr.Alike paired (.compare op left right) (.compare op otherLeft otherRight)
  | isEmpty {word otherWord : Word} :
      Word.Alike paired word otherWord →
      BoolExpr.Alike paired (.isEmpty word) (.isEmpty otherWord)
  | isNonempty {word otherWord : Word} :
      Word.Alike paired word otherWord →
      BoolExpr.Alike paired (.isNonempty word) (.isNonempty otherWord)
  | not {test otherTest : BoolExpr} :
      BoolExpr.Alike paired test otherTest →
      BoolExpr.Alike paired (.not test) (.not otherTest)
  | and {left otherLeft right otherRight : BoolExpr} :
      BoolExpr.Alike paired left otherLeft →
      BoolExpr.Alike paired right otherRight →
      BoolExpr.Alike paired (.and left right) (.and otherLeft otherRight)
  | or {left otherLeft right otherRight : BoolExpr} :
      BoolExpr.Alike paired left otherLeft →
      BoolExpr.Alike paired right otherRight →
      BoolExpr.Alike paired (.or left right) (.or otherLeft otherRight)

/-- Typed expressions that are alike. -/
inductive Expr.Alike (paired : SpanId → SpanId → Prop) : Expr → Expr → Prop where
  | literal (value : Value) :
      Expr.Alike paired (.literal value) (.literal value)
  | word {word otherWord : Word} :
      Word.Alike paired word otherWord →
      Expr.Alike paired (.word word) (.word otherWord)
  | arith {expr otherExpr : ArithExpr} :
      ArithExpr.Alike paired expr otherExpr →
      Expr.Alike paired (.arith expr) (.arith otherExpr)
  | list {items otherItems : List Expr} :
      List.Forall₂ (Expr.Alike paired) items otherItems →
      Expr.Alike paired (.list items) (.list otherItems)
  | commandSub {body otherBody : Command} :
      Command.Alike paired body otherBody →
      Expr.Alike paired (.commandSub body) (.commandSub otherBody)
  | call {name : String} {args otherArgs : List Expr} {span otherSpan : SpanId} :
      List.Forall₂ (Expr.Alike paired) args otherArgs →
      paired span otherSpan →
      Expr.Alike paired (.call name args span) (.call name otherArgs otherSpan)

/-- Redirections that are alike. -/
inductive Redirect.Alike (paired : SpanId → SpanId → Prop) : Redirect → Redirect → Prop where
  | mk {fd : Int32} {op : RedirectOp} {target otherTarget : Word} {span otherSpan : SpanId} :
      Word.Alike paired target otherTarget →
      paired span otherSpan →
      Redirect.Alike paired ⟨fd, op, target, span⟩ ⟨fd, op, otherTarget, otherSpan⟩

end

/-- Requests for what is alike; the rounds of a loop are left after the same status. -/
inductive Request.Alike : {α : Type} → Request α → Request α → Prop where
  | word {word other : Word} :
      word.Alike paired other →
      Request.Alike (.word word) (.word other)
  | arith {expr other : ArithExpr} :
      expr.Alike paired other →
      Request.Alike (.arith expr) (.arith other)
  | test {test other : BoolExpr} :
      test.Alike paired other →
      Request.Alike (.test test) (.test other)
  | expr {expr other : Expr} :
      expr.Alike paired other →
      Request.Alike (.expr expr) (.expr other)
  | command {command other : Command} :
      command.Alike paired other →
      Request.Alike (.command command) (.command other)
  | loop {statement other : LoopStatement} {status : Int32} :
      statement.Alike paired other →
      Request.Alike (.loop statement status) (.loop other status)

section Results

/-- Evaluated redirections that are alike. -/
structure Redirection.Alike
    (redirection other : Redirection) :
    Prop where
  same : other = { redirection with span := other.span }
  span : paired redirection.span other.span

/-- Signals of one kind that come from paired keywords. -/
inductive ControlSignal.Alike : ControlSignal → ControlSignal → Prop where
  | mk (kind : SignalKind) {token otherToken : SpanId} :
      paired token otherToken →
      ControlSignal.Alike ⟨kind, token⟩ ⟨kind, otherToken⟩

/-- The same status, or signals that are alike. -/
inductive ControlFlow.Alike : ControlFlow → ControlFlow → Prop where
  | normal (status : Int32) :
      ControlFlow.Alike (.normal status) (.normal status)
  | raise {signal other : ControlSignal} :
      signal.Alike paired other →
      ControlFlow.Alike (.raise signal) (.raise other)

/-- Errors of one kind and with one message, about paired tokens or about none. -/
inductive RuntimeError.Alike : RuntimeError → RuntimeError → Prop where
  | unmatchedControl {keyword : ControlKeyword} {token otherToken : SpanId} :
      paired token otherToken →
      RuntimeError.Alike (.unmatchedControl keyword token) (.unmatchedControl keyword otherToken)
  | numericArgRequired {keyword : ControlKeyword} {text : String} {token otherToken : SpanId} :
      paired token otherToken →
      RuntimeError.Alike (.numericArgRequired keyword text token)
        (.numericArgRequired keyword text otherToken)
  | badLoopLevel {keyword : ControlKeyword} {level : Int64} {token otherToken : SpanId} :
      paired token otherToken →
      RuntimeError.Alike (.badLoopLevel keyword level token)
        (.badLoopLevel keyword level otherToken)
  | typedReturnInProc {name : String} {token otherToken : SpanId} :
      paired token otherToken →
      RuntimeError.Alike (.typedReturnInProc name token) (.typedReturnInProc name otherToken)
  | undefinedFunction {name : String} {token otherToken : SpanId} :
      paired token otherToken →
      RuntimeError.Alike (.undefinedFunction name token) (.undefinedFunction name otherToken)
  | tokenless {error : RuntimeError} :
      error.token? = none →
      RuntimeError.Alike error error

/-- Answers that are related, or errors that are alike. -/
inductive ResultAlike
    (related : α → α → Prop) :
    Except RuntimeError α →
    Except RuntimeError α →
    Prop where
  | ok {answer other : α} :
      related answer other →
      ResultAlike related (.ok answer) (.ok other)
  | error {error other : RuntimeError} :
      error.Alike paired other →
      ResultAlike related (.error error) (.error other)

/-- Values, texts and truths are answered alike by being equal, flows by being alike. -/
def Request.Answered :
    {α : Type} →
    Request α →
    α →
    α →
    Prop
  | _, .word _ => Eq
  | _, .arith _ => Eq
  | _, .test _ => Eq
  | _, .expr _ => Eq
  | _, .command _ => ControlFlow.Alike paired
  | _, .loop _ _ => ControlFlow.Alike paired

end Results

section States

/-- Tables with the same keys in the same order, and related values. -/
def Table.Alike
    {κ ν : Type}
    (related : ν → ν → Prop)
    (table other : Table κ ν) :
    Prop :=
  List.Forall₂ (fun entry otherEntry => otherEntry.1 = entry.1 ∧ related entry.2 otherEntry.2)
    table.entries other.entries

/-- The same statuses, at paired locations. -/
structure StatusArray.Alike
    (statuses other : StatusArray) :
    Prop where
  codes : other.codes = statuses.codes
  locations : List.Forall₂ paired statuses.locations other.locations

/-- The scope with other functions and other statuses of process substitutions. -/
def Scope.withSpanned
    (scope : Scope)
    (functions : Table String Function)
    (statuses : StatusArray) :
    Scope :=
  { scope with
    functions := functions
    processSubStatus := statuses }

/-- Scopes with functions and statuses that are alike, and equal in all else. -/
inductive Scope.Alike : Scope → Scope → Prop where
  | mk (scope : Scope) {functions otherFunctions : Table String Function}
      {statuses otherStatuses : StatusArray} :
      functions.Alike (Function.Alike paired) otherFunctions →
      statuses.Alike paired otherStatuses →
      Scope.Alike (scope.withSpanned functions statuses)
        (scope.withSpanned otherFunctions otherStatuses)

/-- Frames of the same statuses from paired tokens. -/
abbrev FramesAlike :
    List (List (Int32 × SpanId)) →
    List (List (Int32 × SpanId)) →
    Prop :=
  List.Forall₂ (List.Forall₂ fun entry other =>
    other.1 = entry.1 ∧ paired entry.2 other.2)

/-- Hosts with frames that are alike, and equal in all else. -/
inductive Host.Alike : Host → Host → Prop where
  | inert :
      Host.Alike .inert .inert
  | memory (host : MemoryHost) {frames otherFrames : List (List (Int32 × SpanId))} :
      FramesAlike paired frames otherFrames →
      Host.Alike (.memory (host.withFrames frames)) (.memory (host.withFrames otherFrames))

/-- Machines with the same traces, and scopes and hosts that are alike, as are their peers. -/
structure Machine.Alike
    (machine other : Machine) :
    Prop where
  scope : machine.scope.Alike paired other.scope
  trace : other.trace = machine.trace
  host : machine.host.Alike paired other.host
  peerScope : machine.peer.scope.Alike paired other.peer.scope
  peerTrace : other.peer.trace = machine.peer.trace

end States

/-- The tokens of the errors of callables are paired with themselves. -/
def Setup.Respects
    (setup : Setup) :
    Prop :=
  ∀ name callable args error token,
    setup.callables.get? name = some callable →
    callable args = .error error →
    error.token? = some token →
    paired token token

/-- The callables of the set and of its peer pair their tokens with themselves. -/
structure Env.Respects
    (env : Env) :
    Prop where
  own : env.setup.Respects paired
  peer : ∀ setup, env.callback = .peer setup → setup.Respects paired

end ShellCore
