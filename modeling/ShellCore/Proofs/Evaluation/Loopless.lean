import ShellCore.Evaluation.Request

namespace ShellCore

/-!
# Requests without loops

A request is loopless if nothing in it, however deep, is a loop with a condition or the
definition of a function: no command, and no word, test or expression that substitutes
a command. A loop over items is none of these. What is asked for while a loopless request
is answered is a part of it, so it is loopless as well, and smaller.
-/

mutual

/-- Whether a command neither is nor holds a loop or a definition. -/
def Command.isLoopless :
    Command →
    Bool
  | .simple words _ => Word.allLoopless words
  | .assign _ value _ => value.isLoopless
  | .sequence commands => Command.allLoopless commands
  | .andThen left right => left.isLoopless && right.isLoopless
  | .orElse left right => left.isLoopless && right.isLoopless
  | .pipeline stages _ => Command.allLoopless stages
  | .subshell body => body.isLoopless
  | .background body => body.isLoopless
  | .branch arms otherwise => BranchArm.allLoopless arms && Command.otherwiseLoopless otherwise
  | .forEach _ items body => Word.allLoopless items && Command.allLoopless body
  | .loop _ => false
  | .define _ => false
  | .control _ argument _ => ControlArgument.anyLoopless argument
  | .redirected body redirects => body.isLoopless && Redirect.allLoopless redirects

/-- Whether all commands of a list are loopless. -/
def Command.allLoopless :
    List Command →
    Bool
  | [] => true
  | command :: rest => command.isLoopless && Command.allLoopless rest

/-- Whether what runs where no condition holds is loopless. -/
def Command.otherwiseLoopless :
    Option (List Command) →
    Bool
  | none => true
  | some body => Command.allLoopless body

/-- Whether the conditions and the bodies of arms are loopless. -/
def BranchArm.allLoopless :
    List BranchArm →
    Bool
  | [] => true
  | ⟨condition, body⟩ :: rest =>
      condition.isLoopless && Command.allLoopless body && BranchArm.allLoopless rest

/-- Whether a condition is loopless. -/
def Condition.isLoopless :
    Condition →
    Bool
  | .test test => test.isLoopless
  | .run command => command.isLoopless

/-- Whether the argument of a control keyword, if there is one, is loopless. -/
def ControlArgument.anyLoopless :
    Option ControlArgument →
    Bool
  | none => true
  | some (.status word) => word.isLoopless
  | some (.value expr) => expr.isLoopless

/-- Whether the targets of redirections are loopless. -/
def Redirect.allLoopless :
    List Redirect →
    Bool
  | [] => true
  | ⟨_, _, target, _⟩ :: rest => target.isLoopless && Redirect.allLoopless rest

/-- Whether no command that is substituted in a word is a loop or a definition, or holds one. -/
def Word.isLoopless :
    Word →
    Bool
  | .literal _ => true
  | .var _ => true
  | .arith expr => expr.isLoopless
  | .commandSub body => body.isLoopless
  | .processSub body _ => body.isLoopless
  | .prompt _ => true
  | .expr expr => expr.isLoopless
  | .concat parts => Word.allLoopless parts

/-- Whether all words of a list are loopless. -/
def Word.allLoopless :
    List Word →
    Bool
  | [] => true
  | word :: rest => word.isLoopless && Word.allLoopless rest

/-- Whether the operands of an arithmetic expression are loopless. -/
def ArithExpr.isLoopless :
    ArithExpr →
    Bool
  | .number _ => true
  | .word word => word.isLoopless
  | .negate operand => operand.isLoopless
  | .binary _ left right => left.isLoopless && right.isLoopless

/-- Whether the words of a test are loopless. -/
def BoolExpr.isLoopless :
    BoolExpr →
    Bool
  | .compare _ left right => left.isLoopless && right.isLoopless
  | .isEmpty word => word.isLoopless
  | .isNonempty word => word.isLoopless
  | .not test => test.isLoopless
  | .and left right => left.isLoopless && right.isLoopless
  | .or left right => left.isLoopless && right.isLoopless

/-- Whether an expression is loopless. -/
def Expr.isLoopless :
    Expr →
    Bool
  | .literal _ => true
  | .word word => word.isLoopless
  | .arith expr => expr.isLoopless
  | .list items => Expr.allLoopless items
  | .commandSub body => body.isLoopless
  | .call _ args _ => Expr.allLoopless args

/-- Whether all expressions of a list are loopless. -/
def Expr.allLoopless :
    List Expr →
    Bool
  | [] => true
  | expr :: rest => expr.isLoopless && Expr.allLoopless rest

end

section Lists

theorem Command.allLoopless_iff
    {commands : List Command} :
    Command.allLoopless commands = true ↔ ∀ command ∈ commands, command.isLoopless = true := by
  induction commands with
  | nil => simp [Command.allLoopless]
  | cons command rest inductionHypothesis => simp [Command.allLoopless, inductionHypothesis]

theorem BranchArm.allLoopless_iff
    {arms : List BranchArm} :
    BranchArm.allLoopless arms = true ↔
      ∀ arm ∈ arms,
        arm.condition.isLoopless = true ∧ Command.allLoopless arm.body = true := by
  induction arms with
  | nil => simp [BranchArm.allLoopless]
  | cons arm rest inductionHypothesis =>
      obtain ⟨condition, body⟩ := arm
      simp [BranchArm.allLoopless, inductionHypothesis]

theorem Redirect.allLoopless_iff
    {redirects : List Redirect} :
    Redirect.allLoopless redirects = true ↔
      ∀ redirect ∈ redirects, redirect.target.isLoopless = true := by
  induction redirects with
  | nil => simp [Redirect.allLoopless]
  | cons redirect rest inductionHypothesis =>
      obtain ⟨fd, op, target, span⟩ := redirect
      simp [Redirect.allLoopless, inductionHypothesis]

theorem Word.allLoopless_iff
    {words : List Word} :
    Word.allLoopless words = true ↔ ∀ word ∈ words, word.isLoopless = true := by
  induction words with
  | nil => simp [Word.allLoopless]
  | cons word rest inductionHypothesis => simp [Word.allLoopless, inductionHypothesis]

theorem Expr.allLoopless_iff
    {exprs : List Expr} :
    Expr.allLoopless exprs = true ↔ ∀ expr ∈ exprs, expr.isLoopless = true := by
  induction exprs with
  | nil => simp [Expr.allLoopless]
  | cons expr rest inductionHypothesis => simp [Expr.allLoopless, inductionHypothesis]

end Lists

namespace Request

/-- Whether a request is loopless. -/
def isLoopless :
    Request α →
    Bool
  | .word wanted => wanted.isLoopless
  | .arith wanted => wanted.isLoopless
  | .test wanted => wanted.isLoopless
  | .expr wanted => wanted.isLoopless
  | .command wanted => wanted.isLoopless
  | .loop _ _ => false

/-- What evaluates a condition: a test, or a command. -/
inductive OfCondition : {α : Type} → Request α → Condition → Prop where
  | test {test : BoolExpr} :
      OfCondition (.test test) (.test test)
  | run {command : Command} :
      OfCondition (.command command) (.run command)

/--
The requests that are made while another one is answered, other than by a loop or by a
call of a function.
-/
inductive Part : {α β : Type} → Request α → Request β → Prop where
  | wordArith {expr : ArithExpr} :
      Part (.arith expr) (.word (.arith expr))
  | wordCommandSub {body : Command} :
      Part (.command body) (.word (.commandSub body))
  | wordProcessSub {body : Command} {span : SpanId} :
      Part (.command body) (.word (.processSub body span))
  | wordExpr {expr : Expr} :
      Part (.expr expr) (.word (.expr expr))
  | wordConcat {part : Word} {parts : List Word} :
      part ∈ parts →
      Part (.word part) (.word (.concat parts))
  | arithWord {word : Word} :
      Part (.word word) (.arith (.word word))
  | arithNegate {α : Type} {part : Request α} {operand : ArithExpr} :
      Part part (.arith operand) →
      Part part (.arith (.negate operand))
  | arithLeft {α : Type} {part : Request α} {op : ArithOp} {left right : ArithExpr} :
      Part part (.arith left) →
      Part part (.arith (.binary op left right))
  | arithRight {α : Type} {part : Request α} {op : ArithOp} {left right : ArithExpr} :
      Part part (.arith right) →
      Part part (.arith (.binary op left right))
  | compareLeft {op : Comparison} {left right : Word} :
      Part (.word left) (.test (.compare op left right))
  | compareRight {op : Comparison} {left right : Word} :
      Part (.word right) (.test (.compare op left right))
  | testIsEmpty {word : Word} :
      Part (.word word) (.test (.isEmpty word))
  | testIsNonempty {word : Word} :
      Part (.word word) (.test (.isNonempty word))
  | testNot {α : Type} {part : Request α} {test : BoolExpr} :
      Part part (.test test) →
      Part part (.test (.not test))
  | andLeft {α : Type} {part : Request α} {left right : BoolExpr} :
      Part part (.test left) →
      Part part (.test (.and left right))
  | andRight {α : Type} {part : Request α} {left right : BoolExpr} :
      Part part (.test right) →
      Part part (.test (.and left right))
  | orLeft {α : Type} {part : Request α} {left right : BoolExpr} :
      Part part (.test left) →
      Part part (.test (.or left right))
  | orRight {α : Type} {part : Request α} {left right : BoolExpr} :
      Part part (.test right) →
      Part part (.test (.or left right))
  | exprWord {word : Word} :
      Part (.word word) (.expr (.word word))
  | exprArith {expr : ArithExpr} :
      Part (.arith expr) (.expr (.arith expr))
  | exprList {item : Expr} {items : List Expr} :
      item ∈ items →
      Part (.expr item) (.expr (.list items))
  | exprCommandSub {body : Command} :
      Part (.command body) (.expr (.commandSub body))
  | argument {name : String} {arg : Expr} {args : List Expr} {span : SpanId} :
      arg ∈ args →
      Part (.expr arg) (.expr (.call name args span))
  | simpleWord {word : Word} {words : List Word} {span : SpanId} :
      word ∈ words →
      Part (.word word) (.command (.simple words span))
  | assigned {name : String} {value : Word} {isLocal : Bool} :
      Part (.word value) (.command (.assign name value isLocal))
  | member {command : Command} {commands : List Command} :
      command ∈ commands →
      Part (.command command) (.command (.sequence commands))
  | andThenLeft {left right : Command} :
      Part (.command left) (.command (.andThen left right))
  | andThenRight {left right : Command} :
      Part (.command right) (.command (.andThen left right))
  | orElseLeft {left right : Command} :
      Part (.command left) (.command (.orElse left right))
  | orElseRight {left right : Command} :
      Part (.command right) (.command (.orElse left right))
  | stage {command : Command} {stages : List Command} {negated : Bool} :
      command ∈ stages →
      Part (.command command) (.command (.pipeline stages negated))
  | subshell {body : Command} :
      Part (.command body) (.command (.subshell body))
  | background {body : Command} :
      Part (.command body) (.command (.background body))
  | condition {α : Type} {part : Request α} {arm : BranchArm} {arms : List BranchArm}
      {otherwise : Option (List Command)} :
      arm ∈ arms →
      OfCondition part arm.condition →
      Part part (.command (.branch arms otherwise))
  | arm {command : Command} {arm : BranchArm} {arms : List BranchArm}
      {otherwise : Option (List Command)} :
      arm ∈ arms →
      command ∈ arm.body →
      Part (.command command) (.command (.branch arms otherwise))
  | otherwise {command : Command} {arms : List BranchArm} {body : List Command} :
      command ∈ body →
      Part (.command command) (.command (.branch arms (some body)))
  | item {name : String} {item : Word} {items : List Word} {body : List Command} :
      item ∈ items →
      Part (.word item) (.command (.forEach name items body))
  | round {name : String} {items : List Word} {command : Command} {body : List Command} :
      command ∈ body →
      Part (.command command) (.command (.forEach name items body))
  | status {keyword : ControlKeyword} {word : Word} {token : SpanId} :
      Part (.word word) (.command (.control keyword (some (.status word)) token))
  | value {keyword : ControlKeyword} {expr : Expr} {token : SpanId} :
      Part (.expr expr) (.command (.control keyword (some (.value expr)) token))
  | redirected {body : Command} {redirects : List Redirect} :
      Part (.command body) (.command (.redirected body redirects))
  | target {body : Command} {redirect : Redirect} {redirects : List Redirect} :
      redirect ∈ redirects →
      Part (.word redirect.target) (.command (.redirected body redirects))

/-- What evaluates a loopless condition is loopless. -/
theorem OfCondition.isLoopless
    {part : Request α}
    {condition : Condition}
    (evaluates : OfCondition part condition)
    (loopless : condition.isLoopless = true) :
    part.isLoopless = true := by
  cases evaluates with
  | test | run => exact loopless

theorem OfCondition.sizeOf_le
    {part : Request α}
    {condition : Condition}
    (evaluates : OfCondition part condition) :
    sizeOf part ≤ sizeOf condition := by
  cases evaluates with
  | test | run => simp

namespace Part

/-- The parts of what is loopless are loopless. -/
theorem isLoopless
    {part : Request α}
    {whole : Request β}
    (isPart : Part part whole)
    (loopless : whole.isLoopless = true) :
    part.isLoopless = true := by
  induction isPart with
  | wordArith | wordCommandSub | wordProcessSub | wordExpr => exact loopless
  | wordConcat isMember => exact Word.allLoopless_iff.mp loopless _ isMember
  | arithWord => exact loopless
  | arithNegate _ inductionHypothesis => exact inductionHypothesis loopless
  | arithLeft _ inductionHypothesis =>
      exact inductionHypothesis (Bool.and_eq_true_iff.mp loopless).1
  | arithRight _ inductionHypothesis =>
      exact inductionHypothesis (Bool.and_eq_true_iff.mp loopless).2
  | compareLeft => exact (Bool.and_eq_true_iff.mp loopless).1
  | compareRight => exact (Bool.and_eq_true_iff.mp loopless).2
  | testIsEmpty | testIsNonempty => exact loopless
  | testNot _ inductionHypothesis => exact inductionHypothesis loopless
  | andLeft _ inductionHypothesis | orLeft _ inductionHypothesis =>
      exact inductionHypothesis (Bool.and_eq_true_iff.mp loopless).1
  | andRight _ inductionHypothesis | orRight _ inductionHypothesis =>
      exact inductionHypothesis (Bool.and_eq_true_iff.mp loopless).2
  | exprWord | exprArith | exprCommandSub => exact loopless
  | exprList isMember | argument isMember =>
      exact Expr.allLoopless_iff.mp loopless _ isMember
  | simpleWord isMember => exact Word.allLoopless_iff.mp loopless _ isMember
  | assigned => exact loopless
  | member isMember | stage isMember => exact Command.allLoopless_iff.mp loopless _ isMember
  | andThenLeft | orElseLeft => exact (Bool.and_eq_true_iff.mp loopless).1
  | andThenRight | orElseRight => exact (Bool.and_eq_true_iff.mp loopless).2
  | subshell | background => exact loopless
  | condition isMember evaluates =>
      have both :=
        BranchArm.allLoopless_iff.mp (Bool.and_eq_true_iff.mp loopless).1 _ isMember
      exact evaluates.isLoopless both.1
  | arm isMember inBody =>
      have both :=
        BranchArm.allLoopless_iff.mp (Bool.and_eq_true_iff.mp loopless).1 _ isMember
      exact Command.allLoopless_iff.mp both.2 _ inBody
  | otherwise isMember =>
      exact Command.allLoopless_iff.mp (Bool.and_eq_true_iff.mp loopless).2 _ isMember
  | item isMember =>
      exact Word.allLoopless_iff.mp (Bool.and_eq_true_iff.mp loopless).1 _ isMember
  | round isMember =>
      exact Command.allLoopless_iff.mp (Bool.and_eq_true_iff.mp loopless).2 _ isMember
  | status | value => exact loopless
  | redirected => exact (Bool.and_eq_true_iff.mp loopless).1
  | target isMember =>
      exact Redirect.allLoopless_iff.mp (Bool.and_eq_true_iff.mp loopless).2 _ isMember

/-- A part is smaller than the whole. -/
theorem sizeOf_lt
    {part : Request α}
    {whole : Request β}
    (isPart : Part part whole) :
    sizeOf part < sizeOf whole := by
  induction isPart with
  | wordConcat isMember | exprList isMember | argument isMember | simpleWord isMember
  | member isMember | stage isMember | item isMember | round isMember | otherwise isMember =>
      have smaller := List.sizeOf_lt_of_mem isMember
      simp
      omega
  | @condition _ _ arm _ _ isMember evaluates =>
      have smaller := List.sizeOf_lt_of_mem isMember
      have inArm := evaluates.sizeOf_le
      obtain ⟨condition, body⟩ := arm
      simp at smaller inArm ⊢
      omega
  | @arm _ arm _ _ isMember inBody =>
      have smaller := List.sizeOf_lt_of_mem isMember
      have inArm := List.sizeOf_lt_of_mem inBody
      obtain ⟨condition, body⟩ := arm
      simp at smaller inArm ⊢
      omega
  | @target _ redirect _ isMember =>
      have smaller := List.sizeOf_lt_of_mem isMember
      obtain ⟨fd, op, target, span⟩ := redirect
      simp at smaller ⊢
      omega
  | arithNegate _ inductionHypothesis | arithLeft _ inductionHypothesis
  | arithRight _ inductionHypothesis | testNot _ inductionHypothesis
  | andLeft _ inductionHypothesis | andRight _ inductionHypothesis
  | orLeft _ inductionHypothesis | orRight _ inductionHypothesis =>
      simp at inductionHypothesis ⊢
      omega
  | _ => simp <;> omega

end Part

end Request

end ShellCore
