import ShellCore.Proofs.Scope.CallFree
import ShellCore.Proofs.Scope.Isolation

namespace ShellCore

/-!
# Evaluating values

Words, expressions and tests are evaluated without a change to the scope, except by
the calls in them. So a relation that holds where the scope is what it was holds
around their evaluation if calls keep it, or if there are none.
-/

/-- Whether a request is for a value, not for a command. -/
def Request.isForValue :
    Request α →
    Bool
  | .word _ => true
  | .arith _ => true
  | .test _ => true
  | .expr _ => true
  | .command _ => false
  | .loop _ _ => false

theorem Request.isForValue_of_isCallFree
    {request : Request α}
    (callFree : request.isCallFree = true) :
    request.isForValue = true := by
  cases request <;> simp_all [isCallFree, isForValue]

open Machine

/--
Values that an evaluator answers keep a relation if they are call-free, or if calls
are admitted.
-/
def ValuesKeep
    (relation : Machine → Machine → Prop)
    (calls : Prop)
    (below : Evaluator) :
    Prop :=
  ∀ {α : Type} (env : Env) (request : Request α),
    request.isForValue = true →
    request.isCallFree = true ∨ calls →
    Eval.Keeps relation (below α env request)

namespace ValuesKeep

variable {relation : Machine → Machine → Prop}
variable {calls : Prop}
variable {below : Evaluator}
variable (values : ValuesKeep relation calls below)
variable (isolates : below.Isolates)
variable (composable : Composable relation)
variable (inert : ∀ {before after : Machine}, before.SameScope after → relation before after)
variable (env : Env)

section Substitutions

include isolates inert

theorem runCommandSub
    (body : Command) :
    Eval.Keeps relation (Host.runCommandSub below env body) := by
  intro before after result finished
  have confined := (isolates body).captured
  exact inert (confined.recorded env .commandSub _ (fun _ => SameScope.composable.pure _) finished)

theorem runProcessSub
    (body : Command)
    (span : SpanId) :
    Eval.Keeps relation (Host.runProcessSub below env body span) := by
  intro before after result finished
  have confined := (isolates body).captured
  exact inert (confined.recorded env .processSub _
    (fun _ => .onHost (SameScope.hostFree.onHost _ _)) finished)

end Substitutions

include values composable

theorem words
    {words : List Word}
    (free : Word.allCallFree words = true ∨ calls) :
    Eval.Keeps relation (Eval.each (Evaluator.word below env) words) :=
  composable.each fun word isMember =>
    values env (.word word) rfl (free.imp_left fun all => Word.allCallFree_iff.mp all word isMember)

theorem exprs
    {exprs : List Expr}
    (free : Expr.allCallFree exprs = true ∨ calls) :
    Eval.Keeps relation (Eval.each (Evaluator.expr below env) exprs) :=
  composable.each fun expr isMember =>
    values env (.expr expr) rfl (free.imp_left fun all => Expr.allCallFree_iff.mp all expr isMember)

theorem arithmetic
    {expr : ArithExpr}
    (free : expr.isCallFree = true ∨ calls) :
    Eval.Keeps relation (Arithmetic.evaluate below env expr) := by
  match expr with
  | .number value => exact composable.pure value
  | .word word =>
      exact composable.bind (composable.require env _) fun _ =>
        composable.bind (values env (.word word) rfl free) fun _ =>
          composable.bind composable.scope fun _ => composable.ofExcept _ _
  | .negate inner =>
      exact composable.bind (arithmetic free) fun _ => composable.pure _
  | .binary _ left right =>
      have leftFree := free.imp_left fun both => (Bool.and_eq_true_iff.mp both).1
      have rightFree := free.imp_left fun both => (Bool.and_eq_true_iff.mp both).2
      exact composable.bind (arithmetic leftFree) fun _ =>
        composable.bind (arithmetic rightFree) fun _ => composable.ofExcept _ _

theorem test
    {test : BoolExpr}
    (free : test.isCallFree = true ∨ calls) :
    Eval.Keeps relation (Test.evaluate below env test) := by
  match test with
  | .compare op left right =>
      have leftFree := free.imp_left fun both => (Bool.and_eq_true_iff.mp both).1
      have rightFree := free.imp_left fun both => (Bool.and_eq_true_iff.mp both).2
      exact composable.bind (composable.require env _) fun _ =>
        composable.bind (values env (.word left) rfl leftFree) fun _ =>
          composable.bind (values env (.word right) rfl rightFree) fun _ =>
            composable.ofExcept _ _
  | .isEmpty word | .isNonempty word =>
      exact composable.bind (composable.require env _) fun _ =>
        composable.bind (values env (.word word) rfl free) fun _ => composable.pure _
  | .not inner =>
      exact composable.bind (ValuesKeep.test free) fun _ => composable.pure _
  | .and left right =>
      have leftFree := free.imp_left fun both => (Bool.and_eq_true_iff.mp both).1
      have rightFree := free.imp_left fun both => (Bool.and_eq_true_iff.mp both).2
      exact composable.bind (ValuesKeep.test leftFree) fun _ =>
        .ite (ValuesKeep.test rightFree) (composable.pure _)
  | .or left right =>
      have leftFree := free.imp_left fun both => (Bool.and_eq_true_iff.mp both).1
      have rightFree := free.imp_left fun both => (Bool.and_eq_true_iff.mp both).2
      exact composable.bind (ValuesKeep.test leftFree) fun _ =>
        .ite (composable.pure _) (ValuesKeep.test rightFree)

include isolates inert

theorem word
    {word : Word}
    (free : word.isCallFree = true ∨ calls) :
    Eval.Keeps relation (Words.evaluate below env word) := by
  cases word with
  | literal text => exact composable.pure text
  | var name => exact composable.bind composable.scope fun _ => composable.pure _
  | arith expr =>
      exact composable.bind (composable.require env _) fun _ =>
        composable.bind (values env (.arith expr) rfl free) fun _ => composable.pure _
  | commandSub body =>
      exact composable.bind (composable.require env _) fun _ =>
        composable.bind (runCommandSub isolates inert env body) fun _ => composable.pure _
  | processSub body span =>
      exact composable.bind (composable.require env _) fun _ =>
        runProcessSub isolates inert env body span
  | prompt template =>
      exact composable.bind (composable.require env _) fun _ =>
        composable.expandPrompt env template
  | expr expr =>
      exact composable.bind (composable.require env _) fun _ =>
        composable.bind (values env (.expr expr) rfl free) fun _ => composable.pure _
  | concat parts =>
      exact composable.bind (values.words composable env free) fun _ => composable.pure _

variable (called : calls → ∀ env name args span,
  Eval.Keeps relation (Expression.callNamed below env name args span))

include called

theorem expression
    {expr : Expr}
    (free : expr.isCallFree = true ∨ calls) :
    Eval.Keeps relation (Expression.evaluate below env expr) := by
  cases expr with
  | literal value => exact composable.pure value
  | word word =>
      exact composable.bind (composable.require env _) fun _ =>
        composable.bind (values env (.word word) rfl free) fun _ => composable.pure _
  | arith expr =>
      exact composable.bind (composable.require env _) fun _ =>
        composable.bind (values env (.arith expr) rfl free) fun _ => composable.pure _
  | list items =>
      exact composable.bind (values.exprs composable env free) fun _ => composable.pure _
  | commandSub body =>
      exact composable.bind (composable.require env _) fun _ =>
        composable.bind (runCommandSub isolates inert env body) fun _ => composable.pure _
  | call name args span =>
      rcases free with callFree | admitted
      · cases callFree
      · exact composable.bind (values.exprs composable env (.inr admitted)) fun values =>
          called admitted env name values span

/-- One more step evaluates values in the same way. -/
theorem succ :
    ValuesKeep relation calls (answer below) := by
  intro α env request isValue free
  cases request with
  | word word => exact values.word isolates composable inert env free
  | arith expr => exact values.arithmetic composable env free
  | test test => exact values.test composable env free
  | expr expr => exact values.expression isolates composable inert env called free
  | command command => cases isValue
  | loop statement status => cases isValue

end ValuesKeep

end ShellCore
