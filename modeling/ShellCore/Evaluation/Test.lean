import ShellCore.Evaluation.Request
import ShellCore.Text.Blank

namespace ShellCore.Test

/-!
# Tests

Texts are compared as they are, integers by what their texts write. The right
operand of a conjunction or disjunction is evaluated only if it decides.
-/

/-- The integer that an operand writes between blanks. -/
def integer
    (text : String) :
    Except TypeError Int64 :=
  match Text.readInt64? (Text.trim text) with
  | some value => .ok value
  | none => .error (.notInteger text)

/-- Compare the integers that two texts write. -/
def compareIntegers
    (holds : Int64 → Int64 → Bool)
    (left right : String) :
    Except TypeError Bool := do
  let left ← integer left
  let right ← integer right
  .ok (holds left right)

/-- Compare two texts. -/
def compare
    (op : Comparison)
    (left right : String) :
    Except TypeError Bool :=
  match op with
  | .textEqual => .ok (left == right)
  | .textDiffers => .ok (left != right)
  | .intEqual => compareIntegers (fun left right => left == right) left right
  | .intDiffers => compareIntegers (fun left right => left != right) left right
  | .intLess => compareIntegers (fun left right => decide (left < right)) left right
  | .intAtMost => compareIntegers (fun left right => decide (left ≤ right)) left right
  | .intGreater => compareIntegers (fun left right => decide (right < left)) left right
  | .intAtLeast => compareIntegers (fun left right => decide (right ≤ left)) left right

/-- Whether a test holds. -/
def evaluate
    (below : Evaluator)
    (env : Env) :
    BoolExpr →
    Eval Bool
  | .compare op left right => do
      Eval.require env .testToWord
      let left ← below.word env left
      let right ← below.word env right
      Eval.ofExcept .type (compare op left right)
  | .isEmpty word => do
      Eval.require env .testToWord
      let text ← below.word env word
      return text.isEmpty
  | .isNonempty word => do
      Eval.require env .testToWord
      let text ← below.word env word
      return !text.isEmpty
  | .not inner => do
      let holds ← evaluate below env inner
      return !holds
  | .and left right => do
      if ← evaluate below env left then
        evaluate below env right
      else
        return false
  | .or left right => do
      if ← evaluate below env left then
        return true
      else
        evaluate below env right

end ShellCore.Test
