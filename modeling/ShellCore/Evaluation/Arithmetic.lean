import ShellCore.Evaluation.Request
import ShellCore.Text.Blank

namespace ShellCore.Arithmetic

/-!
# Arithmetic

Integers are signed words of 64 bits and wrap around. An operand is a numeral or
the name of a variable whose value writes one; what is empty or unset is zero.
-/

/-- Whether a text is a name: a letter or underscore, then letters, digits and underscores. -/
def isName :
    List Char →
    Bool
  | [] => false
  | first :: rest =>
      (first.isAlpha || first = '_') && rest.all fun character =>
        character.isAlphanum || character = '_'

/-- The integer of a variable's value. -/
def valueOperand
    (name : String) :
    Option Value →
    Except ArithError Int64
  | none => .ok 0
  | some .null => .ok 0
  | some (.int value) => .ok value
  | some (.bool value) => .ok (if value then 1 else 0)
  | some value =>
      let text := Text.trim value.display
      if text.isEmpty then
        .ok 0
      else
        match Text.readInt64? text with
        | some number => .ok number
        | none => .error (.invalidVariable name text)

/-- The integer of an operand's text. -/
def operand
    (scope : Scope)
    (text : String) :
    Except ArithError Int64 :=
  let trimmed := Text.trim text
  if trimmed.isEmpty then
    .ok 0
  else
    match Text.readInt64? trimmed with
    | some number => .ok number
    | none =>
        if isName trimmed.toList then
          valueOperand trimmed (scope.lookup? trimmed)
        else
          .error (.invalidOperand trimmed)

/-- The result of an operator; quotients are cut off towards zero. -/
def apply
    (op : ArithOp)
    (left right : Int64) :
    Except ArithError Int64 :=
  match op with
  | .add => .ok (left + right)
  | .sub => .ok (left - right)
  | .mul => .ok (left * right)
  | .div => if right = 0 then .error (.divisionByZero left .div) else .ok (left / right)
  | .rem => if right = 0 then .error (.divisionByZero left .rem) else .ok (left % right)

/-- The value of an expression. -/
def evaluate
    (below : Evaluator)
    (env : Env) :
    ArithExpr →
    Eval Int64
  | .number value => pure value
  | .word word => do
      Eval.require env .arithToWord
      let text ← below.word env word
      Eval.ofExcept .arithmetic (operand (← Eval.scope) text)
  | .negate inner => do
      let value ← evaluate below env inner
      return -value
  | .binary op left right => do
      let left ← evaluate below env left
      let right ← evaluate below env right
      Eval.ofExcept .arithmetic (apply op left right)

end ShellCore.Arithmetic
