import ShellCore.Evaluation.Prompt
import ShellCore.Evaluation.Substitution

namespace ShellCore.Words

/-!
# Words

A word evaluates to one text; nothing splits it.
-/

/-- The text of a word. -/
def evaluate
    (below : Evaluator)
    (env : Env) :
    Word →
    Eval String
  | .literal text => pure text
  | .var name => do
      return (← Eval.scope).expand name
  | .arith expr => do
      Eval.require env .wordToArith
      let value ← below.arith env expr
      return toString value.toInt
  | .commandSub body => do
      Eval.require env .wordToHost
      let output ← Host.runCommandSub below env body
      return stripNewlines output
  | .processSub body span => do
      Eval.require env .wordToHost
      Host.runProcessSub below env body span
  | .prompt template => do
      Eval.require env .wordToPrompt
      Prompt.expand env template
  | .expr expr => do
      Eval.require env .wordToExpr
      let value ← below.expr env expr
      return value.display
  | .concat parts => do
      let texts ← Eval.each (below.word env) parts
      return String.join texts

end ShellCore.Words
