import ShellCore.Evaluation.Request

namespace ShellCore

/-!
# Requests that call nothing

A word, an expression or a test is call-free if no typed expression in it is a
call. The commands that are substituted in it are not looked into: they may call
whatever they like.
-/

mutual

/-- Whether no expression in a word is a call. -/
def Word.isCallFree :
    Word →
    Bool
  | .literal _ => true
  | .var _ => true
  | .arith expr => expr.isCallFree
  | .commandSub _ => true
  | .processSub _ _ => true
  | .prompt _ => true
  | .expr expr => expr.isCallFree
  | .concat parts => Word.allCallFree parts

/-- Whether all words of a list are call-free. -/
def Word.allCallFree :
    List Word →
    Bool
  | [] => true
  | word :: rest => word.isCallFree && Word.allCallFree rest

/-- Whether no expression in an arithmetic one is a call. -/
def ArithExpr.isCallFree :
    ArithExpr →
    Bool
  | .number _ => true
  | .word word => word.isCallFree
  | .negate inner => inner.isCallFree
  | .binary _ left right => left.isCallFree && right.isCallFree

/-- Whether an expression neither is nor holds a call. -/
def Expr.isCallFree :
    Expr →
    Bool
  | .literal _ => true
  | .word word => word.isCallFree
  | .arith expr => expr.isCallFree
  | .list items => Expr.allCallFree items
  | .commandSub _ => true
  | .call _ _ _ => false

/-- Whether all expressions of a list are call-free. -/
def Expr.allCallFree :
    List Expr →
    Bool
  | [] => true
  | expr :: rest => expr.isCallFree && Expr.allCallFree rest

end

/-- Whether no expression in a test is a call. -/
def BoolExpr.isCallFree :
    BoolExpr →
    Bool
  | .compare _ left right => left.isCallFree && right.isCallFree
  | .isEmpty word => word.isCallFree
  | .isNonempty word => word.isCallFree
  | .not inner => inner.isCallFree
  | .and left right => left.isCallFree && right.isCallFree
  | .or left right => left.isCallFree && right.isCallFree

/-- Whether a request is for something call-free that is no command. -/
def Request.isCallFree :
    Request α →
    Bool
  | .word wanted => wanted.isCallFree
  | .arith wanted => wanted.isCallFree
  | .test wanted => wanted.isCallFree
  | .expr wanted => wanted.isCallFree
  | .command _ => false
  | .loop _ _ => false

namespace Word

/-- Words are all call-free if each of them is. -/
theorem allCallFree_iff
    {words : List Word} :
    allCallFree words = true ↔ ∀ word ∈ words, word.isCallFree = true := by
  induction words with
  | nil => simp [allCallFree]
  | cons word rest inductionHypothesis => simp [allCallFree, inductionHypothesis]

end Word

namespace Expr

theorem allCallFree_iff
    {exprs : List Expr} :
    allCallFree exprs = true ↔ ∀ expr ∈ exprs, expr.isCallFree = true := by
  induction exprs with
  | nil => simp [allCallFree]
  | cons expr rest inductionHypothesis => simp [allCallFree, inductionHypothesis]

end Expr

end ShellCore
