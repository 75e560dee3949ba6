import ShellCore.Evaluation.Machine

namespace ShellCore

/-!
# Prompt templates

A template is text with escapes and names of variables. It is cut into pieces
first; the values put in the place of names are not scanned again.
-/

/-- A piece of a prompt template. -/
inductive PromptPiece where
  | text (text : List Char)
  | var (name : List Char)
  deriving Repr, DecidableEq

namespace Prompt

/-- The name of the shell. -/
def shellName : String :=
  "brash"

/-- The template of a primary prompt that was never set. -/
def defaultTemplate : String :=
  "\\s\\$ "

/-- The function that makes the primary prompt, if it is defined. -/
def renderHook : String :=
  "renderPrompt"

/-- Whether a character can stand in a name without braces. -/
def isNameChar
    (character : Char) :
    Bool :=
  character.isAlphanum || character = '_'

/-- The name behind a dollar sign, and the number of characters that write it. -/
def varName? :
    List Char →
    Option (List Char × Nat)
  | [] => none
  | character :: rest =>
      if character = '\x7b' then
        let name := rest.takeWhile (· ≠ '\x7d')
        some (name, name.length + 2)
      else if character = '?' ∨ character = '#' ∨ character = '@' then
        some ([character], 1)
      else if isNameChar character then
        let name := character :: rest.takeWhile isNameChar
        some (name, name.length)
      else
        none

/-- The piece that a backslash and the character behind it write. -/
def escapedPiece
    (character : Char) :
    PromptPiece :=
  if character = 'n' then .text ['\n']
  else if character = '\\' then .text ['\\']
  else if character = '$' then .text ['$']
  else if character = 's' then .text shellName.toList
  else if character = 'u' then .var "USER".toList
  else if character = 'h' then .var "HOSTNAME".toList
  else if character = 'w' then .var "PWD".toList
  else .text ['\\', character]

/-- What follows a name is shorter than what began with its dollar sign. -/
theorem length_drop_lt_length_cons
    (first : Char)
    (rest : List Char)
    (count : Nat) :
    (rest.drop count).length < (first :: rest).length := by
  rw [List.length_drop, List.length_cons]
  exact Nat.lt_succ_of_le (Nat.sub_le rest.length count)

/-- Cut a template into pieces. -/
def pieces :
    List Char →
    List PromptPiece
  | [] => []
  | first :: rest =>
      if first = '\\' then
        match rest with
        | [] => [.text ['\\']]
        | escaped :: following => escapedPiece escaped :: pieces following
      else if first = '$' then
        match varName? rest with
        | some (name, length) => .var name :: pieces (rest.drop length)
        | none => .text ['$'] :: pieces rest
      else
        .text [first] :: pieces rest
termination_by template => template.length
decreasing_by
  · exact Nat.lt_succ_of_lt (Nat.lt_succ_self following.length)
  · exact length_drop_lt_length_cons first rest length
  · exact Nat.lt_succ_self rest.length
  · exact Nat.lt_succ_self rest.length

/-- The text of a piece; a name needs the word evaluator. -/
def expandPiece
    (env : Env) :
    PromptPiece →
    Eval String
  | .text text => pure (String.ofList text)
  | .var name => do
      Eval.require env .promptToWord
      return (← Eval.scope).expand (String.ofList name)

/-- Expand a template. -/
def expand
    (env : Env)
    (template : String) :
    Eval String := do
  let texts ← Eval.each (expandPiece env) (pieces template.toList)
  return String.join texts

end Prompt

end ShellCore
