import ShellCore.Lexing.Line

namespace ShellCore

/-!
# Physical lines

A source is cut behind its newlines: a line has none but at its end, where only
the last line may lack it.
-/

/-- A newline can only be the last character. -/
def OneLine
    (characters : List Char) :
    Prop :=
  ∀ before after, characters = before ++ '\n' :: after → after = []

namespace OneLine

theorem nil : OneLine [] := by
  intro before after same
  cases before <;> cases same

theorem cons
    {first : Char}
    {rest : List Char}
    (inside : first ≠ '\n')
    (oneLine : OneLine rest) :
    OneLine (first :: rest) := by
  intro before after same
  cases before with
  | nil =>
      cases same
      exact absurd rfl inside
  | cons second before =>
      cases same
      exact oneLine before after rfl

theorem newline : OneLine ['\n'] := by
  intro before after same
  cases before with
  | nil =>
      cases same
      rfl
  | cons first before =>
      cases before <;> cases same

theorem of_append
    {left right : List Char}
    (oneLine : OneLine (left ++ right)) :
    OneLine right := by
  intro before after same
  refine oneLine (left ++ before) after ?_
  rw [same, List.append_assoc]

theorem of_cons
    {first : Char}
    {rest : List Char}
    (oneLine : OneLine (first :: rest)) :
    OneLine rest :=
  @of_append [first] rest oneLine

theorem drop
    {characters : List Char}
    (oneLine : OneLine characters)
    (count : Nat) :
    OneLine (characters.drop count) := by
  rw [← List.take_append_drop count characters] at oneLine
  exact oneLine.of_append

end OneLine

/-- Lines that follow each other in a source: all but the last end with a newline. -/
inductive Physical : List (List Char) → Prop where
  | nil : Physical []
  | last {line} : OneLine line → Physical [line]
  | cons {body lines} :
      OneLine (body ++ ['\n']) → Physical lines → Physical ((body ++ ['\n']) :: lines)

namespace Physical

theorem take
    {lines : List (List Char)}
    (physical : Physical lines)
    (count : Nat) :
    Physical (lines.take count) := by
  induction physical generalizing count with
  | nil =>
      rw [List.take_nil]
      exact .nil
  | last oneLine =>
      cases count with
      | zero => exact .nil
      | succ count =>
          rw [List.take_succ_cons, List.take_nil]
          exact .last oneLine
  | cons oneLine physical inductionHypothesis =>
      cases count with
      | zero => exact .nil
      | succ count => exact .cons oneLine (inductionHypothesis count)

end Physical

namespace LineLexer

theorem physical_physicalLines
    (text : List Char) :
    Physical (physicalLines text) := by
  induction text using physicalLines.induct with
  | case1 => exact .nil
  | case2 rest inductionHypothesis =>
      exact @Physical.cons [] _ .newline inductionHypothesis
  | case3 first rest inside empty inductionHypothesis =>
      rw [physicalLines, if_neg inside, empty]
      exact .last (.cons inside .nil)
  | case4 first rest inside line lines found inductionHypothesis =>
      rw [physicalLines, if_neg inside, found]
      rw [found] at inductionHypothesis
      cases inductionHypothesis with
      | last oneLine => exact .last (.cons inside oneLine)
      | @cons body lines oneLine physical =>
          exact @Physical.cons (first :: body) lines (.cons inside oneLine) physical

theorem flatten_physicalLines
    (text : List Char) :
    (physicalLines text).flatten = text := by
  induction text using physicalLines.induct with
  | case1 => rfl
  | case2 rest inductionHypothesis =>
      rw [physicalLines, if_pos rfl, List.flatten_cons, inductionHypothesis]
      rfl
  | case3 first rest inside empty inductionHypothesis =>
      rw [empty] at inductionHypothesis
      rw [physicalLines, if_neg inside, empty, ← inductionHypothesis]
      rfl
  | case4 first rest inside line lines found inductionHypothesis =>
      rw [found] at inductionHypothesis
      rw [physicalLines, if_neg inside, found, ← inductionHypothesis]
      rfl

end LineLexer

end ShellCore
