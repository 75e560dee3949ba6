import ShellCore.Proofs.Evaluation.Execution
import ShellCore.Proofs.Evaluation.Keeping

namespace ShellCore

/-!
# Writing prompt templates

A template expands to the texts of its pieces, one after the other. Any text has a
template that expands to it: a backslash goes in front of its backslashes and dollar
signs. Next to it a name stands between braces, and no character of either is taken
for a part of the other. The value that comes in the place of a name is not scanned.
-/

/-- The text of a piece where a scope gives the values of names. -/
def PromptPiece.expansion
    (scope : Scope) :
    PromptPiece →
    String
  | .text characters => String.ofList characters
  | .var characters => scope.expand (String.ofList characters)

/-- A part of a template to be written: a text, or a name that its closing brace can end. -/
inductive TemplatePart where
  | literal (text : String)
  | value (name : String) (noBrace : '\x7d' ∉ name.toList)

namespace Prompt

/-- The characters that write a character of a text. -/
def escapeChar
    (character : Char) :
    List Char :=
  if character = '\\' ∨ character = '$' then ['\\', character] else [character]

end Prompt

namespace TemplatePart

/-- The characters that write a part. -/
def written :
    TemplatePart →
    List Char
  | .literal text => text.toList.flatMap Prompt.escapeChar
  | .value name _ => '$' :: '\x7b' :: (name.toList ++ ['\x7d'])

/-- The pieces that are to be read where a part was written. -/
def pieces :
    TemplatePart →
    List PromptPiece
  | .literal text => text.toList.map fun character => .text [character]
  | .value name _ => [.var name.toList]

/-- The text itself, or the value of the name; a name without a value has no text. -/
def meaning
    (scope : Scope) :
    TemplatePart →
    String
  | .literal text => text
  | .value name _ => ((scope.lookup? name).map Value.display).getD ""

/-- The template of parts in a row. -/
def template
    (parts : List TemplatePart) :
    String :=
  String.ofList (parts.flatMap written)

end TemplatePart

namespace Prompt

section Expansion

variable {env : Env}
variable {machine : Machine}

/-- Pieces are expanded one by one, if their names can be evaluated. -/
theorem run_each_expandPiece
    {pieces : List PromptPiece}
    (connected :
      ∀ name, .var name ∈ pieces → Connection.promptToWord ∈ env.setup.connections) :
    (Eval.each (expandPiece env) pieces).run machine =
      some (.ok (pieces.map (·.expansion machine.scope)), machine) := by
  induction pieces with
  | nil => rfl
  | cons piece rest inductionHypothesis =>
      have first :
          (expandPiece env piece).run machine =
            some (.ok (piece.expansion machine.scope), machine) := by
        cases piece with
        | text text => rfl
        | var name =>
            unfold expandPiece Eval.require
            rw [if_pos (connected name (.head rest))]
            rfl
      have others := inductionHypothesis fun name isLater => connected name (.tail piece isLater)
      apply Eval.bind_answers_iff.mpr
      refine ⟨_, machine, first, ?_⟩
      apply Eval.bind_answers_iff.mpr
      exact ⟨_, machine, others, rfl⟩

/-- A template expands to the texts of its pieces, and nothing changes. -/
theorem run_expand
    {template : String}
    (connected :
      ∀ name, .var name ∈ pieces template.toList →
        Connection.promptToWord ∈ env.setup.connections) :
    (expand env template).run machine =
      some
        (.ok (String.join ((pieces template.toList).map (·.expansion machine.scope))),
          machine) := by
  apply Eval.bind_answers_iff.mpr
  exact ⟨_, machine, run_each_expandPiece connected, rfl⟩

end Expansion

section Reading

/-- A character is read back as it was, whatever is written behind it. -/
theorem pieces_escapeChar
    (character : Char)
    (rest : List Char) :
    pieces (escapeChar character ++ rest) = .text [character] :: pieces rest := by
  by_cases isBackslash : character = '\\'
  · simp [escapeChar, isBackslash, pieces, escapedPiece]
  by_cases isDollar : character = '$'
  · simp [escapeChar, isDollar, pieces, escapedPiece]
  · have same : escapeChar character = [character] := by
      simp [escapeChar, isBackslash, isDollar]
    rw [same, List.singleton_append, pieces.eq_def]
    exact (if_neg isBackslash).trans (if_neg isDollar)

/-- A name between braces is read up to its closing brace, whatever follows. -/
theorem varName?_braced
    {name : List Char}
    (noBrace : '\x7d' ∉ name)
    (rest : List Char) :
    varName? ('\x7b' :: (name ++ '\x7d' :: rest)) = some (name, name.length + 2) := by
  have ends : (name ++ '\x7d' :: rest).takeWhile (· ≠ '\x7d') = name := by
    have isInner : ∀ character ∈ name, decide (character ≠ '\x7d') = true := by
      intro character isMember
      apply decide_eq_true
      rintro rfl
      exact noBrace isMember
    rw [List.takeWhile_append_of_pos isInner]
    simp
  simp only [varName?, if_pos, ends]

theorem pieces_braced
    {name : List Char}
    (noBrace : '\x7d' ∉ name)
    (rest : List Char) :
    pieces ('$' :: '\x7b' :: (name ++ '\x7d' :: rest)) = .var name :: pieces rest := by
  have behind : ('\x7b' :: (name ++ '\x7d' :: rest)).drop (name.length + 2) = rest := by
    simp
  rw [pieces, if_neg (by decide), if_pos rfl, varName?_braced noBrace]
  simp only [behind]

/-- A part is read back as its own pieces, whatever is written behind it. -/
theorem pieces_written
    (part : TemplatePart)
    (rest : List Char) :
    pieces (part.written ++ rest) = part.pieces ++ pieces rest := by
  cases part with
  | literal text =>
      rw [TemplatePart.written, TemplatePart.pieces]
      induction text.toList with
      | nil => simp
      | cons first others inductionHypothesis =>
          simp [pieces_escapeChar, inductionHypothesis]
  | value name noBrace =>
      simp [TemplatePart.written, TemplatePart.pieces, pieces_braced noBrace]

/-- A template is cut into the pieces of its parts. -/
theorem pieces_template
    (parts : List TemplatePart) :
    pieces (TemplatePart.template parts).toList = parts.flatMap TemplatePart.pieces := by
  unfold TemplatePart.template
  rw [String.toList_ofList]
  induction parts with
  | nil => simp [pieces]
  | cons part rest inductionHypothesis =>
      simp [pieces_written, inductionHypothesis]

/-- The texts of the pieces of a part make up what the part means. -/
theorem join_expansion_pieces
    (scope : Scope)
    (part : TemplatePart) :
    String.join (part.pieces.map (·.expansion scope)) = part.meaning scope := by
  cases part with
  | literal text =>
      simp [TemplatePart.pieces, TemplatePart.meaning, PromptPiece.expansion,
        ← String.toList_inj, List.flatMap_map]
  | value name noBrace =>
      rw [TemplatePart.pieces, TemplatePart.meaning]
      simp only [List.map_cons, List.map_nil, PromptPiece.expansion, String.ofList_toList,
        Scope.expand]
      cases scope.lookup? name <;> simp

theorem join_expansion_template
    (scope : Scope)
    (parts : List TemplatePart) :
    String.join ((parts.flatMap TemplatePart.pieces).map (·.expansion scope)) =
      String.join (parts.map (·.meaning scope)) := by
  induction parts with
  | nil => rfl
  | cons part rest inductionHypothesis =>
      simp [join_expansion_pieces, inductionHypothesis, String.join_append]

end Reading

/--
Escaped texts and names between braces, in any order and number, expand to the texts
themselves and the values of the names. Neither what stands next to them nor what is
in a value makes a difference, and expanding changes nothing.
-/
theorem escaped_template_expands
    (env : Env)
    (parts : List TemplatePart)
    (connected :
      ∀ name noBrace, .value name noBrace ∈ parts →
        Connection.promptToWord ∈ env.setup.connections)
    (machine : Machine) :
    (expand env (TemplatePart.template parts)).run machine =
      some (.ok (String.join (parts.map (·.meaning machine.scope))), machine) := by
  have named :
      ∀ name, .var name ∈ pieces (TemplatePart.template parts).toList →
        Connection.promptToWord ∈ env.setup.connections := by
    intro name isPiece
    rw [pieces_template, List.mem_flatMap] at isPiece
    obtain ⟨part, isPart, isOfPart⟩ := isPiece
    cases part with
    | literal text => simp [TemplatePart.pieces] at isOfPart
    | value other noBrace => exact connected other noBrace isPart
  rw [run_expand named, pieces_template, join_expansion_template]

/-- Parts that meet where a scanner could take one for the other. -/
def awkwardParts : List TemplatePart :=
  [.literal "\\n$", .value "x" (by decide), .literal "x\x7d\\", .value "unset" (by decide)]

/-- A machine with a variable whose value looks like a template. -/
def templateInValue : Machine :=
  .mapScope .fresh fun scope => scope.set "x" (.str "\\$\x7bx\x7d")

theorem awkward_parts_expand :
    TemplatePart.template awkwardParts = "\\\\n\\$$\x7bx\x7dx\x7d\\\\$\x7bunset\x7d" ∧
      (expand .connected (TemplatePart.template awkwardParts)).run templateInValue =
        some (.ok ("\\n$" ++ "\\$\x7bx\x7d" ++ "x\x7d\\" ++ ""), templateInValue) := by
  refine ⟨by decide +kernel, ?_⟩
  have isConnected :
      ∀ name noBrace, .value name noBrace ∈ awkwardParts →
        Connection.promptToWord ∈ Env.connected.setup.connections :=
    fun _ _ _ => Connection.mem_all _
  have meanings :
      String.join (awkwardParts.map (·.meaning templateInValue.scope)) =
        "\\n$" ++ "\\$\x7bx\x7d" ++ "x\x7d\\" ++ "" := by
    decide +kernel
  rw [escaped_template_expands .connected awkwardParts isConnected templateInValue, meanings]

end Prompt

end ShellCore
