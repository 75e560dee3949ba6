import Mathlib.Data.List.Basic
import ShellCore.Proofs.Tracing.Observation

namespace ShellCore.Trace

/-!
# Splitting of traced lines

A line is split into words by quoting alone: blanks separate words, what stands
between single quotes is taken as it is, a backslash outside of them has the next
character taken as it is, and pieces that touch are one word. A line that calls for
any other rule is not split. A traced line splits into the arguments it was made of.
-/

/-- How the next character of a line is read. -/
inductive Reading where
  | bare
  | quoted
  | escaped
  deriving Repr, DecidableEq

/-- The characters that separate words. -/
def blanks : List Char :=
  [' ', '\t']

/-- The characters that mean something else than themselves outside of quotes, for other rules. -/
def otherMarks : List Char :=
  ['"', '$', '\x60', '|', '&', ';', '<', '>', '(', ')', '\n', '*', '?', '[', '#', '~']

/-- The words of the rest of a line, the first being begun or not. -/
def splitFrom :
    Reading →
    Option (List Char) →
    List Char →
    Option (List (List Char))
  | .bare, word, [] => some word.toList
  | .quoted, _, [] => none
  | .escaped, _, [] => none
  | .bare, word, character :: rest =>
      if character ∈ blanks then
        (splitFrom .bare none rest).map (word.toList ++ ·)
      else if character = '\'' then
        splitFrom .quoted (some (word.getD [])) rest
      else if character = '\\' then
        splitFrom .escaped (some (word.getD [])) rest
      else if character ∈ otherMarks then
        none
      else
        splitFrom .bare (some (word.getD [] ++ [character])) rest
  | .quoted, word, character :: rest =>
      if character = '\'' then
        splitFrom .bare word rest
      else
        splitFrom .quoted (some (word.getD [] ++ [character])) rest
  | .escaped, word, character :: rest =>
      splitFrom .bare (some (word.getD [] ++ [character])) rest

/-- The words of a line. -/
def splitWords
    (line : String) :
    Option (List String) :=
  (splitFrom .bare none line.toList).map (List.map String.ofList)

/-- A character that needs no quotes means itself outside of them. -/
theorem isPlain_notMark
    {character : Char}
    (plain : isPlain character = true) :
    character ∉ blanks ∧ character ≠ '\'' ∧ character ≠ '\\' ∧ character ∉ otherMarks := by
  have notPlain :
      (blanks ++ '\'' :: '\\' :: otherMarks).all (fun mark => !isPlain mark) = true := by
    decide
  have notMark : character ∉ blanks ++ '\'' :: '\\' :: otherMarks := by
    intro mark
    have refused := List.all_eq_true.mp notPlain character mark
    rw [plain] at refused
    cases refused
  rw [List.mem_append, List.mem_cons, List.mem_cons] at notMark
  exact ⟨fun mark => notMark (.inl mark), fun mark => notMark (.inr (.inl mark)),
    fun mark => notMark (.inr (.inr (.inl mark))), fun mark => notMark (.inr (.inr (.inr mark)))⟩

/-- A plain character is added to the word that it touches, or begins one. -/
theorem splitFrom_cons_plain
    {character : Char}
    (plain : isPlain character = true)
    (word : Option (List Char))
    (rest : List Char) :
    splitFrom .bare word (character :: rest) =
      splitFrom .bare (some (word.getD [] ++ [character])) rest := by
  obtain ⟨notBlank, notQuote, notBackslash, notOther⟩ := isPlain_notMark plain
  rw [splitFrom, if_neg notBlank, if_neg notQuote, if_neg notBackslash, if_neg notOther]

theorem splitFrom_plain
    {argument : List Char}
    (plain : argument.all isPlain = true)
    (word rest : List Char) :
    splitFrom .bare (some word) (argument ++ rest) =
      splitFrom .bare (some (word ++ argument)) rest := by
  induction argument generalizing word with
  | nil => rw [List.nil_append, List.append_nil]
  | cons character argument inductionHypothesis =>
      rw [List.all_cons, Bool.and_eq_true] at plain
      rw [List.cons_append, splitFrom_cons_plain plain.1, inductionHypothesis plain.2,
        Option.getD_some, List.append_assoc, List.singleton_append]

/--
Between single quotes every character of an argument is added to the word, an apostrophe
by leaving the quotes for as long as it takes.
-/
theorem splitFrom_quoted
    (argument word rest : List Char) :
    splitFrom .quoted (some word) (argument.flatMap quoteChar ++ '\'' :: rest) =
      splitFrom .bare (some (word ++ argument)) rest := by
  induction argument generalizing word with
  | nil =>
      rw [List.flatMap_nil, List.nil_append, List.append_nil, splitFrom, if_pos rfl]
  | cons character argument inductionHypothesis =>
      have inWord := inductionHypothesis (word ++ [character])
      rw [List.append_assoc, List.singleton_append] at inWord
      rw [List.flatMap_cons, List.append_assoc, ← inWord, quoteChar]
      by_cases isQuote : character = '\''
      · subst isQuote
        rw [if_pos rfl]
        rfl
      · rw [if_neg isQuote, List.singleton_append, splitFrom, if_neg isQuote, Option.getD_some]

/-- A quoted argument is a word. -/
theorem splitFrom_quoteChars
    (argument rest : List Char) :
    splitFrom .bare none (quoteChars argument ++ rest) =
      splitFrom .bare (some argument) rest := by
  rw [quoteChars]
  split
  next isPlain =>
    rw [Bool.and_eq_true] at isPlain
    obtain ⟨character, argument, rfl⟩ := List.exists_cons_of_ne_nil (l := argument) <| by
      rintro rfl
      cases isPlain.1
    have plain := isPlain.2
    rw [List.all_cons, Bool.and_eq_true] at plain
    rw [List.cons_append, splitFrom_cons_plain plain.1, splitFrom_plain plain.2]
    rfl
  next =>
    have inQuotes := splitFrom_quoted argument [] rest
    rw [List.nil_append] at inQuotes
    rw [List.cons_append, List.append_assoc, List.singleton_append, ← inQuotes]
    rfl

/-- Quoted arguments with spaces between them split into the arguments. -/
theorem splitFrom_intercalate
    (arguments : List (List Char)) :
    splitFrom .bare none ([' '].intercalate (arguments.map quoteChars)) = some arguments := by
  induction arguments with
  | nil => rfl
  | cons argument others inductionHypothesis =>
      cases others with
      | nil =>
          have alone := splitFrom_quoteChars argument []
          rw [List.append_nil] at alone
          rw [List.map_singleton, List.intercalate_singleton, alone]
          rfl
      | cons next others =>
          rw [List.map_cons, List.map_cons, List.intercalate_cons_cons, List.append_assoc,
            splitFrom_quoteChars, ← List.map_cons, List.singleton_append, splitFrom,
            if_pos (by decide), inductionHypothesis]
          rfl

theorem toList_commandLine
    (argv : List String) :
    (commandLine argv).toList =
      [' '].intercalate ((argv.map String.toList).map quoteChars) := by
  rw [commandLine, String.toList_intercalate, List.map_map, List.map_map]
  refine congrArg [' '].intercalate (List.map_congr_left fun argument _ => ?_)
  exact String.toList_ofList

/-- The line of a command splits into the arguments of the command. -/
theorem splitWords_commandLine
    (argv : List String) :
    splitWords (commandLine argv) = some argv := by
  rw [splitWords, toList_commandLine, splitFrom_intercalate, Option.map_some, List.map_map]
  refine congrArg some ((List.map_congr_left fun argument _ => ?_).trans (List.map_id argv))
  exact String.ofList_toList

/-- Commands with the same line have the same arguments. -/
theorem commandLine_injective :
    Function.Injective commandLine := by
  intro left right alike
  have split := splitWords_commandLine left
  rw [alike, splitWords_commandLine right] at split
  exact (Option.some.inj split).symm

/--
The line of a command splits into the arguments of the command, whatever they are. While
tracing is on, the command leaves this line behind its prompt, and changes nothing else.
-/
theorem traced_line_splits_into_arguments
    (argv : List String) :
    splitWords (commandLine argv) = some argv ∧
      ∀ {env : Env} {machine : Machine},
        env.setup.Wired →
        machine.scope.xtrace = true →
        ∃ lead,
          (onCommand env argv).run machine =
            some (.ok (),
              { machine with trace := machine.trace ++ [lead ++ commandLine argv] }) := by
  refine ⟨splitWords_commandLine argv, fun {env machine} wired isOn => ?_⟩
  obtain ⟨lead, emitted⟩ := Erasure.emit_answers wired (commandLine argv) machine
  refine ⟨lead, ?_⟩
  rw [onCommand, emitIfOn, Eval.run_scope_bind, if_pos isOn]
  exact emitted

/-- A configuration that traces without a prompt. -/
def bareTracing : Config :=
  { Config.transient with
    xtrace := true
    ps4 := "" }

theorem apostrophes_split_into_arguments :
    ∃ shell lead line,
      Shell.new bareTracing .inert = .ok shell ∧
        (onCommand shell.env ["it's", "'", "", "a b"]).run shell.machine =
            some (.ok (), { shell.machine with trace := [lead ++ line] }) ∧
          line = "'it'\\''s' ''\\''' '' 'a b'" ∧
            splitWords line = some ["it's", "'", "", "a b"] := by
  obtain ⟨shell, built⟩ : ∃ shell, Shell.new bareTracing .inert = .ok shell := ⟨_, rfl⟩
  have isOn : shell.machine.scope.xtrace = true := by
    cases built
    rfl
  have noTrace : shell.machine.trace = [] := by
    cases built
    rfl
  obtain ⟨split, traced⟩ := traced_line_splits_into_arguments ["it's", "'", "", "a b"]
  obtain ⟨lead, ran⟩ := traced (Shell.new_wired built).own isOn
  rw [noTrace, List.nil_append] at ran
  exact ⟨shell, lead, _, built, ran, by decide +kernel, split⟩

example : splitWords "a\\ b  'c d'\\'e ''" = some ["a b", "c d'e", ""] := by
  decide

end ShellCore.Trace
