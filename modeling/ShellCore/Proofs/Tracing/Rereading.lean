import Mathlib.Algebra.Ring.Parity
import Mathlib.Data.Nat.Bits
import ShellCore.Proofs.Lexing.Segments
import ShellCore.Proofs.Tracing.Splitting

namespace ShellCore.Trace

/-!
# Rereading of traced lines

The lexer of this shell knows no backslash outside strings. It reads a traced line in
one run of tokens for each argument exactly if it reads each quoted argument, from
outside strings, in one piece that ends outside strings, and outside comments if others
follow. Every argument without an apostrophe is read so.
-/

open QuoteState

/-- The quoted argument is not cut, and ends outside strings. -/
def IsReadWhole
    (argument : List Char) :
    Prop :=
  meets cuts .fresh (quoteChars argument) = false ∧
    (scan true .fresh (quoteChars argument)).quote? = none

/-- Every argument is read whole, and none but the last ends in a comment. -/
def ReadsBack
    (arguments : List (List Char)) :
    Prop :=
  (∀ argument ∈ arguments, IsReadWhole argument) ∧
    ∀ argument ∈ arguments.dropLast, scan true .fresh (quoteChars argument) ≠ .comment

instance (argument : List Char) : Decidable (IsReadWhole argument) :=
  inferInstanceAs (Decidable (_ ∧ _))

instance (arguments : List (List Char)) : Decidable (ReadsBack arguments) :=
  inferInstanceAs (Decidable (_ ∧ _))

/-- A plain character neither parts a line nor begins a string or a comment. -/
theorem isPlain_solid
    {character : Char}
    (plain : isPlain character = true) :
    isSeparator character = false ∧ character ≠ '\n' ∧ character ≠ '"' ∧ character ≠ '#' := by
  obtain ⟨noBlank, -, -, noMark⟩ := isPlain_notMark plain
  have ne_of_mark : ∀ mark ∈ otherMarks, character ≠ mark := by
    rintro mark isMark rfl
    exact noMark isMark
  refine ⟨?_, ne_of_mark _ (by decide), ne_of_mark _ (by decide), ne_of_mark _ (by decide)⟩
  simpa [isSeparator, blanks] using noBlank

section Segments

variable {argument body : List Char} {rest : List (List Char)}

/-- A quoted argument begins with a character that belongs to it. -/
theorem exists_quoteChars
    (argument : List Char) :
    ∃ first later, quoteChars argument = first :: later ∧ fresh.parts first = false := by
  rw [quoteChars]
  split
  next isPlain =>
    rw [Bool.and_eq_true] at isPlain
    cases argument with
    | nil => cases isPlain.1
    | cons first later =>
        have plain := isPlain.2
        rw [List.all_cons, Bool.and_eq_true] at plain
        exact ⟨first, later, rfl, (isPlain_solid plain.1).1⟩
  next => exact ⟨'\'', _, rfl, rfl⟩

/-- If the first segment that is left is the quoted argument, the argument is the first segment. -/
theorem head_eq_quoteChars
    {text head : List Char}
    {others : List (List Char)}
    (begins : quoteChars argument <+: text)
    (shape : segments .fresh text = head :: others)
    (left : (segments .fresh text).filter isPresent = quoteChars argument :: rest) :
    head = quoteChars argument ∧ others.filter isPresent = rest := by
  obtain ⟨first, later, isText, noParting⟩ := exists_quoteChars argument
  obtain ⟨behind, rfl⟩ := begins
  rw [shape] at left
  rw [isText, List.cons_append] at shape
  rw [List.filter_cons_of_pos (isPresent_head noParting shape)] at left
  exact List.cons.inj left

/-- A quoted argument that is not parted is in front of all that follows it in its segment. -/
theorem filter_segments_quoteChars
    {head : List Char}
    {others : List (List Char)}
    (together : meets parts .fresh (quoteChars argument) = false)
    (shape : segments (scan true .fresh (quoteChars argument)) body = head :: others) :
    (segments .fresh (quoteChars argument ++ body)).filter isPresent =
      (quoteChars argument ++ head) :: others.filter isPresent := by
  obtain ⟨first, later, isText, -⟩ := exists_quoteChars argument
  have isSome : quoteChars argument ≠ [] := by
    rw [isText]
    exact List.cons_ne_nil first later
  rw [segments_append together, shape, List.modifyHead_cons,
    List.filter_cons_of_pos (isPresent_append isSome head)]

/-- A line of one quoted argument is closed and in one segment if the argument is read whole. -/
theorem isReadWhole_iff :
    Closes .fresh (quoteChars argument) ∧
        (segments .fresh (quoteChars argument)).filter isPresent = [quoteChars argument] ↔
      IsReadWhole argument := by
  constructor
  · rintro ⟨closes, left⟩
    obtain ⟨head, others, shape, together, -⟩ := segments_cases fresh (quoteChars argument)
    obtain ⟨rfl, -⟩ := head_eq_quoteChars (List.prefix_refl _) shape left
    exact ⟨meets_cuts_eq_false_iff.mpr ⟨together, closes.1⟩, closes.2⟩
  · rintro ⟨uncut, outside⟩
    obtain ⟨together, noLoss⟩ := meets_cuts_eq_false_iff.mp uncut
    have nothing : segments (scan true .fresh (quoteChars argument)) [] = [[]] := rfl
    have shape := filter_segments_quoteChars together nothing
    rw [List.append_nil] at shape
    exact ⟨⟨noLoss, outside⟩, shape⟩

/-- Behind a quoted argument that is read whole and is no comment, a line is read from anew. -/
theorem readsBack_cons_iff :
    Closes .fresh (quoteChars argument ++ ' ' :: body) ∧
        (segments .fresh (quoteChars argument ++ ' ' :: body)).filter isPresent =
          quoteChars argument :: rest ↔
      (IsReadWhole argument ∧ scan true .fresh (quoteChars argument) ≠ .comment) ∧
        Closes .fresh body ∧ (segments .fresh body).filter isPresent = rest := by
  rw [closes_append_iff]
  constructor
  · rintro ⟨⟨noLoss, closes⟩, left⟩
    obtain ⟨head, others, shape, together, ends⟩ :=
      segments_cases fresh (quoteChars argument ++ ' ' :: body)
    obtain ⟨rfl, isRest⟩ := head_eq_quoteChars (List.prefix_append _ _) shape left
    -- The argument is the first segment only if the space behind it parts the line.
    rcases ends with ⟨isHead, -⟩ | ⟨character, behind, isText, parting, rfl⟩
    · cases List.append_cancel_left (isHead.trans (List.append_nil _).symm)
    · cases List.append_cancel_left isText
      rw [step_of_parts parting] at isRest
      rw [closes_cons_of_parts parting] at closes
      obtain ⟨outside, noComment⟩ := parts_space_iff.mp parting
      have uncut := meets_cuts_eq_false_iff.mpr ⟨together, noLoss⟩
      exact ⟨⟨⟨uncut, outside⟩, noComment⟩, closes, isRest⟩
  · rintro ⟨⟨⟨uncut, outside⟩, noComment⟩, closes, isRest⟩
    obtain ⟨together, noLoss⟩ := meets_cuts_eq_false_iff.mp uncut
    have parting := parts_space_iff.mpr ⟨outside, noComment⟩
    refine ⟨⟨noLoss, (closes_cons_of_parts parting body).mpr closes⟩, ?_⟩
    rw [filter_segments_quoteChars together (segments_cons_of_parts parting body), isRest,
      List.append_nil]

/-- A traced line is closed, and its segments are the quoted arguments, if they are read back. -/
theorem readsBack_iff
    (arguments : List (List Char)) :
    Closes .fresh ([' '].intercalate (arguments.map quoteChars)) ∧
        (segments .fresh ([' '].intercalate (arguments.map quoteChars))).filter isPresent =
          arguments.map quoteChars ↔
      ReadsBack arguments := by
  induction arguments with
  | nil => exact ⟨fun _ => ⟨nofun, nofun⟩, fun _ => ⟨⟨rfl, rfl⟩, rfl⟩⟩
  | cons argument others inductionHypothesis =>
      cases others with
      | nil =>
          rw [List.map_singleton, List.intercalate_singleton, isReadWhole_iff, ReadsBack]
          simp
      | cons next others =>
          rw [List.map_cons, List.map_cons, List.intercalate_cons_cons, List.append_assoc,
            List.singleton_append, ← List.map_cons, readsBack_cons_iff, inductionHypothesis,
            ReadsBack, ReadsBack, List.dropLast_cons_cons, List.forall_mem_cons (a := argument),
            List.forall_mem_cons (a := argument)]
          exact and_and_and_comm.trans (by rfl)

end Segments

section Apostrophes

variable {argument : List Char} {state : QuoteState}

theorem quoteChars_of_mem
    (apostrophe : '\'' ∈ argument) :
    quoteChars argument = '\'' :: (argument.flatMap quoteChar ++ ['\'']) := by
  refine if_neg fun plain => ?_
  rw [Bool.and_eq_true] at plain
  exact (isPlain_notMark (List.all_eq_true.mp plain.2 _ apostrophe)).2.1 rfl

theorem flatMap_quoteChar
    (noApostrophe : '\'' ∉ argument) :
    argument.flatMap quoteChar = argument := by
  have alone : ∀ character ∈ argument, quoteChar character = [character] := by
    rintro character member
    refine if_neg ?_
    rintro rfl
    exact noApostrophe member
  rw [List.flatMap_congr alone, List.flatMap_singleton']

/-- Between single quotes nothing but an apostrophe matters. -/
theorem scan_no_apostrophe
    (noApostrophe : '\'' ∉ argument) :
    scan true single argument = single ∧ meets cuts single argument = false := by
  induction argument with
  | nil => exact ⟨rfl, rfl⟩
  | cons first argument inductionHypothesis =>
      rw [List.mem_cons, not_or] at noApostrophe
      obtain ⟨stays, uncut⟩ := inductionHypothesis noApostrophe.2
      have inside : step true single first = single := step_single (Ne.symm noApostrophe.1)
      rw [scan_cons, meets, inside, stays, uncut]
      exact ⟨rfl, rfl⟩

/-- The scan stands between single quotes, or else outside strings and comments. -/
def Stands :
    Bool →
    QuoteState →
    Prop
  | true, state => state = single
  | false, state => state.isBare = true

namespace Stands

variable {inside : Bool}

theorem apostrophe
    (stands : Stands inside state) :
    Stands (!inside) (step true state '\'') := by
  cases inside with
  | true =>
      cases stands
      rfl
  | false =>
      cases state with
      | fresh | word | angle | pair => rfl
      | comment | single | double | escaped => cases stands

theorem other
    {character : Char}
    (stands : Stands inside state)
    (noSingle : character ≠ '\'')
    (noDouble : character ≠ '"')
    (noHash : character ≠ '#') :
    Stands inside (step true state character) := by
  cases inside with
  | true =>
      cases stands
      exact step_single noSingle
  | false =>
      have outside : (stepOutside true state character).isBare = true := by
        rw [stepOutside, if_neg noSingle, if_neg noDouble, if_neg noHash]
        repeat' split
        all_goals rfl
      cases state with
      | fresh | word | angle | pair => exact outside
      | comment | single | double | escaped => cases stands

/-- Each apostrophe of an argument leads into single quotes, or out of them. -/
theorem scan_quoted
    (stands : Stands inside state)
    (simple : ∀ character ∈ argument, character ≠ '"' ∧ character ≠ '#') :
    Stands (inside != (argument.count '\'').bodd)
      (scan true state (argument.flatMap quoteChar)) := by
  induction argument generalizing inside state with
  | nil =>
      rw [List.count_nil, Nat.bodd_zero, Bool.bne_false]
      exact stands
  | cons first argument inductionHypothesis =>
      obtain ⟨⟨noDouble, noHash⟩, others⟩ := List.forall_mem_cons.mp simple
      rw [List.flatMap_cons, scan_append, quoteChar]
      by_cases apostrophe : first = '\''
      · subst apostrophe
        -- Three apostrophes stand for one, and the backslash among them changes nothing.
        have escape : Stands (!inside) (step true (step true state '\'') '\\') :=
          stands.apostrophe.other (by decide) (by decide) (by decide)
        have later := inductionHypothesis escape.apostrophe.apostrophe others
        rw [Bool.not_not, Bool.not_bne, ← Bool.bne_not] at later
        rw [if_pos rfl, List.count_cons_self, Nat.bodd_succ]
        exact later
      · rw [if_neg apostrophe, List.count_cons_of_ne apostrophe]
        exact inductionHypothesis (stands.other apostrophe noDouble noHash) others

end Stands

theorem scan_plain
    (plain : ∀ character ∈ argument, isPlain character = true) :
    meets cuts fresh argument = false ∧ (scan true fresh argument).isBare = true := by
  have solid := fun character member => isPlain_solid (plain character member)
  have noApostrophe : '\'' ∉ argument := fun member =>
    (isPlain_notMark (plain _ member)).2.1 rfl
  have simple : ∀ character ∈ argument, character ≠ '"' ∧ character ≠ '#' :=
    fun character member => (solid character member).2.2
  constructor
  · exact meets_of_unmarked fun character member =>
      cuts_of_solid (solid character member).1 (solid character member).2.1
  · have begins : Stands false fresh := rfl
    have behind := begins.scan_quoted simple
    rw [flatMap_quoteChar noApostrophe, List.count_eq_zero.mpr noApostrophe] at behind
    exact behind

theorem scan_between_quotes
    (noApostrophe : '\'' ∉ argument) :
    meets cuts fresh ('\'' :: (argument ++ ['\''])) = false ∧
      scan true fresh ('\'' :: (argument ++ ['\''])) = fresh := by
  obtain ⟨stays, uncut⟩ := scan_no_apostrophe noApostrophe
  have opens : step true fresh '\'' = single := rfl
  constructor
  · rw [meets, opens, meets_append, stays, uncut]
    rfl
  · rw [scan_cons, opens, scan_append, stays]
    rfl

/-- Without apostrophes, an argument is read whole whatever else is in it. -/
theorem isReadWhole_of_no_apostrophe
    (noApostrophe : '\'' ∉ argument) :
    IsReadWhole argument ∧ scan true fresh (quoteChars argument) ≠ comment := by
  rw [IsReadWhole, quoteChars]
  split
  next plain =>
    rw [Bool.and_eq_true, List.all_eq_true] at plain
    obtain ⟨uncut, bare⟩ := scan_plain plain.2
    obtain ⟨outside, noComment⟩ := isBare_iff.mp bare
    exact ⟨⟨uncut, outside⟩, noComment⟩
  next =>
    obtain ⟨uncut, closes⟩ := scan_between_quotes noApostrophe
    rw [flatMap_quoteChar noApostrophe, uncut, closes]
    exact ⟨⟨rfl, rfl⟩, by decide⟩

/-- Without double quotes and `#`, an odd number of apostrophes leaves a string open. -/
theorem not_isReadWhole_of_odd
    (simple : ∀ character ∈ argument, character ≠ '"' ∧ character ≠ '#')
    (odd : Odd (argument.count '\'')) :
    ¬ IsReadWhole argument := by
  obtain ⟨half, isOdd⟩ := odd
  have apostrophe : '\'' ∈ argument := List.count_pos_iff.mp (isOdd ▸ Nat.succ_pos _)
  rintro ⟨-, outside⟩
  have inside : Stands true (scan true fresh ['\'']) := rfl
  have behind := (inside.scan_quoted simple).apostrophe
  rw [isOdd, Nat.bodd_add, Nat.bodd_mul] at behind
  rw [quoteChars_of_mem apostrophe, ← List.singleton_append, scan_append, scan_append] at outside
  cases (congrArg quote? behind).symm.trans outside

theorem readsBack_of_no_apostrophe
    {arguments : List (List Char)}
    (noApostrophe : ∀ argument ∈ arguments, '\'' ∉ argument) :
    ReadsBack arguments :=
  ⟨fun argument member => (isReadWhole_of_no_apostrophe (noApostrophe argument member)).1,
    fun argument member =>
      have isArgument := List.dropLast_subset arguments member
      (isReadWhole_of_no_apostrophe (noApostrophe argument isArgument)).2⟩

end Apostrophes

section Lines

variable {argv : List String} {tokens : List Token} {line : LineId}

/--
Behind the line of a command no string is open, and its tokens, but for the newline that
ends it, stand in one run for each argument, which is the quoted argument.
-/
structure Rereads
    (next : LineLexer)
    (tokens : List Token)
    (argv : List String) :
    Prop where
  outside : next.inQuote = false
  runs :
    ∃ parts final,
      tokens = parts ++ [final] ∧
        final.kind = .newline ∧
          Stretch.runTexts (parts.map Token.stretch) =
            argv.map fun argument => (quote argument).toList

theorem toList_quote
    (argv : List String) :
    (argv.map fun argument => (quote argument).toList) =
      (argv.map String.toList).map quoteChars := by
  rw [List.map_map]
  exact List.map_congr_left fun argument _ => String.toList_ofList

/-- The tokens of a line stand as its lexemes do, and the last is the newline. -/
theorem exists_parts
    {lexemes : List Lexeme}
    {column : Nat}
    (records : List.Forall₂ (Token.Records line) tokens (lexemes ++ [lineEnd column]))
    (measures : List.Forall₂ Token.Measures tokens (lexemes ++ [lineEnd column])) :
    ∃ parts final,
      tokens = parts ++ [final] ∧
        final.kind = .newline ∧ parts.map Token.stretch = lexemes.map Lexeme.stretch := by
  have ends := List.forall₂_drop_append tokens lexemes _ records
  obtain ⟨final, isFinal⟩ := List.length_eq_one_iff.mp ends.length_eq
  rw [isFinal] at ends
  refine ⟨tokens.take lexemes.length, final, ?_, ?_, ?_⟩
  · rw [← isFinal, List.take_append_drop]
  · cases ends with
    | cons recorded _ => exact recorded.kind
  · exact map_stretch_of_records (List.forall₂_take_append tokens lexemes _ records)
      (List.forall₂_take_append tokens lexemes _ measures)

/-- The lexemes of a traced line are those of its arguments if these are read back. -/
theorem rereads_iff
    (records :
      List.Forall₂ (Token.Records line) tokens
        (lexemesFrom 0 ((commandLine argv).toList ++ ['\n'])))
    (measures :
      List.Forall₂ Token.Measures tokens
        (lexemesFrom 0 ((commandLine argv).toList ++ ['\n']))) :
    Rereads (LineLexer.start.scan ((commandLine argv).toList ++ ['\n'])).2 tokens argv ↔
      ReadsBack (argv.map String.toList) := by
  rw [← readsBack_iff, ← toList_commandLine]
  rcases lexemesFrom_line 0 (commandLine argv).toList with
    ⟨closes, lexemes, reads⟩ | ⟨notCloses, leftOpen⟩
  · rw [reads.lexed] at records measures
    obtain ⟨parts, final, rfl, isNewline, stand⟩ := exists_parts records measures
    have runs : Stretch.runTexts (parts.map Token.stretch) = _ := stand ▸ reads.runs
    constructor
    · rintro ⟨-, others, last, same, -, isArgv⟩
      obtain ⟨rfl, -⟩ := List.append_inj' same rfl
      exact ⟨closes, by rw [← runs, isArgv, toList_quote]⟩
    · rintro ⟨-, isArgv⟩
      refine ⟨?_, parts, final, rfl, isNewline, by rw [runs, isArgv, toList_quote]⟩
      change (LineLexer.quoteAfter none (lexemesFrom 0 _)).isSome = false
      rw [reads.lexed, LineLexer.quoteAfter, List.foldl_concat]
      change (LineLexer.quoteAfter none lexemes).isSome = false
      rw [reads.closed]
      rfl
  · refine iff_of_false (fun rereads => leftOpen ?_) fun readsBack => notCloses readsBack.1
    exact Option.not_isSome_iff_eq_none.mp (Bool.eq_false_iff.mp rereads.outside)

/--
A line that a command leaves in a trace is read back by a new lexer, argument for
argument, if every quoted argument is read from outside strings in one piece that ends
there, and outside comments unless it is the last. So it is if no argument has an
apostrophe, and not if one with an odd number of them has neither a double quote nor a
`#`. A line for which there is room is read without an error.
-/
theorem traced_line_rereads_iff_arguments_read_back
    (argv : List String)
    (arena : Arena)
    (number : Nat) :
    (∀ source,
      arena.currentSource? = some source →
      arena.lines.size < SpanId.none.index →
      arena.tokens.size + Text.byteLength (commandLine argv ++ "\n").toList <
        SpanId.none.index →
      ∃ lexed next after,
        LineLexer.start.feedLine arena (commandLine argv ++ "\n") number =
          (.ok lexed, next, after)) ∧
    ∀ lexed next after,
      LineLexer.start.feedLine arena (commandLine argv ++ "\n") number =
        (.ok lexed, next, after) →
      Text.byteLength (commandLine argv ++ "\n").toList < UInt32.size →
      ∃ tokens,
        lexed.tokens = tokens.map Token.span ∧
        (∀ token ∈ tokens, after.token token.span = .ok token) ∧
        (Rereads next tokens argv ↔ ReadsBack (argv.map String.toList)) ∧
        ((∀ argument ∈ argv, '\'' ∉ argument.toList) → Rereads next tokens argv) ∧
        ∀ argument ∈ argv,
          (∀ character ∈ argument.toList, character ≠ '"' ∧ character ≠ '#') →
          Odd (argument.toList.count '\'') →
          ¬ Rereads next tokens argv := by
  refine ⟨fun source isOpen lineRoom tokenRoom => ?_, fun lexed next after fed short => ?_⟩
  · exact LineLexer.feedLine_succeeds .start isOpen lineRoom _ tokenRoom number
  obtain ⟨rfl, tokens, holds, -⟩ := LineLexer.feedLine_accepted fed
  have records := holds.records
  have measures := holds.measures short
  rw [String.toList_append] at records measures ⊢
  have same := rereads_iff records measures
  refine ⟨tokens, holds.spans, holds.found, same, fun noApostrophe => ?_, ?_⟩
  · refine same.mpr (readsBack_of_no_apostrophe ?_)
    exact List.forall_mem_map.mpr noApostrophe
  · intro argument member simple odd rereads
    have whole := (same.mp rereads).1 argument.toList (List.mem_map_of_mem member)
    exact not_isReadWhole_of_odd simple odd whole

/-- Apostrophes in pairs, blanks and an empty argument are read back, a single one is not. -/
theorem apostrophes_in_pairs_are_read_back :
    (∃ lexed next after tokens,
      LineLexer.start.feedLine (Arena.empty.openSource .interactive).2
          (commandLine ["a b", "it''s", "", "#"] ++ "\n") 1 =
        (.ok lexed, next, after) ∧
      lexed.tokens = tokens.map Token.span ∧
      (∀ token ∈ tokens, after.token token.span = .ok token) ∧
      Rereads next tokens ["a b", "it''s", "", "#"]) ∧
    (∃ lexed next after tokens,
      LineLexer.start.feedLine (Arena.empty.openSource .interactive).2
          (commandLine ["a b", "", "#"] ++ "\n") 1 =
        (.ok lexed, next, after) ∧
      lexed.tokens = tokens.map Token.span ∧
      Rereads next tokens ["a b", "", "#"]) ∧
    ∃ lexed next after tokens,
      LineLexer.start.feedLine (Arena.empty.openSource .interactive).2
          (commandLine ["don't", "#"] ++ "\n") 1 =
        (.ok lexed, next, after) ∧
      lexed.tokens = tokens.map Token.span ∧
      ¬ Rereads next tokens ["don't", "#"] := by
  have isOpen : (Arena.empty.openSource .interactive).2.currentSource? = some ⟨0⟩ := rfl
  refine ⟨?_, ?_, ?_⟩
  · obtain ⟨succeeds, reads⟩ :=
      traced_line_rereads_iff_arguments_read_back ["a b", "it''s", "", "#"]
        (Arena.empty.openSource .interactive).2 1
    obtain ⟨lexed, next, after, fed⟩ :=
      succeeds ⟨0⟩ isOpen (by decide) (by decide +kernel)
    obtain ⟨tokens, spans, found, same, -⟩ := reads lexed next after fed (by decide +kernel)
    exact ⟨lexed, next, after, tokens, fed, spans, found, same.mpr (by decide)⟩
  · obtain ⟨succeeds, reads⟩ :=
      traced_line_rereads_iff_arguments_read_back ["a b", "", "#"]
        (Arena.empty.openSource .interactive).2 1
    obtain ⟨lexed, next, after, fed⟩ :=
      succeeds ⟨0⟩ isOpen (by decide) (by decide +kernel)
    obtain ⟨tokens, spans, -, -, rereads, -⟩ := reads lexed next after fed (by decide +kernel)
    exact ⟨lexed, next, after, tokens, fed, spans, rereads (by decide)⟩
  · obtain ⟨succeeds, reads⟩ :=
      traced_line_rereads_iff_arguments_read_back ["don't", "#"]
        (Arena.empty.openSource .interactive).2 1
    obtain ⟨lexed, next, after, fed⟩ :=
      succeeds ⟨0⟩ isOpen (by decide) (by decide +kernel)
    obtain ⟨tokens, spans, -, -, -, fails⟩ := reads lexed next after fed (by decide +kernel)
    exact ⟨lexed, next, after, tokens, fed, spans, fails "don't" (by decide) (by simp) (by decide)⟩

/-- The line of a command with one apostrophe leaves a string open. -/
theorem apostrophe_leaves_string_open :
    ∃ lexed next after,
      commandLine ["it's"] ++ "\n" = "'it'\\''s'\n" ∧
        LineLexer.start.feedLine (Arena.empty.openSource .interactive).2
            (commandLine ["it's"] ++ "\n") 1 =
          (.ok lexed, next, after) ∧
        next.inQuote = true ∧
        ∀ tokens, ¬ Rereads next tokens ["it's"] := by
  obtain ⟨lexed, next, after, fed⟩ :=
    LineLexer.feedLine_start_succeeds (commandLine ["it's"] ++ "\n") (by decide +kernel)
  have isOpen : next.inQuote = true := by
    rw [LineLexer.feedLine_next fed]
    decide +kernel
  refine ⟨lexed, next, after, by decide +kernel, fed, isOpen, fun tokens rereads => ?_⟩
  cases isOpen.symm.trans rereads.outside

end Lines

end ShellCore.Trace
