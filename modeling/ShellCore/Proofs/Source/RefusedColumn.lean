import ShellCore.Proofs.Source.Agreement

namespace ShellCore

/-!
# Columns that are refused

Text is refused between two tokens if a column of one of them is no boundary of its
line, and also if the right one's column stands before the left one's on the same
line. Both are reported as a bad column. In the second case it is the right one's,
which may well be a boundary.
-/

namespace Text

/-- Two boundaries of a text in the wrong order. -/
structure Reversed
    (text : List Char)
    (first last : Nat) :
    Prop where
  begins : isBoundary text first = true
  ends : isBoundary text last = true
  reversed : last < first

theorem sliceBytes?_isSome
    {text : List Char}
    {first last : Nat}
    (begins : isBoundary text first = true)
    (ends : isBoundary text last = true)
    (inOrder : first ≤ last) :
    ∃ part, sliceBytes? text first last = some part := by
  obtain ⟨before, part, after, whole, isFirst, isLast⟩ :=
    exists_part_of_isBoundary begins ends inOrder
  exact ⟨part, sliceBytes?_eq whole isFirst isLast⟩

end Text

namespace SourceLine

variable {line : SourceLine} {first last : Nat} {error : ArenaError}

theorem sliceFrom_error
    (refused : line.sliceFrom first = .error error) :
    error = .badColumn line.line first ∧ Text.isBoundary line.text.toList first = false := by
  unfold sliceFrom at refused
  split at refused
  · cases refused
  next missing =>
    cases refused
    exact ⟨rfl, by rw [Text.isBoundary, missing]; rfl⟩

theorem sliceTo_error
    (refused : line.sliceTo last = .error error) :
    error = .badColumn line.line last ∧ Text.isBoundary line.text.toList last = false := by
  unfold sliceTo at refused
  split at refused
  · cases refused
  next missing =>
    cases refused
    refine ⟨rfl, Bool.eq_false_iff.mpr fun boundary => ?_⟩
    obtain ⟨before, after, whole, length⟩ := Text.exists_cut_of_isBoundary boundary
    rw [whole, ← length, Text.takeBytes?_append] at missing
    cases missing

/-- The column that is named is no boundary, unless both are and are reversed. -/
theorem sliceBetween_error
    (refused : line.sliceBetween first last = .error error) :
    ∃ column,
      error = .badColumn line.line column ∧
        (column = first ∨ column = last) ∧
          (Text.isBoundary line.text.toList column = false ↔
            ¬ Text.Reversed line.text.toList first last) := by
  unfold sliceBetween at refused
  split at refused
  · cases refused
  next missing =>
    split at refused
    next begins =>
      cases refused
      refine ⟨last, rfl, .inr rfl, ?_, ?_⟩
      · intro bad reversed
        rw [reversed.ends] at bad
        cases bad
      · intro notReversed
        refine Bool.eq_false_iff.mpr fun ends => notReversed ⟨begins, ends, ?_⟩
        refine Nat.lt_of_not_le fun inOrder => ?_
        obtain ⟨part, found⟩ := Text.sliceBytes?_isSome begins ends inOrder
        rw [found] at missing
        cases missing
    next bad =>
      cases refused
      refine ⟨first, rfl, .inl rfl, ?_, ?_⟩
      · exact fun _ reversed => bad reversed.begins
      · exact fun _ => Bool.eq_false_iff.mpr bad

end SourceLine

/-- A column of a token on its line: where it begins or where it ends. -/
inductive Token.HasColumn
    (token : Token) :
    LineId →
    Nat →
    Prop where
  | atStart : token.HasColumn token.line token.column.toNat
  | atEnd : token.HasColumn token.line token.endColumn

namespace Arena

/--
A column that is refused is one of two tokens'. It is no boundary of its line, unless
the tokens are on one line, where the columns asked for are boundaries but reversed.
-/
structure RefusedColumn
    (arena : Arena)
    (first last : Token)
    (firstColumn lastColumn : Nat)
    (line : LineId)
    (column : Nat) :
    Prop where
  ofToken : first.HasColumn line column ∨ last.HasColumn line column
  isBad : ∃ text,
    arena.lineText line = .ok text ∧
      (Text.isBoundary text.toList column = false ↔
        ¬ (first.line = last.line ∧ Text.Reversed text.toList firstColumn lastColumn))

section Columns

variable {arena : Arena} {first last : Token} {firstColumn lastColumn : Nat}
variable {record : SourceLine} {line handle : LineId} {column : Nat}

theorem WellFormed.lineText_of_line
    (wellFormed : arena.WellFormed)
    (found : arena.line handle = .ok record) :
    arena.lineText record.line = .ok record.text := by
  rw [lineText, (wellFormed.line_ok found).1, found]
  rfl

theorem refused_between
    (wellFormed : arena.WellFormed)
    (begins : first.HasColumn first.line firstColumn)
    (ends : last.HasColumn last.line lastColumn)
    (found : arena.line first.line = .ok record)
    (oneLine : first.line = last.line)
    (refused : record.sliceBetween firstColumn lastColumn = .error (.badColumn line column)) :
    arena.RefusedColumn first last firstColumn lastColumn line column := by
  obtain ⟨named, same, isFirstOrLast, bad⟩ := SourceLine.sliceBetween_error refused
  obtain ⟨rfl, rfl⟩ := ArenaError.badColumn.inj same
  have place : record.line = first.line := (wellFormed.line_ok found).1
  constructor
  · rw [place]
    rcases isFirstOrLast with rfl | rfl
    · exact .inl begins
    · rw [oneLine]
      exact .inr ends
  · refine ⟨record.text, wellFormed.lineText_of_line found, ?_⟩
    rw [bad]
    simp [oneLine]

theorem refused_from
    (wellFormed : arena.WellFormed)
    (begins : first.HasColumn first.line firstColumn)
    (found : arena.line first.line = .ok record)
    (refused : record.sliceFrom firstColumn = .error (.badColumn line column)) :
    arena.RefusedColumn first last firstColumn lastColumn line column := by
  obtain ⟨same, bad⟩ := SourceLine.sliceFrom_error refused
  obtain ⟨rfl, rfl⟩ := ArenaError.badColumn.inj same
  have place : record.line = first.line := (wellFormed.line_ok found).1
  refine ⟨.inl (place ▸ begins), record.text, wellFormed.lineText_of_line found, ?_⟩
  refine iff_of_true bad fun ⟨_, reversed⟩ => ?_
  rw [reversed.begins] at bad
  cases bad

theorem refused_to
    (wellFormed : arena.WellFormed)
    (ends : last.HasColumn last.line lastColumn)
    (found : arena.line last.line = .ok record)
    (refused : record.sliceTo lastColumn = .error (.badColumn line column)) :
    arena.RefusedColumn first last firstColumn lastColumn line column := by
  obtain ⟨same, bad⟩ := SourceLine.sliceTo_error refused
  obtain ⟨rfl, rfl⟩ := ArenaError.badColumn.inj same
  have place : record.line = last.line := (wellFormed.line_ok found).1
  refine ⟨.inr (place ▸ ends), record.text, wellFormed.lineText_of_line found, ?_⟩
  refine iff_of_true bad fun ⟨_, reversed⟩ => ?_
  rw [reversed.ends] at bad
  cases bad

end Columns

section Errors

variable {α : Type} {arena : Arena} {line handle : LineId} {column : Nat}

/-- No line is missing for a column. -/
theorem line_ne_badColumn :
    arena.line handle ≠ .error (.badColumn line column) := by
  unfold Arena.line
  split <;> exact nofun

/-- A bad column is found on a line that is there. -/
theorem badColumn_behind_line
    {next : SourceLine → Except ArenaError α}
    (refused : (arena.line handle >>= next) = .error (.badColumn line column)) :
    ∃ record, arena.line handle = .ok record ∧ next record = .error (.badColumn line column) :=
  (bind_error_iff.mp refused).resolve_left line_ne_badColumn

theorem windowBetween_ne_badColumn
    {left right : LineId} :
    arena.windowBetween left right ≠ .error (.badColumn line column) := by
  unfold windowBetween
  repeat' split
  all_goals exact nofun

theorem wholeLines_error
    {lines : List LineId}
    {error : ArenaError}
    (refused : arena.wholeLines lines = .error error) :
    ∃ handle ∈ lines, arena.line handle = .error error := by
  induction lines with
  | nil => cases refused
  | cons first rest inductionHypothesis =>
      rw [wholeLines] at refused
      rcases bind_error_iff.mp refused with missing | ⟨record, _, refused⟩
      · exact ⟨first, List.mem_cons_self, missing⟩
      · obtain ⟨handle, member, missing⟩ :=
          inductionHypothesis (bind_value_error_iff.mp refused)
        exact ⟨handle, List.mem_cons_of_mem _ member, missing⟩

/-- Lines are joined unless one is missing or the last one's column is bad. -/
theorem joinLines_error
    {lines : List LineId}
    {lastColumn : Nat}
    {error : ArenaError}
    (refused : arena.joinLines lastColumn lines = .error error) :
    (∃ handle ∈ lines, arena.line handle = .error error) ∨
      ∃ last record,
        lines.getLast? = some last ∧
          arena.line last = .ok record ∧
            record.sliceTo lastColumn = .error error := by
  induction lines with
  | nil => cases refused
  | cons first rest inductionHypothesis =>
      cases rest with
      | nil =>
          rw [joinLines] at refused
          rcases bind_error_iff.mp refused with missing | ⟨record, found, refused⟩
          · exact .inl ⟨first, List.mem_cons_self, missing⟩
          · exact .inr ⟨first, record, rfl, found, refused⟩
      | cons second later =>
          rw [joinLines.eq_3 _ _ _ _ (List.cons_ne_nil _ _)] at refused
          rcases bind_error_iff.mp refused with missing | ⟨record, _, refused⟩
          · exact .inl ⟨first, List.mem_cons_self, missing⟩
          · rcases inductionHypothesis (bind_value_error_iff.mp refused) with
              ⟨handle, member, missing⟩ | atLast
            · exact .inl ⟨handle, List.mem_cons_of_mem _ member, missing⟩
            · exact .inr atLast

end Errors

section Tokens

variable {arena : Arena} {left right : SpanId} {first last : Token}
variable {line : LineId} {column : Nat}

theorem snippet_refusedColumn
    (wellFormed : arena.WellFormed)
    (firstFound : arena.token left = .ok first)
    (lastFound : arena.token right = .ok last)
    (refused : arena.snippet left right = .error (.badColumn line column)) :
    arena.RefusedColumn first last first.column.toNat last.endColumn line column := by
  rw [snippet, firstFound, ok_bind, lastFound, ok_bind] at refused
  rcases bind_error_iff.mp refused with search | ⟨block, search, refused⟩
  · exact absurd search windowBetween_ne_badColumn
  obtain ⟨_, head, final⟩ := windowBetween_ok search
  cases block with
  | nil => cases head
  | cons firstLine rest =>
      obtain rfl : firstLine = first.line := Option.some.inj head
      cases rest with
      | nil =>
          have oneLine : first.line = last.line := Option.some.inj final
          obtain ⟨record, found, refused⟩ := badColumn_behind_line refused
          exact refused_between wellFormed .atStart .atEnd found oneLine
            (bind_value_error_iff.mp refused)
      | cons second later =>
          obtain ⟨record, found, refused⟩ := badColumn_behind_line refused
          rcases bind_error_iff.mp refused with badHead | ⟨head, _, refused⟩
          · exact refused_from wellFormed .atStart found badHead
          rcases joinLines_error (bind_value_error_iff.mp refused) with
            ⟨handle, _, missing⟩ | ⟨lastLine, record, isLast, found, badTail⟩
          · exact absurd missing line_ne_badColumn
          · rw [List.getLast?_cons_cons, isLast] at final
            obtain rfl : lastLine = last.line := Option.some.inj final
            exact refused_to wellFormed .atEnd found badTail

theorem codeBetween_refusedColumn
    (wellFormed : arena.WellFormed)
    (firstFound : arena.token left = .ok first)
    (lastFound : arena.token right = .ok last)
    (refused : arena.codeBetween left right = .error (.badColumn line column)) :
    arena.RefusedColumn first last first.endColumn last.column.toNat line column := by
  rw [codeBetween, firstFound, ok_bind, lastFound, ok_bind] at refused
  obtain ⟨firstLine, firstLineFound, refused⟩ := badColumn_behind_line refused
  obtain ⟨lastLine, lastLineFound, refused⟩ := badColumn_behind_line refused
  have firstHandle : firstLine.line = first.line := (wellFormed.line_ok firstLineFound).1
  have lastHandle : lastLine.line = last.line := (wellFormed.line_ok lastLineFound).1
  split at refused
  · cases refused
  split at refused
  · cases refused
  dsimp only at refused
  split at refused
  next same =>
    have oneLine : first.line = last.line := by
      rw [← firstHandle, same, lastHandle]
    exact refused_between wellFormed .atEnd .atStart firstLineFound oneLine
      (bind_value_error_iff.mp refused)
  next =>
    rcases bind_error_iff.mp refused with badHead | ⟨head, _, refused⟩
    · exact refused_from wellFormed .atEnd firstLineFound badHead
    rcases bind_error_iff.mp refused with badMiddle | ⟨middle, _, refused⟩
    · obtain ⟨handle, _, missing⟩ := wholeLines_error badMiddle
      exact absurd missing line_ne_badColumn
    exact refused_to wellFormed .atStart lastLineFound (bind_value_error_iff.mp refused)

/--
A bad column that is reported is a column of one of the two tokens on its own line. It
is no boundary of that line, unless the tokens stand on one line with their columns
reversed: then it is one.
-/
theorem reported_column_is_bad_unless_reversed
    (reachable : arena.Reachable)
    (firstFound : arena.token left = .ok first)
    (lastFound : arena.token right = .ok last) :
    (∀ {line : LineId} {column : Nat},
      arena.snippet left right = .error (.badColumn line column) →
      arena.RefusedColumn first last first.column.toNat last.endColumn line column) ∧
    ∀ {line : LineId} {column : Nat},
      arena.codeBetween left right = .error (.badColumn line column) →
      arena.RefusedColumn first last first.endColumn last.column.toNat line column :=
  ⟨snippet_refusedColumn reachable.wellFormed firstFound lastFound,
    codeBetween_refusedColumn reachable.wellFormed firstFound lastFound⟩

end Tokens

/-- A word, a word of two bytes, and what begins inside the latter. -/
def brokenWords : List Operation :=
  [.openSource .interactive,
    .addLine "a é\n" 1,
    .addToken .word 0 1 ⟨0⟩ "a",
    .addToken .word 2 2 ⟨0⟩ "é",
    .addToken .unknown 3 2 ⟨0⟩ "?"]

theorem column_inside_character_is_bad :
    (ofHistory brokenWords).Reachable ∧
      ∃ first last,
        (ofHistory brokenWords).token ⟨2⟩ = .ok first ∧
          (ofHistory brokenWords).token ⟨1⟩ = .ok last ∧
            (ofHistory brokenWords).snippet ⟨2⟩ ⟨1⟩ = .error (.badColumn ⟨0⟩ 3) ∧
              (ofHistory brokenWords).RefusedColumn first last 3 4 ⟨0⟩ 3 ∧
                Text.isBoundary "a é\n".toList 3 = false := by
  have reachable : (ofHistory brokenWords).Reachable := ⟨brokenWords, rfl⟩
  have firstFound : (ofHistory brokenWords).token ⟨2⟩ = .ok ⟨.unknown, 3, 2, ⟨0⟩, ⟨2⟩, "?"⟩ :=
    ok_of_toOption (by decide +kernel)
  have lastFound : (ofHistory brokenWords).token ⟨1⟩ = .ok ⟨.word, 2, 2, ⟨0⟩, ⟨1⟩, "é"⟩ :=
    ok_of_toOption (by decide +kernel)
  have refused : (ofHistory brokenWords).snippet ⟨2⟩ ⟨1⟩ = .error (.badColumn ⟨0⟩ 3) :=
    rfl
  exact ⟨reachable, _, _, firstFound, lastFound, refused,
    (reported_column_is_bad_unless_reversed reachable firstFound lastFound).1 refused,
    by decide +kernel⟩

/-- The columns of words in the wrong order are refused as bad, though they are boundaries. -/
theorem reversed_words_are_refused_at_boundaries :
    (ofHistory brokenWords).Reachable ∧
      (ofHistory brokenWords).snippet ⟨1⟩ ⟨0⟩ = .error (.badColumn ⟨0⟩ 1) ∧
        (ofHistory brokenWords).codeBetween ⟨1⟩ ⟨0⟩ = .error (.badColumn ⟨0⟩ 0) ∧
          (ofHistory brokenWords).lineText ⟨0⟩ = .ok "a é\n" ∧
            Text.isBoundary "a é\n".toList 1 = true ∧
              Text.isBoundary "a é\n".toList 0 = true := by
  refine ⟨⟨brokenWords, rfl⟩, rfl, rfl, ok_of_toOption ?_, ?_, ?_⟩
  all_goals decide +kernel

end Arena

end ShellCore
