import ShellCore.Proofs.Lexing.Columns
import ShellCore.Proofs.Source.Reconstruction

namespace ShellCore

/-!
# A snippet is its tokens around the code between them

A snippet goes through the window line by line, the code between two tokens
through the line table. The window holds the last handles without a gap, so both
meet the same lines: a snippet is the left token's part of its line, the code
without its padding, and the right token's part.
-/

namespace Text

/-- A text can be cut in two at each of its boundaries. -/
theorem exists_cut_of_isBoundary
    {text : List Char}
    {column : Nat}
    (boundary : isBoundary text column = true) :
    ∃ before after, text = before ++ after ∧ byteLength before = column := by
  induction text generalizing column with
  | nil =>
      cases column with
      | zero => exact ⟨[], [], rfl, rfl⟩
      | succ column => simp [isBoundary, dropBytes?] at boundary
  | cons first rest inductionHypothesis =>
      cases column with
      | zero => exact ⟨[], first :: rest, rfl, rfl⟩
      | succ column =>
          by_cases fits : first.utf8Size ≤ column + 1
          · have later : isBoundary rest (column + 1 - first.utf8Size) = true := by
              simpa [isBoundary, dropBytes?, fits] using boundary
            obtain ⟨before, after, rfl, length⟩ := inductionHypothesis later
            refine ⟨first :: before, after, rfl, ?_⟩
            rw [byteLength_cons, length]
            omega
          · simp [isBoundary, dropBytes?, fits] at boundary

/-- Between two boundaries in order there is a part of the text. -/
theorem exists_part_of_isBoundary
    {text : List Char}
    {first last : Nat}
    (begins : isBoundary text first = true)
    (ends : isBoundary text last = true)
    (inOrder : first ≤ last) :
    ∃ before part after,
      text = before ++ (part ++ after) ∧
        first = byteLength before ∧
          last = byteLength before + byteLength part := by
  obtain ⟨before, behind, whole, length⟩ := exists_cut_of_isBoundary begins
  obtain ⟨through, after, wholeToo, lengthThrough⟩ := exists_cut_of_isBoundary ends
  have ordered : byteLength before ≤ byteLength through := by
    rwa [length, lengthThrough]
  obtain ⟨part, rfl, rfl⟩ := append_of_byteLength_le (whole.symm.trans wholeToo) ordered
  exact ⟨before, part, after, whole, length.symm, by rw [← lengthThrough, byteLength_append]⟩

end Text

/-- A part of a line is what stands between its columns. -/
theorem SourceLine.sliceBetween_eq
    {line : SourceLine}
    {before part after : List Char}
    {first last : Nat}
    (whole : line.text.toList = before ++ (part ++ after))
    (begins : first = Text.byteLength before)
    (ends : last = Text.byteLength before + Text.byteLength part) :
    line.sliceBetween first last = .ok part := by
  simp [sliceBetween, Text.sliceBytes?_eq whole begins ends]

namespace Token

/-- The columns of a token are boundaries of a line. -/
structure AtBoundaries
    (token : Token)
    (line : SourceLine) :
    Prop where
  begins : Text.isBoundary line.text.toList token.column.toNat = true
  ends : Text.isBoundary line.text.toList token.endColumn = true

/-- The part of a line between the columns of a token. -/
def partOf
    (token : Token)
    (line : SourceLine) :
    Except ArenaError (List Char) :=
  line.sliceBetween token.column.toNat token.endColumn

/-- A line cut around the part of it that stands between the columns of a token. -/
structure Cuts
    (token : Token)
    (line : SourceLine)
    (before part after : List Char) :
    Prop where
  whole : line.text.toList = before ++ (part ++ after)
  begins : token.column.toNat = Text.byteLength before
  ends : token.endColumn = Text.byteLength before + Text.byteLength part

theorem AtBoundaries.cuts
    {token : Token}
    {line : SourceLine}
    (atBoundaries : token.AtBoundaries line) :
    ∃ before part after, token.Cuts line before part after := by
  obtain ⟨before, part, after, whole, begins, ends⟩ :=
    Text.exists_part_of_isBoundary atBoundaries.begins atBoundaries.ends (Nat.le_add_right _ _)
  exact ⟨before, part, after, whole, begins, ends⟩

namespace Cuts

variable {token : Token} {line : SourceLine} {before part after : List Char}

theorem partOf_eq
    (cuts : token.Cuts line before part after) :
    token.partOf line = .ok part :=
  SourceLine.sliceBetween_eq cuts.whole cuts.begins cuts.ends

/-- From the token on there are its part and what follows it. -/
theorem sliceFrom_column
    (cuts : token.Cuts line before part after) :
    line.sliceFrom token.column.toNat = .ok (part ++ after) := by
  simp [SourceLine.sliceFrom, cuts.whole, cuts.begins, Text.dropBytes?_append]

theorem sliceFrom_endColumn
    (cuts : token.Cuts line before part after) :
    line.sliceFrom token.endColumn = .ok after := by
  have found := Text.dropBytes?_append (before ++ part) after
  rw [Text.byteLength_append, List.append_assoc] at found
  simp [SourceLine.sliceFrom, cuts.whole, cuts.ends, found]

theorem sliceTo_column
    (cuts : token.Cuts line before part after) :
    line.sliceTo token.column.toNat = .ok before := by
  simp [SourceLine.sliceTo, cuts.whole, cuts.begins, Text.takeBytes?_append]

/-- Up to the end of the token there are what precedes it and its part. -/
theorem sliceTo_endColumn
    (cuts : token.Cuts line before part after) :
    line.sliceTo token.endColumn = .ok (before ++ part) := by
  have found := Text.takeBytes?_append (before ++ part) after
  rw [Text.byteLength_append, List.append_assoc] at found
  simp [SourceLine.sliceTo, cuts.whole, cuts.ends, found]

/-- Of two tokens apart on a line, the one behind stands behind what follows the other. -/
theorem exists_between
    {last : Token}
    {lastBefore lastPart lastAfter : List Char}
    (cuts : token.Cuts line before part after)
    (lastCuts : last.Cuts line lastBefore lastPart lastAfter)
    (apart : token.endColumn ≤ last.column.toNat) :
    ∃ between,
      line.text.toList = before ++ (part ++ (between ++ (lastPart ++ lastAfter))) ∧
        lastBefore = before ++ part ++ between := by
  have same : (before ++ part) ++ after = lastBefore ++ (lastPart ++ lastAfter) := by
    rw [List.append_assoc, ← cuts.whole, lastCuts.whole]
  have ordered : Text.byteLength (before ++ part) ≤ Text.byteLength lastBefore := by
    rw [Text.byteLength_append, ← cuts.ends, ← lastCuts.begins]
    exact apart
  obtain ⟨between, wholeBefore, rfl⟩ := Text.append_of_byteLength_le same ordered
  exact ⟨between, cuts.whole, wholeBefore⟩

end Cuts

end Token

namespace Arena

namespace Excerpt

variable {arena : Arena} {left right : SpanId}

/-- There is one record for each line. -/
theorem sameLine
    (wellFormed : arena.WellFormed)
    (excerpt : arena.Excerpt left right)
    (same : excerpt.firstLine.line = excerpt.lastLine.line) :
    excerpt.firstLine = excerpt.lastLine := by
  obtain ⟨firstHandle, lastHandle⟩ := excerpt.lines_eq wellFormed
  have found := excerpt.firstLineFound
  rw [← firstHandle, same, lastHandle, excerpt.lastLineFound] at found
  exact (Except.ok.inj found).symm

/-- Through the tokens there is what is between them, with their own parts around it. -/
theorem textOver_splits
    (wellFormed : arena.WellFormed)
    (excerpt : arena.Excerpt left right)
    (between : List SourceLine)
    {before part after lastBefore lastPart lastAfter : List Char}
    (cuts : excerpt.first.Cuts excerpt.firstLine before part after)
    (lastCuts : excerpt.last.Cuts excerpt.lastLine lastBefore lastPart lastAfter)
    (apart : excerpt.firstLine.line = excerpt.lastLine.line →
      excerpt.first.endColumn ≤ excerpt.last.column.toNat) :
    ∃ code,
      excerpt.textOver between excerpt.first.endColumn excerpt.last.column.toNat = .ok code ∧
        excerpt.textOver between excerpt.first.column.toNat excerpt.last.endColumn =
          .ok (part ++ code ++ lastPart) := by
  by_cases same : excerpt.firstLine.line = excerpt.lastLine.line
  · have oneLine := excerpt.sameLine wellFormed same
    rw [← oneLine] at lastCuts
    obtain ⟨inner, whole, lastBegins⟩ := cuts.exists_between lastCuts (apart same)
    have inside :
        excerpt.firstLine.sliceBetween excerpt.first.endColumn excerpt.last.column.toNat =
          .ok inner := by
      have cut : excerpt.firstLine.text.toList =
          (before ++ part) ++ (inner ++ (lastPart ++ lastAfter)) := by
        rw [whole, List.append_assoc]
      refine SourceLine.sliceBetween_eq cut ?_ ?_
      · rw [cuts.ends, Text.byteLength_append]
      · rw [lastCuts.begins, lastBegins, Text.byteLength_append]
    have through :
        excerpt.firstLine.sliceBetween excerpt.first.column.toNat excerpt.last.endColumn =
          .ok (part ++ inner ++ lastPart) := by
      have cut : excerpt.firstLine.text.toList =
          before ++ ((part ++ inner ++ lastPart) ++ lastAfter) := by
        simp [whole]
      refine SourceLine.sliceBetween_eq cut cuts.begins ?_
      simp [lastCuts.ends, lastBegins, Text.byteLength_append, Nat.add_assoc]
    exact ⟨inner, by rw [textOver, if_pos same, inside], by rw [textOver, if_pos same, through]⟩
  · refine ⟨after ++ joined between ++ lastBefore, ?_, ?_⟩
    · simp [textOver, same, cuts.sliceFrom_endColumn, lastCuts.sliceTo_column]
    · simp [textOver, same, cuts.sliceFrom_column, lastCuts.sliceTo_endColumn]

end Excerpt

/--
Between tokens that stand apart in the window, a snippet and the code between
are both found, and the snippet is the left token's part of its line, the code
without the spaces in front of it, and the right token's part of its line.
-/
theorem snippet_is_tokens_around_code
    {arena : Arena}
    {left right : SpanId}
    (reachable : arena.Reachable)
    (excerpt : arena.Excerpt left right)
    (firstInWindow : excerpt.first.line ∈ arena.active)
    (lastInWindow : excerpt.last.line ∈ arena.active)
    (firstAt : excerpt.first.AtBoundaries excerpt.firstLine)
    (lastAt : excerpt.last.AtBoundaries excerpt.lastLine)
    (apart : excerpt.firstLine.line = excerpt.lastLine.line →
      excerpt.first.endColumn ≤ excerpt.last.column.toNat) :
    ∃ head code tail,
      excerpt.first.partOf excerpt.firstLine = .ok head ∧
        excerpt.last.partOf excerpt.lastLine = .ok tail ∧
          arena.codeBetween left right = .ok code ∧
            code.toList.take excerpt.first.endColumn =
                List.replicate excerpt.first.endColumn ' ' ∧
              arena.snippet left right =
                .ok (String.ofList
                  (head ++ code.toList.drop excerpt.first.endColumn ++ tail)) := by
  have wellFormed := reachable.wellFormed
  obtain ⟨firstHandle, lastHandle⟩ := excerpt.lines_eq wellFormed
  have ordered : excerpt.first.line.index ≤ excerpt.last.line.index := by
    rw [← firstHandle, ← lastHandle]
    exact excerpt.inOrder
  obtain ⟨block, inWindow⟩ :=
    windowBetween_succeeds wellFormed.window_increasing firstInWindow lastInWindow ordered
  obtain ⟨before, head, after, cuts⟩ := firstAt.cuts
  obtain ⟨lastBefore, tail, lastAfter, lastCuts⟩ := lastAt.cuts
  obtain ⟨body, inside, through⟩ :=
    excerpt.textOver_splits wellFormed excerpt.inner cuts lastCuts apart
  have code := excerpt.codeBetween_eq wellFormed
  have snippet := excerpt.snippet_eq wellFormed inWindow
  rw [Excerpt.codeOver, inside, ok_bind] at code
  rw [Excerpt.snippetOver, through, ok_bind] at snippet
  refine ⟨head, _, tail, cuts.partOf_eq, lastCuts.partOf_eq, code, ?_, ?_⟩
  · simp
  · simp [snippet]

/-- A block behind a discarded line; a text is evaluated between its two lines. -/
def braceBlock : List Operation :=
  [.openSource .interactive,
    .addLine "old\n" 1,
    .discard,
    .addLine "é \x7b # b\n" 2,
    .addToken .leftBrace 3 1 ⟨1⟩ "\x7b",
    .openSource (.eval ⟨0⟩),
    .addLine "a\n" 1,
    .closeSource,
    .addLine "b; \x7d é\n" 3,
    .addToken .rightBrace 3 1 ⟨3⟩ "\x7d"]

theorem braceBlock_is_braces_around_code :
    (ofHistory braceBlock).Reachable ∧
      ∃ excerpt : (ofHistory braceBlock).Excerpt ⟨0⟩ ⟨1⟩,
        excerpt.first.line ∈ (ofHistory braceBlock).active ∧
          excerpt.last.line ∈ (ofHistory braceBlock).active ∧
            excerpt.first.AtBoundaries excerpt.firstLine ∧
              excerpt.last.AtBoundaries excerpt.lastLine ∧
                (ofHistory braceBlock).codeBetween ⟨0⟩ ⟨1⟩ = .ok "     # b\na\nb; " ∧
                  (ofHistory braceBlock).snippet ⟨0⟩ ⟨1⟩ = .ok "\x7b # b\na\nb; \x7d" := by
  have reachable : (ofHistory braceBlock).Reachable := ⟨braceBlock, rfl⟩
  let excerpt : (ofHistory braceBlock).Excerpt ⟨0⟩ ⟨1⟩ :=
    { first := ⟨.leftBrace, 3, 1, ⟨1⟩, ⟨0⟩, "\x7b"⟩
      last := ⟨.rightBrace, 3, 1, ⟨3⟩, ⟨1⟩, "\x7d"⟩
      firstLine := ⟨⟨1⟩, 2, "é \x7b # b\n", ⟨0⟩⟩
      lastLine := ⟨⟨3⟩, 3, "b; \x7d é\n", ⟨0⟩⟩
      firstFound := ok_of_toOption (by decide +kernel)
      lastFound := ok_of_toOption (by decide +kernel)
      firstLineFound := ok_of_toOption (by decide +kernel)
      lastLineFound := ok_of_toOption (by decide +kernel)
      oneSource := rfl
      inOrder := by decide }
  have window : (ofHistory braceBlock).active = [⟨1⟩, ⟨2⟩, ⟨3⟩] := by decide +kernel
  have firstInWindow : excerpt.first.line ∈ (ofHistory braceBlock).active := by
    rw [window]
    exact List.mem_cons_self
  have lastInWindow : excerpt.last.line ∈ (ofHistory braceBlock).active := by
    rw [window]
    exact List.mem_of_getLast? rfl
  have firstAt : excerpt.first.AtBoundaries excerpt.firstLine :=
    ⟨by decide +kernel, by decide +kernel⟩
  have lastAt : excerpt.last.AtBoundaries excerpt.lastLine :=
    ⟨by decide +kernel, by decide +kernel⟩
  have code : (ofHistory braceBlock).codeBetween ⟨0⟩ ⟨1⟩ = .ok "     # b\na\nb; " :=
    ok_of_toOption (by decide +kernel)
  obtain ⟨head, found, tail, headTaken, tailTaken, codeFound, _, snippet⟩ :=
    snippet_is_tokens_around_code reachable excerpt firstInWindow lastInWindow firstAt lastAt
      fun same => absurd same (by decide)
  have isHead : excerpt.first.partOf excerpt.firstLine = .ok ['\x7b'] :=
    ok_of_toOption (by decide +kernel)
  have isTail : excerpt.last.partOf excerpt.lastLine = .ok ['\x7d'] :=
    ok_of_toOption (by decide +kernel)
  obtain rfl := Except.ok.inj (headTaken.symm.trans isHead)
  obtain rfl := Except.ok.inj (tailTaken.symm.trans isTail)
  obtain rfl := Except.ok.inj (codeFound.symm.trans code)
  exact ⟨reachable, excerpt, firstInWindow, lastInWindow, firstAt, lastAt, code, snippet⟩

end Arena

end ShellCore
