import ShellCore.Proofs.Source.Agreement
import ShellCore.Proofs.Source.WindowSearch

namespace ShellCore

/-!
# Tokens in the wrong order

Between tokens that are given in the wrong order there is no text. Through them there
is none either, unless they touch: then what is taken begins where it ends, and is the
empty text.
-/

namespace SourceLine

variable {line : SourceLine} {first last : Nat}

/-- There is nothing between columns in the wrong order. -/
theorem sliceBetween_reversed
    (line : SourceLine)
    (reversed : last < first) :
    ∃ error, line.sliceBetween first last = .error error := by
  have missing : Text.sliceBytes? line.text.toList first last = none :=
    if_neg (Nat.not_le_of_lt reversed)
  rw [sliceBetween, missing]
  dsimp only
  split
  · exact ⟨_, rfl⟩
  · exact ⟨_, rfl⟩

/-- Between a boundary and itself there is the empty part. -/
theorem sliceBetween_self
    (boundary : Text.isBoundary line.text.toList first = true) :
    line.sliceBetween first first = .ok [] := by
  obtain ⟨before, after, whole, length⟩ := Text.exists_cut_of_isBoundary boundary
  have aroundNothing : line.text.toList = before ++ ([] ++ after) := whole
  exact sliceBetween_eq aroundNothing length.symm length.symm

end SourceLine

namespace Arena

variable {arena : Arena} {left right : SpanId}

/-- Tokens in the wrong order have no code between them. -/
theorem Excerpt.codeBetween_reversed
    (excerpt : arena.Excerpt left right)
    (nonempty : 0 < excerpt.last.length.toNat)
    (apart : excerpt.firstLine.line = excerpt.lastLine.line →
      excerpt.first.endColumn ≤ excerpt.last.column.toNat) :
    ∃ error, arena.codeBetween right left = .error error := by
  rw [codeBetween, excerpt.lastFound, ok_bind, excerpt.firstFound, ok_bind,
    excerpt.lastLineFound, ok_bind, excerpt.firstLineFound, ok_bind,
    if_neg (not_not.mpr excerpt.oneSource.symm)]
  split
  · exact ⟨_, rfl⟩
  next notBefore =>
    have same : excerpt.lastLine.line = excerpt.firstLine.line :=
      eq_of_index_eq (Nat.le_antisymm (Nat.le_of_not_lt notBefore) excerpt.inOrder)
    have reversed : excerpt.first.column.toNat < excerpt.last.endColumn := by
      have ordered := apart same.symm
      unfold Token.endColumn at ordered ⊢
      omega
    obtain ⟨error, refused⟩ := excerpt.lastLine.sliceBetween_reversed reversed
    dsimp only
    rw [if_pos same, refused]
    exact ⟨error, rfl⟩

/-- Through tokens of one line in the wrong order there is what stands between them. -/
theorem Excerpt.snippet_reversed
    (wellFormed : arena.WellFormed)
    (excerpt : arena.Excerpt left right)
    (same : excerpt.firstLine.line = excerpt.lastLine.line)
    (known : excerpt.first.line ∈ arena.active) :
    arena.snippet right left =
      excerpt.lastLine.sliceBetween excerpt.last.column.toNat excerpt.first.endColumn >>=
        fun characters => .ok (String.ofList characters) := by
  obtain ⟨firstHandle, lastHandle⟩ := excerpt.lines_eq wellFormed
  have oneLine : excerpt.last.line = excerpt.first.line := by
    rw [← lastHandle, ← same, firstHandle]
  have lineFound := excerpt.lastLineFound
  have search := wellFormed.windowBetween_eq_iff.mpr (.found known known (Nat.le_refl _))
  rw [linesThrough_self] at search
  rw [oneLine] at lineFound
  rw [snippet, excerpt.lastFound, ok_bind, excerpt.firstFound, ok_bind, oneLine, search, ok_bind]
  dsimp only
  rw [lineFound, ok_bind]

theorem Excerpt.snippet_reversed_iff
    (wellFormed : arena.WellFormed)
    (excerpt : arena.Excerpt left right)
    (lastAt : excerpt.last.AtBoundaries excerpt.lastLine)
    (apart : excerpt.firstLine.line = excerpt.lastLine.line →
      excerpt.first.endColumn ≤ excerpt.last.column.toNat)
    (text : String) :
    arena.snippet right left = .ok text ↔
      text = "" ∧
        excerpt.firstLine.line = excerpt.lastLine.line ∧
          excerpt.first.line ∈ arena.active ∧
            excerpt.first.endColumn = excerpt.last.column.toNat := by
  obtain ⟨firstHandle, lastHandle⟩ := excerpt.lines_eq wellFormed
  have inOrder := excerpt.inOrder
  constructor
  · intro taken
    have ⟨same, known⟩ :
        excerpt.firstLine.line = excerpt.lastLine.line ∧ excerpt.first.line ∈ arena.active := by
      obtain ⟨block, search⟩ :=
        windowBetween_of_snippet excerpt.lastFound excerpt.firstFound taken
      cases wellFormed.windowBetween_eq_iff.mp search with
      | found lastKnown firstKnown notAfter =>
          rw [← lastHandle, ← firstHandle] at notAfter
          exact ⟨eq_of_index_eq (Nat.le_antisymm inOrder notAfter), firstKnown⟩
    rw [excerpt.snippet_reversed wellFormed same known] at taken
    obtain ⟨characters, slice, taken⟩ := bind_ok_iff.mp taken
    have touching : excerpt.first.endColumn = excerpt.last.column.toNat := by
      refine Nat.le_antisymm (apart same) (Nat.le_of_not_lt fun reversed => ?_)
      obtain ⟨error, refused⟩ := excerpt.lastLine.sliceBetween_reversed reversed
      rw [slice] at refused
      cases refused
    rw [touching, SourceLine.sliceBetween_self lastAt.begins] at slice
    cases slice
    cases taken
    exact ⟨rfl, same, known, touching⟩
  · rintro ⟨rfl, same, known, touching⟩
    rw [excerpt.snippet_reversed wellFormed same known, touching,
      SourceLine.sliceBetween_self lastAt.begins]
    rfl

/--
Between tokens that are given in the wrong order there is never a text. Through them
there is one exactly if they touch on one line of the window, and then it is empty.
-/
theorem reversed_tokens_yield_text_iff_touching
    (reachable : arena.Reachable)
    (excerpt : arena.Excerpt left right)
    (lastAt : excerpt.last.AtBoundaries excerpt.lastLine)
    (nonempty : 0 < excerpt.last.length.toNat)
    (apart : excerpt.firstLine.line = excerpt.lastLine.line →
      excerpt.first.endColumn ≤ excerpt.last.column.toNat) :
    (∃ error, arena.codeBetween right left = .error error) ∧
      ∀ text,
        arena.snippet right left = .ok text ↔
          text = "" ∧
            excerpt.firstLine.line = excerpt.lastLine.line ∧
              excerpt.first.line ∈ arena.active ∧
                excerpt.first.endColumn = excerpt.last.column.toNat :=
  ⟨excerpt.codeBetween_reversed nonempty apart,
    excerpt.snippet_reversed_iff reachable.wellFormed lastAt apart⟩

/-- Three tokens of a line, of which the first two touch. -/
def listedWords : List Operation :=
  [.openSource .interactive,
    .addLine "a; b\n" 1,
    .addToken .word 0 1 ⟨0⟩ "a",
    .addToken .operator 1 1 ⟨0⟩ ";",
    .addToken .word 3 1 ⟨0⟩ "b"]

theorem listedWords_yield_nothing_reversed :
    (ofHistory listedWords).Reachable ∧
      ∃ excerpt : (ofHistory listedWords).Excerpt ⟨0⟩ ⟨2⟩,
        excerpt.last.AtBoundaries excerpt.lastLine ∧
          0 < excerpt.last.length.toNat ∧
            excerpt.first.endColumn < excerpt.last.column.toNat ∧
              (∃ error, (ofHistory listedWords).codeBetween ⟨2⟩ ⟨0⟩ = .error error) ∧
                ∀ text, (ofHistory listedWords).snippet ⟨2⟩ ⟨0⟩ ≠ .ok text := by
  have reachable : (ofHistory listedWords).Reachable := ⟨listedWords, rfl⟩
  let excerpt : (ofHistory listedWords).Excerpt ⟨0⟩ ⟨2⟩ :=
    { first := ⟨.word, 0, 1, ⟨0⟩, ⟨0⟩, "a"⟩
      last := ⟨.word, 3, 1, ⟨0⟩, ⟨2⟩, "b"⟩
      firstLine := ⟨⟨0⟩, 1, "a; b\n", ⟨0⟩⟩
      lastLine := ⟨⟨0⟩, 1, "a; b\n", ⟨0⟩⟩
      firstFound := ok_of_toOption (by decide +kernel)
      lastFound := ok_of_toOption (by decide +kernel)
      firstLineFound := ok_of_toOption (by decide +kernel)
      lastLineFound := ok_of_toOption (by decide +kernel)
      oneSource := rfl
      inOrder := Nat.le_refl _ }
  have lastAt : excerpt.last.AtBoundaries excerpt.lastLine :=
    ⟨by decide +kernel, by decide +kernel⟩
  have apart : excerpt.first.endColumn < excerpt.last.column.toNat := by decide
  obtain ⟨noCode, snippet⟩ :=
    reversed_tokens_yield_text_iff_touching reachable excerpt lastAt (by decide)
      fun _ => Nat.le_of_lt apart
  refine ⟨reachable, excerpt, lastAt, by decide, apart, noCode, fun text taken => ?_⟩
  obtain ⟨_, _, _, touching⟩ := (snippet text).mp taken
  exact Nat.ne_of_lt apart touching

/-- Through two words that touch there is an empty text if they are given in the wrong order. -/
theorem touching_tokens_yield_empty_text :
    (ofHistory listedWords).Reachable ∧
      ∃ excerpt : (ofHistory listedWords).Excerpt ⟨0⟩ ⟨1⟩,
        excerpt.first.AtBoundaries excerpt.firstLine ∧
          excerpt.last.AtBoundaries excerpt.lastLine ∧
            0 < excerpt.first.length.toNat ∧
              0 < excerpt.last.length.toNat ∧
                excerpt.first.endColumn = excerpt.last.column.toNat ∧
                  (ofHistory listedWords).snippet ⟨1⟩ ⟨0⟩ = .ok "" := by
  have reachable : (ofHistory listedWords).Reachable := ⟨listedWords, rfl⟩
  let excerpt : (ofHistory listedWords).Excerpt ⟨0⟩ ⟨1⟩ :=
    { first := ⟨.word, 0, 1, ⟨0⟩, ⟨0⟩, "a"⟩
      last := ⟨.operator, 1, 1, ⟨0⟩, ⟨1⟩, ";"⟩
      firstLine := ⟨⟨0⟩, 1, "a; b\n", ⟨0⟩⟩
      lastLine := ⟨⟨0⟩, 1, "a; b\n", ⟨0⟩⟩
      firstFound := ok_of_toOption (by decide +kernel)
      lastFound := ok_of_toOption (by decide +kernel)
      firstLineFound := ok_of_toOption (by decide +kernel)
      lastLineFound := ok_of_toOption (by decide +kernel)
      oneSource := rfl
      inOrder := Nat.le_refl _ }
  exact ⟨reachable, excerpt, ⟨by decide +kernel, by decide +kernel⟩,
    ⟨by decide +kernel, by decide +kernel⟩, by decide, by decide, by decide,
    ok_of_toOption (by decide +kernel)⟩

end Arena

end ShellCore
