import ShellCore.Proofs.Source.Operation

namespace ShellCore.Arena

/-!
# The tables of an arena

However its operations are mixed, an arena keeps its tables in step: a handle is
a place, records refer to records that exist, the window is the end of the line
table, and the log of saved lines goes on from older lines to newer ones. What
is in a table stays there, and every line carries the source that was innermost
when it was added.
-/

/-- The tables of an arena agree with each other. -/
structure WellFormed (arena : Arena) : Prop where
  lineHandles : ∀ {place : Nat} {line : SourceLine},
    arena.lines[place]? = some line → line.line.index = place
  tokenHandles : ∀ {place : Nat} {token : Token},
    arena.tokens[place]? = some token → token.span.index = place
  tokenLines : ∀ token ∈ arena.tokens, token.line.index < arena.lines.size
  tokenEnds : ∀ token ∈ arena.tokens, token.endColumn < UInt32.size
  lineSources : ∀ line ∈ arena.lines, line.source.index < arena.sources.size
  openSources : ∀ source ∈ arena.openSources, source.index < arena.sources.size
  /-- The window holds the handles given out last, in order. -/
  window : arena.active.map LineId.index <:+ List.range arena.lines.size
  savedIncreasing : arena.saved.Pairwise fun earlier later => earlier.index < later.index
  savedLines : ∀ line ∈ arena.saved, line.index < arena.lines.size
  savedBeforeWindow : ∀ line ∈ arena.saved, ∀ later ∈ arena.active, line.index < later.index
  numerals : ∀ {number : UInt32} {text : String},
    arena.numerals.get? number = some text → text = toString number.toNat

/-- Everything in the tables of one arena stands at the same place in those of another. -/
structure Extends (later earlier : Arena) : Prop where
  lines : earlier.lines.toList <+: later.lines.toList
  tokens : earlier.tokens.toList <+: later.tokens.toList
  sources : earlier.sources.toList <+: later.sources.toList
  saved : earlier.saved <+: later.saved

namespace WellFormed

theorem empty :
    WellFormed .empty where
  lineHandles found := by simp [Arena.empty] at found
  tokenHandles found := by simp [Arena.empty] at found
  tokenLines token member := by simp [Arena.empty] at member
  tokenEnds token member := by simp [Arena.empty] at member
  lineSources line member := by simp [Arena.empty] at member
  openSources source member := by simp [Arena.empty] at member
  window := List.nil_suffix
  savedIncreasing := .nil
  savedLines line member := by simp [Arena.empty] at member
  savedBeforeWindow line member := by simp [Arena.empty] at member
  numerals found := by simp [Arena.empty] at found

variable {arena : Arena}

theorem window_increasing
    (wellFormed : arena.WellFormed) :
    arena.active.Pairwise fun earlier later => earlier.index < later.index := by
  have increasing : (arena.active.map LineId.index).Pairwise (· < ·) :=
    List.pairwise_lt_range.sublist wellFormed.window.sublist
  exact List.pairwise_map.mp increasing

theorem window_known
    (wellFormed : arena.WellFormed)
    {line : LineId}
    (member : line ∈ arena.active) :
    line.index < arena.lines.size := by
  have inRange : line.index ∈ List.range arena.lines.size :=
    wellFormed.window.subset (List.mem_map_of_mem member)
  exact List.mem_range.mp inRange

theorem openSource
    (wellFormed : arena.WellFormed)
    (provenance : Provenance) :
    WellFormed
      { arena with
        sources := arena.sources.push provenance
        openSources := ⟨UInt32.ofNat arena.sources.size⟩ :: arena.openSources } :=
  { wellFormed with
    lineSources := by
      intro line member
      have known := wellFormed.lineSources line member
      simp only [Array.size_push]
      omega
    openSources := by
      intro source member
      simp only [Array.size_push]
      rcases List.mem_cons.mp member with isNew | isOlder
      · subst isNew
        have bounded : (UInt32.ofNat arena.sources.size).toNat ≤ arena.sources.size :=
          Nat.mod_le _ _
        exact Nat.lt_succ_of_le bounded
      · have known := wellFormed.openSources source isOlder
        omega }

theorem addLine
    (wellFormed : arena.WellFormed)
    {line : SourceLine}
    (isOpen : arena.currentSource? = some line.source)
    (place : line.line.index = arena.lines.size) :
    WellFormed
      { arena with
        lines := arena.lines.push line
        active := arena.active ++ [line.line] } :=
  { wellFormed with
    lineHandles := by
      intro found record stands
      rw [Array.getElem?_push] at stands
      split at stands
      next isNew =>
        cases stands
        rw [place, isNew]
      next =>
        exact wellFormed.lineHandles stands
    tokenLines := by
      intro token member
      have known := wellFormed.tokenLines token member
      simp only [Array.size_push]
      omega
    lineSources := by
      intro record member
      rcases Array.mem_push.mp member with isOlder | isNew
      · exact wellFormed.lineSources record isOlder
      · subst isNew
        exact wellFormed.openSources _ (List.mem_of_mem_head? isOpen)
    window := by
      obtain ⟨older, whole⟩ := wellFormed.window
      refine ⟨older, ?_⟩
      simp only [Array.size_push, List.range_succ, List.map_append, List.map_cons,
        List.map_nil, place, ← whole, List.append_assoc]
    savedLines := by
      intro saved member
      have known := wellFormed.savedLines saved member
      simp only [Array.size_push]
      omega
    savedBeforeWindow := by
      intro saved member later inWindow
      rcases List.mem_append.mp inWindow with isOlder | isNew
      · exact wellFormed.savedBeforeWindow saved member later isOlder
      · have known := wellFormed.savedLines saved member
        rw [List.mem_singleton.mp isNew, place]
        exact known }

theorem saveBlock
    (wellFormed : arena.WellFormed)
    {block : List LineId}
    (inWindow : block <:+: arena.active) :
    WellFormed
      { arena with
        saved := arena.saved ++ block
        active := [] } :=
  { wellFormed with
    window := List.nil_suffix
    savedIncreasing := by
      refine List.pairwise_append.mpr ⟨wellFormed.savedIncreasing, ?_, ?_⟩
      · exact wellFormed.window_increasing.sublist inWindow.sublist
      · intro saved member line inBlock
        exact wellFormed.savedBeforeWindow saved member line (inWindow.subset inBlock)
    savedLines := by
      intro line member
      rcases List.mem_append.mp member with isOlder | inBlock
      · exact wellFormed.savedLines line isOlder
      · exact wellFormed.window_known (inWindow.subset inBlock)
    savedBeforeWindow := by
      intro line member later inEmpty
      cases inEmpty }

theorem addToken
    (wellFormed : arena.WellFormed)
    {token : Token}
    (place : token.span.index = arena.tokens.size)
    (known : token.line.index < arena.lines.size)
    (fits : token.endColumn < UInt32.size) :
    WellFormed { arena with tokens := arena.tokens.push token } :=
  { wellFormed with
    tokenHandles := by
      intro found record stands
      rw [Array.getElem?_push] at stands
      split at stands
      next isNew =>
        cases stands
        rw [place, isNew]
      next =>
        exact wellFormed.tokenHandles stands
    tokenLines := by
      intro record member
      rcases Array.mem_push.mp member with isOlder | isNew
      · exact wellFormed.tokenLines record isOlder
      · subst isNew
        exact known
    tokenEnds := by
      intro record member
      rcases Array.mem_push.mp member with isOlder | isNew
      · exact wellFormed.tokenEnds record isOlder
      · subst isNew
        exact fits }

theorem insertNumeral
    (wellFormed : arena.WellFormed)
    (number : UInt32) :
    WellFormed
      { arena with numerals := arena.numerals.insert number (toString number.toNat) } :=
  { wellFormed with
    numerals := by
      intro asked text found
      by_cases same : asked = number
      · subst same
        rw [Table.get?_insert_self] at found
        cases found
        rfl
      · rw [Table.get?_insert_of_ne _ _ same] at found
        exact wellFormed.numerals found }

/-- Every change of an arena keeps its tables in step. -/
theorem changes
    {after : Arena}
    {operation : Operation}
    (wellFormed : arena.WellFormed)
    (change : arena.Changes operation after) :
    after.WellFormed := by
  cases change with
  | openSource provenance => exact wellFormed.openSource provenance
  | closeSource outer =>
      exact { wellFormed with
        openSources := fun source member =>
          wellFormed.openSources source (outer.subset member) }
  | addLine line isOpen place => exact wellFormed.addLine isOpen place
  | discard =>
      exact { wellFormed with
        window := List.nil_suffix
        savedBeforeWindow := fun _ _ _ inEmpty => nomatch inEmpty }
  | saveBlock inWindow => exact wellFormed.saveBlock inWindow
  | addToken token place known fits => exact wellFormed.addToken place known fits
  | lineNumeral number => exact wellFormed.insertNumeral number
  | knownNumeral => exact wellFormed

theorem attempt
    (wellFormed : arena.WellFormed)
    (operation : Operation) :
    (arena.attempt operation).WellFormed := by
  rcases arena.attempt_cases operation with change | refused
  · exact wellFormed.changes change
  · rw [refused]
    exact wellFormed

theorem attemptAll
    (wellFormed : arena.WellFormed)
    (operations : List Operation) :
    (arena.attemptAll operations).WellFormed := by
  induction operations generalizing arena with
  | nil => exact wellFormed
  | cons operation later inductionHypothesis =>
      exact inductionHypothesis (wellFormed.attempt operation)

/-- The source of a line that was added can be looked up. -/
theorem lineSource
    (wellFormed : arena.WellFormed)
    {line : SourceLine}
    (member : line ∈ arena.lines) :
    ∃ provenance, arena.lineSource line.line = .ok provenance := by
  obtain ⟨place, stands⟩ := Array.mem_iff_getElem?.mp member
  have known := wellFormed.lineSources line member
  refine ⟨arena.sources[line.source.index], ?_⟩
  simp only [Arena.lineSource, Arena.line, wellFormed.lineHandles stands, stands, source?,
    Array.getElem?_eq_getElem known]

end WellFormed

namespace Extends

theorem refl
    (arena : Arena) :
    Extends arena arena :=
  ⟨List.prefix_rfl, List.prefix_rfl, List.prefix_rfl, List.prefix_rfl⟩

theorem trans
    {first second third : Arena}
    (later : Extends third second)
    (earlier : Extends second first) :
    Extends third first where
  lines := earlier.lines.trans later.lines
  tokens := earlier.tokens.trans later.tokens
  sources := earlier.sources.trans later.sources
  saved := earlier.saved.trans later.saved

/-- No change takes anything out of a table. -/
theorem changes
    {arena after : Arena}
    {operation : Operation}
    (change : arena.Changes operation after) :
    Extends after arena := by
  cases change with
  | openSource provenance =>
      exact { refl arena with sources := by simp }
  | closeSource outer => exact { refl arena with }
  | addLine line isOpen place =>
      exact { refl arena with lines := by simp }
  | discard => exact { refl arena with }
  | saveBlock inWindow =>
      exact { refl arena with saved := by simp }
  | addToken token place known fits =>
      exact { refl arena with tokens := by simp }
  | lineNumeral number => exact { refl arena with }
  | knownNumeral => exact refl arena

theorem attempt
    (arena : Arena)
    (operation : Operation) :
    Extends (arena.attempt operation) arena := by
  rcases arena.attempt_cases operation with change | refused
  · exact changes change
  · rw [refused]
    exact refl arena

/-- What is in the tables outlasts every later operation. -/
theorem attemptAll
    (arena : Arena)
    (operations : List Operation) :
    Extends (arena.attemptAll operations) arena := by
  induction operations generalizing arena with
  | nil => exact refl arena
  | cons operation later inductionHypothesis =>
      exact (inductionHypothesis (arena.attempt operation)).trans (attempt arena operation)

theorem getElem?_kept
    {earlier later : Array α}
    (kept : earlier.toList <+: later.toList)
    {place : Nat}
    {item : α}
    (stands : earlier[place]? = some item) :
    later[place]? = some item := by
  obtain ⟨known, rfl⟩ := Array.getElem?_eq_some_iff.mp stands
  rw [← Array.getElem?_toList, List.prefix_iff_getElem?.mp kept place (by simpa using known),
    Array.getElem_toList]

variable {earlier later : Arena}

theorem line
    (extended : Extends later earlier)
    {handle : LineId}
    {line : SourceLine}
    (found : earlier.line handle = .ok line) :
    later.line handle = .ok line :=
  line_ok_iff.mpr (getElem?_kept extended.lines (line_ok_iff.mp found))

theorem lineNumber
    (extended : Extends later earlier)
    {handle : LineId}
    {number : UInt32}
    (found : earlier.lineNumber handle = .ok number) :
    later.lineNumber handle = .ok number := by
  unfold Arena.lineNumber at found ⊢
  cases lineFound : earlier.line handle with
  | error error =>
      rw [lineFound] at found
      cases found
  | ok record =>
      rw [lineFound] at found
      rw [extended.line lineFound]
      exact found

theorem token
    (extended : Extends later earlier)
    {span : SpanId}
    {token : Token}
    (found : earlier.token span = .ok token) :
    later.token span = .ok token := by
  obtain ⟨isSome, stands⟩ := token_ok_iff.mp found
  exact token_ok_iff.mpr ⟨isSome, getElem?_kept extended.tokens stands⟩

end Extends

/-- A line of an arena was there before, or an operation added it under the innermost source. -/
theorem attempt_adds
    {arena : Arena}
    {operation : Operation}
    {line : SourceLine}
    (member : line ∈ (arena.attempt operation).lines) :
    line ∈ arena.lines ∨
      operation = .addLine line.text line.number ∧
        line.line.index = arena.lines.size ∧
          arena.currentSource? = some line.source := by
  rcases arena.attempt_cases operation with change | refused
  · generalize arena.attempt operation = after at change member
    cases change with
    | addLine added isOpen place =>
        rcases Array.mem_push.mp member with isOlder | isNew
        · exact .inl isOlder
        · subst isNew
          exact .inr ⟨rfl, place, isOpen⟩
    | _ => exact .inl member
  · rw [refused] at member
    exact .inl member

/-- Every new line was added at some point, as the next one and under the source innermost there. -/
theorem attemptAll_adds
    {arena : Arena}
    {operations : List Operation}
    {line : SourceLine}
    (member : line ∈ (arena.attemptAll operations).lines) :
    line ∈ arena.lines ∨
      ∃ earlier later,
        operations = earlier ++ .addLine line.text line.number :: later ∧
          line.line.index = (arena.attemptAll earlier).lines.size ∧
            (arena.attemptAll earlier).currentSource? = some line.source := by
  induction operations generalizing arena with
  | nil => exact .inl member
  | cons operation rest inductionHypothesis =>
      rcases inductionHypothesis member with inFirst | ⟨earlier, later, shape, place, isOpen⟩
      · rcases attempt_adds inFirst with isOlder | ⟨added, place, isOpen⟩
        · exact .inl isOlder
        · exact .inr ⟨[], rest, by rw [added, List.nil_append], place, isOpen⟩
      · exact .inr ⟨operation :: earlier, later, by rw [shape, List.cons_append], place, isOpen⟩

/--
Whatever was done to the empty arena, its tables agree with each other, the
source of every line is the one that was innermost when the line was added, and
later operations leave what is in the tables where it is; one that is refused
leaves the whole arena as it is.
-/
theorem ofHistory_represents
    (operations : List Operation) :
    (ofHistory operations).WellFormed ∧
      (∀ line ∈ (ofHistory operations).lines,
        (∃ provenance, (ofHistory operations).lineSource line.line = .ok provenance) ∧
          ∃ earlier later,
            operations = earlier ++ .addLine line.text line.number :: later ∧
              line.line.index = (ofHistory earlier).lines.size ∧
                (ofHistory earlier).currentSource? = some line.source) ∧
        (∀ later, (ofHistory (operations ++ later)).Extends (ofHistory operations)) ∧
          ∀ operation error,
            ((ofHistory operations).perform operation).1 = .error error →
            ((ofHistory operations).perform operation).2 = ofHistory operations ∧
              ∀ later,
                ofHistory (operations ++ operation :: later) =
                  ofHistory (operations ++ later) := by
  have wellFormed : (ofHistory operations).WellFormed :=
    WellFormed.empty.attemptAll operations
  refine ⟨wellFormed, ?_, ?_, ?_⟩
  · intro line member
    refine ⟨wellFormed.lineSource member, ?_⟩
    rcases attemptAll_adds member with inEmpty | added
    · simp [Arena.empty] at inEmpty
    · exact added
  · intro later
    rw [ofHistory_append]
    exact .attemptAll _ later
  · intro operation error refused
    have unchanged : (ofHistory operations).attempt operation = ofHistory operations :=
      attempt_of_refused refused
    refine ⟨unchanged, fun later => ?_⟩
    rw [ofHistory_append, attemptAll_cons, unchanged, ofHistory_append]

/-- A block with an evaluated text inside, saved before another line follows it. -/
def evaluatingBlock : List Operation :=
  [.openSource .interactive, .addLine "\x7b\n" 1, .addToken .leftBrace 0 1 ⟨0⟩ "\x7b",
    .openSource (.eval ⟨0⟩), .addLine "a\n" 1, .closeSource,
    .addLine "\x7d\n" 2, .addToken .rightBrace 0 1 ⟨2⟩ "\x7d", .saveBlock ⟨0⟩ ⟨1⟩,
    .addLine "b\n" 3, .lineNumeral ⟨3⟩, .closeSource]

theorem evaluatingBlock_represents :
    (ofHistory evaluatingBlock).saved = [⟨0⟩, ⟨1⟩, ⟨2⟩] ∧
      (ofHistory evaluatingBlock).WellFormed ∧
      (∃ line ∈ (ofHistory evaluatingBlock).lines,
        line.text = "a\n" ∧
          ∃ earlier later,
            evaluatingBlock = earlier ++ .addLine line.text line.number :: later ∧
              (ofHistory earlier).currentSource? = some line.source) ∧
      (ofHistory (evaluatingBlock ++ [.addLine "c\n" 4])).Extends (ofHistory evaluatingBlock) ∧
      ((ofHistory evaluatingBlock).perform .closeSource).1 = .error .sourceStackEmpty ∧
      ((ofHistory evaluatingBlock).perform .closeSource).2 = ofHistory evaluatingBlock ∧
      ofHistory (evaluatingBlock ++ [.closeSource]) = ofHistory evaluatingBlock := by
  obtain ⟨wellFormed, added, extended, unchanged⟩ := ofHistory_represents evaluatingBlock
  have member :
      (⟨⟨1⟩, 1, "a\n", ⟨1⟩⟩ : SourceLine) ∈ (ofHistory evaluatingBlock).lines :=
    Array.mem_iff_getElem?.mpr ⟨1, rfl⟩
  obtain ⟨_, earlier, later, shape, _, isOpen⟩ := added _ member
  have refused :
      ((ofHistory evaluatingBlock).perform .closeSource).1 = .error .sourceStackEmpty := rfl
  obtain ⟨kept, skipped⟩ := unchanged .closeSource _ refused
  exact ⟨rfl, wellFormed, ⟨_, member, rfl, earlier, later, shape, isOpen⟩,
    extended _, refused, kept, skipped []⟩

end ShellCore.Arena
