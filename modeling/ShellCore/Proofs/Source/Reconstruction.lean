import ShellCore.Proofs.Source.Reachable

namespace ShellCore.Arena

/-!
# Text taken back from an arena

Both ways of taking text back join whole lines by their handles: from the line
table, or from the window. Either way the lines between the ends are all lines
added between them, whatever source those belong to. So the text is that of the
ends' own source exactly when no other source put a text in between.
-/

/-- The lines added after one line and before another. -/
def linesWithin
    (arena : Arena)
    (first last : LineId) :
    List SourceLine :=
  (arena.lines.toList.take last.index).drop (first.index + 1)

/-- The texts of lines, one after the other. -/
def joined
    (lines : List SourceLine) :
    List Char :=
  lines.flatMap (·.text.toList)

/-- Two tokens on lines of one source, the left one's not after the right one's. -/
structure Excerpt (arena : Arena) (left right : SpanId) where
  first : Token
  last : Token
  firstLine : SourceLine
  lastLine : SourceLine
  firstFound : arena.token left = .ok first
  lastFound : arena.token right = .ok last
  firstLineFound : arena.line first.line = .ok firstLine
  lastLineFound : arena.line last.line = .ok lastLine
  oneSource : firstLine.source = lastLine.source
  inOrder : firstLine.line.index ≤ lastLine.line.index

namespace Excerpt

variable {arena : Arena} {left right : SpanId}

/-- Every line between the ends. -/
def inner
    (excerpt : arena.Excerpt left right) :
    List SourceLine :=
  arena.linesWithin excerpt.firstLine.line excerpt.lastLine.line

/-- The lines between the ends that belong to their source. -/
def own
    (excerpt : arena.Excerpt left right) :
    List SourceLine :=
  excerpt.inner.filter fun line => line.source = excerpt.firstLine.source

/-- The text from a column of the first line to one of the last, with some lines between them. -/
def textOver
    (excerpt : arena.Excerpt left right)
    (between : List SourceLine)
    (firstColumn lastColumn : Nat) :
    Except ArenaError (List Char) :=
  if excerpt.firstLine.line = excerpt.lastLine.line then
    excerpt.firstLine.sliceBetween firstColumn lastColumn
  else do
    let head ← excerpt.firstLine.sliceFrom firstColumn
    let tail ← excerpt.lastLine.sliceTo lastColumn
    .ok (head ++ joined between ++ tail)

/-- The text strictly between the tokens, over some lines, at its own columns. -/
def codeOver
    (excerpt : arena.Excerpt left right)
    (between : List SourceLine) :
    Except ArenaError String := do
  let body ← excerpt.textOver between excerpt.first.endColumn excerpt.last.column.toNat
  .ok (String.ofList (List.replicate excerpt.first.endColumn ' ' ++ body))

/-- The text from the left token through the right one, over some lines. -/
def snippetOver
    (excerpt : arena.Excerpt left right)
    (between : List SourceLine) :
    Except ArenaError String := do
  let body ← excerpt.textOver between excerpt.first.column.toNat excerpt.last.endColumn
  .ok (String.ofList body)

/-- No other source put a text between the ends. -/
def Undisturbed
    (excerpt : arena.Excerpt left right) :
    Prop :=
  ∀ line ∈ excerpt.inner, line.source ≠ excerpt.firstLine.source → line.text = ""

end Excerpt

theorem length_joined_filter_le
    (lines : List SourceLine)
    (keeps : SourceLine → Bool) :
    (joined (lines.filter keeps)).length ≤ (joined lines).length := by
  induction lines with
  | nil =>
      exact Nat.le_refl _
  | cons line rest inductionHypothesis =>
      by_cases kept : keeps line
      · simpa [joined, kept] using inductionHypothesis
      · simp only [joined, List.filter_cons, kept, Bool.false_eq_true, if_false,
          List.flatMap_cons, List.length_append] at inductionHypothesis ⊢
        omega

/-- Leaving lines out of a joined text changes nothing exactly if they have no text. -/
theorem joined_filter_eq_iff
    (lines : List SourceLine)
    (keeps : SourceLine → Bool) :
    joined (lines.filter keeps) = joined lines ↔
      ∀ line ∈ lines, keeps line = false → line.text = "" := by
  induction lines with
  | nil =>
      simp [joined]
  | cons line rest inductionHypothesis =>
      by_cases kept : keeps line
      · simpa [joined, kept] using inductionHypothesis
      · have shorter := length_joined_filter_le rest keeps
        simp only [List.filter_cons, kept, Bool.false_eq_true, if_false, List.forall_mem_cons,
          true_implies]
        constructor
        · intro same
          have lengths := congrArg List.length same
          simp only [joined, List.flatMap_cons, List.length_append] at lengths shorter
          have isEmpty : line.text.toList = [] := List.length_eq_zero_iff.mp (by omega)
          refine ⟨String.toList_eq_nil_iff.mp isEmpty, inductionHypothesis.mp ?_⟩
          simpa [joined, isEmpty] using same
        · rintro ⟨isEmpty, restEmpty⟩
          have same := inductionHypothesis.mpr restEmpty
          simpa [joined, isEmpty] using same

/-- A handle is known by the place that it names. -/
theorem eq_of_index_eq
    {first second : LineId}
    (same : first.index = second.index) :
    first = second :=
  congrArg LineId.mk (UInt32.toNat_inj.mp same)

theorem map_index_inj
    {first second : List LineId}
    (same : first.map LineId.index = second.map LineId.index) :
    first = second :=
  (List.map_inj_right fun _ _ => eq_of_index_eq).mp same

/-- A handle made of a place names it if the place fits a word. -/
theorem map_index_handles
    {places : List Nat}
    (fit : ∀ place ∈ places, place < UInt32.size) :
    (places.map fun place => (⟨UInt32.ofNat place⟩ : LineId)).map LineId.index = places := by
  rw [List.map_map]
  refine (List.map_congr_left fun place member => ?_).trans (List.map_id _)
  exact UInt32.toNat_ofNat_of_lt' (fit place member)

theorem linesBetween_places
    (first last : LineId) :
    (linesBetween first last).map LineId.index =
      List.range' (first.index + 1) (last.index - (first.index + 1)) := by
  refine map_index_handles fun place member => ?_
  have ⟨after, before⟩ := List.mem_range'_1.mp member
  have fits := UInt32.toNat_lt_size last.value
  exact Nat.lt_trans (m := last.index) (by omega) fits

namespace WellFormed

variable {arena : Arena}

theorem line_of_member
    (wellFormed : arena.WellFormed)
    {line : SourceLine}
    (member : line ∈ arena.lines) :
    arena.line line.line = .ok line := by
  obtain ⟨place, stands⟩ := Array.mem_iff_getElem?.mp member
  exact line_ok_iff.mpr (by rw [wellFormed.lineHandles stands, stands])

theorem line_ok
    (wellFormed : arena.WellFormed)
    {handle : LineId}
    {line : SourceLine}
    (found : arena.line handle = .ok line) :
    line.line = handle ∧ handle.index < arena.lines.size := by
  have stands := line_ok_iff.mp found
  obtain ⟨known, _⟩ := Array.getElem?_eq_some_iff.mp stands
  exact ⟨eq_of_index_eq (wellFormed.lineHandles stands), known⟩

/-- The handles of the line table are its places. -/
theorem handles
    (wellFormed : arena.WellFormed) :
    arena.lines.toList.map (·.line.index) = List.range arena.lines.size := by
  refine List.ext_getElem (by simp) fun place known _ => ?_
  have inTable : place < arena.lines.size := by simpa using known
  rw [List.getElem_map, List.getElem_range, Array.getElem_toList]
  exact wellFormed.lineHandles (Array.getElem?_eq_getElem inTable)

/-- The lines after one line and before another are those with the handles in between. -/
theorem linesWithin_handles
    (wellFormed : arena.WellFormed)
    {first last : LineId}
    (known : last.index < arena.lines.size) :
    (arena.linesWithin first last).map (·.line) = linesBetween first last := by
  refine map_index_inj ?_
  have inTable :
      ((arena.linesWithin first last).map (·.line)).map LineId.index =
        List.range' (first.index + 1) (last.index - (first.index + 1)) := by
    have places := wellFormed.handles
    simp only [linesWithin, List.map_drop, List.map_take, List.map_map]
    simp only [Function.comp_def, places, List.take_range, Nat.min_eq_left (Nat.le_of_lt known)]
    rw [List.range_eq_range', List.drop_range']
    simp
  rw [inTable, linesBetween_places]

end WellFormed

/-- The whole lines between two lines are always found. -/
theorem wholeLines_map
    {arena : Arena}
    {lines : List SourceLine}
    (known : ∀ line ∈ lines, arena.line line.line = .ok line) :
    arena.wholeLines (lines.map (·.line)) = .ok (joined lines) := by
  induction lines with
  | nil => rfl
  | cons line rest inductionHypothesis =>
      obtain ⟨found, restKnown⟩ := List.forall_mem_cons.mp known
      simp only [List.map_cons, wholeLines, found, inductionHypothesis restKnown]
      rfl

theorem joinLines_map
    {arena : Arena}
    {lines : List SourceLine}
    {last : SourceLine}
    (known : ∀ line ∈ lines, arena.line line.line = .ok line)
    (lastKnown : arena.line last.line = .ok last)
    (column : Nat) :
    arena.joinLines column (lines.map (·.line) ++ [last.line]) =
      last.sliceTo column >>= fun tail => .ok (joined lines ++ tail) := by
  induction lines with
  | nil =>
      simp only [List.map_nil, List.nil_append, joinLines, lastKnown]
      change last.sliceTo column = _
      cases last.sliceTo column <;> rfl
  | cons line rest inductionHypothesis =>
      obtain ⟨found, restKnown⟩ := List.forall_mem_cons.mp known
      have more : rest.map (·.line) ++ [last.line] ≠ [] := by simp
      rw [List.map_cons, List.cons_append, joinLines.eq_3 _ _ _ _ more, found,
        inductionHypothesis restKnown]
      cases last.sliceTo column with
      | error error => rfl
      | ok tail =>
          exact congrArg Except.ok (by simp [joined])

/-- A run of the first numbers is known by its ends. -/
theorem infix_range_eq
    {block : List Nat}
    {size first last : Nat}
    (inRange : block <:+: List.range size)
    (head : block.head? = some first)
    (final : block.getLast? = some last) :
    first ≤ last ∧ block = List.range' first (last + 1 - first) := by
  obtain ⟨earlier, later, whole⟩ := inRange
  rw [List.range_eq_range', eq_comm, List.append_assoc, List.range'_eq_append_iff] at whole
  obtain ⟨skipped, _, _, rest⟩ := whole
  rw [eq_comm, List.range'_eq_append_iff] at rest
  obtain ⟨taken, _, shape, _⟩ := rest
  rw [shape] at head final ⊢
  cases taken with
  | zero => cases head
  | succ more =>
      simp only [List.range'_succ, List.head?_cons, Option.some.injEq] at head
      simp only [List.getLast?_range', Nat.succ_ne_zero, if_false, Option.some.injEq] at final
      have count : more + 1 = last + 1 - first := by omega
      refine ⟨by omega, ?_⟩
      rw [← count, ← head]

namespace WellFormed

variable {arena : Arena}

/-- A block of the window holds every handle from its first line's to its last line's. -/
theorem window_places
    (wellFormed : arena.WellFormed)
    {left right : LineId}
    {block : List LineId}
    (found : arena.windowBetween left right = .ok block) :
    left.index ≤ right.index ∧
      block.map LineId.index = List.range' left.index (right.index + 1 - left.index) := by
  obtain ⟨inWindow, head, final⟩ := windowBetween_ok found
  have inRange : block.map LineId.index <:+: List.range arena.lines.size :=
    (inWindow.map _).trans wellFormed.window.isInfix
  exact infix_range_eq inRange
    (by rw [List.head?_map, head]; rfl) (by rw [List.getLast?_map, final]; rfl)

/-- A block of the window is one line, or its ends and all lines added between them. -/
theorem window_block
    (wellFormed : arena.WellFormed)
    {left right : LineId}
    {block : List LineId}
    (found : arena.windowBetween left right = .ok block) :
    block = if left = right then [left] else left :: (linesBetween left right ++ [right]) := by
  obtain ⟨ordered, places⟩ := wellFormed.window_places found
  refine map_index_inj ?_
  rw [places]
  split
  next same =>
    rw [same]
    simp
  next differ =>
    have before : left.index < right.index :=
      Nat.lt_of_le_of_ne ordered fun same => differ (eq_of_index_eq same)
    have count : right.index + 1 - left.index = right.index - (left.index + 1) + 1 + 1 := by
      omega
    have final : left.index + 1 + (right.index - (left.index + 1)) = right.index := by
      omega
    rw [List.map_cons, List.map_append, linesBetween_places, count, List.range'_succ,
      List.range'_concat, Nat.one_mul, final]
    rfl

end WellFormed

namespace Excerpt

variable {arena : Arena} {left right : SpanId}

/-- The tokens stand on the lines of the excerpt's ends. -/
theorem lines_eq
    (wellFormed : arena.WellFormed)
    (excerpt : arena.Excerpt left right) :
    excerpt.firstLine.line = excerpt.first.line ∧ excerpt.lastLine.line = excerpt.last.line :=
  ⟨(wellFormed.line_ok excerpt.firstLineFound).1, (wellFormed.line_ok excerpt.lastLineFound).1⟩

theorem inner_known
    (wellFormed : arena.WellFormed)
    (excerpt : arena.Excerpt left right) :
    ∀ line ∈ excerpt.inner, arena.line line.line = .ok line := by
  intro line member
  have inTable : line ∈ arena.lines.toList := List.mem_of_mem_take (List.mem_of_mem_drop member)
  exact wellFormed.line_of_member (Array.mem_toList_iff.mp inTable)

/-- The code between two tokens is taken over every line between them. -/
theorem codeBetween_eq
    (wellFormed : arena.WellFormed)
    (excerpt : arena.Excerpt left right) :
    arena.codeBetween left right = excerpt.codeOver excerpt.inner := by
  obtain ⟨lastHandle, lastKnown⟩ := wellFormed.line_ok excerpt.lastLineFound
  have middle :
      arena.wholeLines (linesBetween excerpt.firstLine.line excerpt.lastLine.line) =
        .ok (joined excerpt.inner) := by
    rw [← wellFormed.linesWithin_handles (lastHandle ▸ lastKnown)]
    exact wholeLines_map (excerpt.inner_known wellFormed)
  have ordered : ¬ excerpt.lastLine.line.index < excerpt.firstLine.line.index :=
    Nat.not_lt.mpr excerpt.inOrder
  by_cases same : excerpt.firstLine.line = excerpt.lastLine.line
  · simp only [codeBetween, codeOver, textOver, excerpt.firstFound, excerpt.lastFound,
      excerpt.firstLineFound, excerpt.lastLineFound, ok_bind, excerpt.oneSource, ne_eq,
      not_true_eq_false, if_false, ordered, if_pos same]
  · simp only [codeBetween, codeOver, textOver, excerpt.firstFound, excerpt.lastFound,
      excerpt.firstLineFound, excerpt.lastLineFound, ok_bind, excerpt.oneSource, ne_eq,
      not_true_eq_false, if_false, ordered, if_neg same, middle, bind_assoc]

/-- So is a snippet, if the lines are in the window. -/
theorem snippet_eq
    (wellFormed : arena.WellFormed)
    (excerpt : arena.Excerpt left right)
    {block : List LineId}
    (inWindow : arena.windowBetween excerpt.first.line excerpt.last.line = .ok block) :
    arena.snippet left right = excerpt.snippetOver excerpt.inner := by
  obtain ⟨firstHandle, _⟩ := wellFormed.line_ok excerpt.firstLineFound
  obtain ⟨lastHandle, lastKnown⟩ := wellFormed.line_ok excerpt.lastLineFound
  have shape := wellFormed.window_block inWindow
  have firstFound := excerpt.firstLineFound
  have lastFound := excerpt.lastLineFound
  rw [← firstHandle] at shape firstFound
  rw [← lastHandle] at shape lastFound
  by_cases same : excerpt.firstLine.line = excerpt.lastLine.line
  · rw [shape, if_pos same] at inWindow
    simp only [snippet, snippetOver, textOver, excerpt.firstFound, excerpt.lastFound, ok_bind,
      inWindow, firstFound, if_pos same]
  · rw [shape, if_neg same] at inWindow
    have following :
        arena.joinLines excerpt.last.endColumn
            (linesBetween excerpt.firstLine.line excerpt.lastLine.line ++
              [excerpt.lastLine.line]) =
          excerpt.lastLine.sliceTo excerpt.last.endColumn >>= fun tail =>
            .ok (joined excerpt.inner ++ tail) := by
      rw [← wellFormed.linesWithin_handles (lastHandle ▸ lastKnown)]
      exact joinLines_map (excerpt.inner_known wellFormed) lastFound _
    obtain ⟨next, later, more⟩ :
        ∃ next later,
          linesBetween excerpt.firstLine.line excerpt.lastLine.line ++
            [excerpt.lastLine.line] = next :: later :=
      List.exists_cons_of_ne_nil (by simp)
    rw [more] at inWindow following
    simp only [snippet, snippetOver, textOver, excerpt.firstFound, excerpt.lastFound, ok_bind,
      inWindow, firstFound, if_neg same, following, bind_assoc, List.append_assoc]

/-- Over the lines of the ends' own source the text is the same iff no other line has text. -/
theorem textOver_own_iff
    (excerpt : arena.Excerpt left right)
    {firstColumn lastColumn : Nat}
    {text : List Char}
    (taken : excerpt.textOver excerpt.inner firstColumn lastColumn = .ok text) :
    excerpt.textOver excerpt.own firstColumn lastColumn = .ok text ↔ excerpt.Undisturbed := by
  by_cases same : excerpt.firstLine.line = excerpt.lastLine.line
  · have noneBetween : excerpt.inner = [] := by
      rw [inner, linesWithin, same]
      refine List.drop_eq_nil_of_le ?_
      rw [List.length_take]
      omega
    simp only [textOver, if_pos same] at taken ⊢
    simp [taken, Undisturbed, noneBetween]
  · simp only [textOver, if_neg same] at taken ⊢
    obtain ⟨head, headTaken, taken⟩ := bind_ok_iff.mp taken
    obtain ⟨tail, tailTaken, taken⟩ := bind_ok_iff.mp taken
    cases taken
    rw [headTaken, ok_bind, tailTaken, ok_bind, Except.ok.injEq, List.append_left_inj,
      List.append_right_inj, own, joined_filter_eq_iff]
    simp [Undisturbed]

/-- A text that is laid out without loss is the same exactly if its body is. -/
theorem laidOut_iff
    {body : Except ArenaError (List Char)}
    {layOut : List Char → String}
    {characters : List Char}
    (lossless : ∀ {first second}, layOut first = layOut second → first = second) :
    (body >>= fun found => .ok (layOut found)) = .ok (layOut characters) ↔
      body = .ok characters := by
  cases body with
  | error error => simp [bind, Except.bind]
  | ok found =>
      rw [ok_bind, Except.ok.injEq, Except.ok.injEq]
      exact ⟨lossless, congrArg layOut⟩

theorem codeOver_own_iff
    (excerpt : arena.Excerpt left right)
    {text : String}
    (taken : excerpt.codeOver excerpt.inner = .ok text) :
    excerpt.codeOver excerpt.own = .ok text ↔ excerpt.Undisturbed := by
  obtain ⟨body, bodyTaken, shape⟩ := bind_ok_iff.mp taken
  cases shape
  rw [← excerpt.textOver_own_iff bodyTaken]
  exact laidOut_iff fun same => List.append_cancel_left (String.ofList_inj.mp same)

theorem snippetOver_own_iff
    (excerpt : arena.Excerpt left right)
    {text : String}
    (taken : excerpt.snippetOver excerpt.inner = .ok text) :
    excerpt.snippetOver excerpt.own = .ok text ↔ excerpt.Undisturbed := by
  obtain ⟨body, bodyTaken, shape⟩ := bind_ok_iff.mp taken
  cases shape
  rw [← excerpt.textOver_own_iff bodyTaken]
  exact laidOut_iff fun same => String.ofList_inj.mp same

end Excerpt

/--
Text that is taken back between two lines of a source is made of that source's
lines alone exactly when no other source put a text between them.
-/
theorem taken_from_own_source_iff
    {arena : Arena}
    {left right : SpanId}
    (reachable : arena.Reachable)
    (excerpt : arena.Excerpt left right) :
    (∀ text, arena.codeBetween left right = .ok text →
      (excerpt.codeOver excerpt.own = .ok text ↔ excerpt.Undisturbed)) ∧
      ∀ text, arena.snippet left right = .ok text →
        (excerpt.snippetOver excerpt.own = .ok text ↔ excerpt.Undisturbed) := by
  have wellFormed := reachable.wellFormed
  constructor
  · intro text taken
    rw [excerpt.codeBetween_eq wellFormed] at taken
    exact excerpt.codeOver_own_iff taken
  · intro text taken
    obtain ⟨block, inWindow⟩ := windowBetween_of_snippet excerpt.firstFound excerpt.lastFound taken
    rw [excerpt.snippet_eq wellFormed inWindow] at taken
    exact excerpt.snippetOver_own_iff taken

/-- A block of three lines; a text is evaluated after its first one is read. -/
def blockAround
    (shell : Shell)
    (evaluated : String) :
    Arena :=
  let opened := (shell.feedLine "\x7b\n").2
  let resumed := (opened.lexSource (.eval ⟨0⟩) evaluated).2
  ((resumed.feedLine "b\n").2.feedLine "\x7d\n").2.arena

theorem block_is_taken_around_no_lines :
    ∃ shell,
      Shell.new .interactive .inert = .ok shell ∧
        (blockAround shell "").Reachable ∧
        ∃ excerpt : (blockAround shell "").Excerpt ⟨0⟩ ⟨4⟩,
          excerpt.Undisturbed ∧
            (blockAround shell "").codeBetween ⟨0⟩ ⟨4⟩ = .ok " \nb\n" ∧
              excerpt.codeOver excerpt.own = .ok " \nb\n" ∧
                (blockAround shell "").snippet ⟨0⟩ ⟨4⟩ = .ok "\x7b\nb\n\x7d" ∧
                  excerpt.snippetOver excerpt.own = .ok "\x7b\nb\n\x7d" := by
  refine ⟨_, rfl, ?_⟩
  have built : Shell.new .interactive .inert = .ok _ := rfl
  have reachable :=
    Shell.feedLine_reachable (Shell.feedLine_reachable (Shell.lexSource_reachable
      (Shell.feedLine_reachable (Shell.new_reachable built) "\x7b\n") (.eval ⟨0⟩) "") "b\n")
      "\x7d\n"
  change (blockAround _ "").Reachable at reachable
  generalize isRead : blockAround _ "" = arena at reachable ⊢
  have between : arena.linesWithin ⟨0⟩ ⟨2⟩ = [⟨⟨1⟩, 2, "b\n", ⟨0⟩⟩] := by
    rw [← isRead]
    decide +kernel
  have code : arena.codeBetween ⟨0⟩ ⟨4⟩ = .ok " \nb\n" := by
    rw [← isRead]
    exact ok_of_toOption (by decide +kernel)
  have snippet : arena.snippet ⟨0⟩ ⟨4⟩ = .ok "\x7b\nb\n\x7d" := by
    rw [← isRead]
    exact ok_of_toOption (by decide +kernel)
  let excerpt : arena.Excerpt ⟨0⟩ ⟨4⟩ :=
    { first := ⟨.leftBrace, 0, 1, ⟨0⟩, ⟨0⟩, "\x7b"⟩
      last := ⟨.rightBrace, 0, 1, ⟨2⟩, ⟨4⟩, "\x7d"⟩
      firstLine := ⟨⟨0⟩, 1, "\x7b\n", ⟨0⟩⟩
      lastLine := ⟨⟨2⟩, 3, "\x7d\n", ⟨0⟩⟩
      firstFound := isRead ▸ ok_of_toOption (by decide +kernel)
      lastFound := isRead ▸ ok_of_toOption (by decide +kernel)
      firstLineFound := isRead ▸ ok_of_toOption (by decide +kernel)
      lastLineFound := isRead ▸ ok_of_toOption (by decide +kernel)
      oneSource := rfl
      inOrder := by decide }
  have undisturbed : excerpt.Undisturbed := by
    intro line member
    change line ∈ arena.linesWithin ⟨0⟩ ⟨2⟩ at member
    rw [between, List.mem_singleton] at member
    subst member
    exact fun foreign => absurd rfl foreign
  have taken := taken_from_own_source_iff reachable excerpt
  exact ⟨reachable, excerpt, undisturbed, code, (taken.1 _ code).mpr undisturbed,
    snippet, (taken.2 _ snippet).mpr undisturbed⟩

/-- A line evaluated inside a block is taken for a line of the block. -/
theorem evaluated_line_is_taken_with_block :
    ∃ shell,
      Shell.new .interactive .inert = .ok shell ∧
        ∃ excerpt : (blockAround shell "a\n").Excerpt ⟨0⟩ ⟨6⟩,
          (blockAround shell "a\n").codeBetween ⟨0⟩ ⟨6⟩ = .ok " \na\nb\n" ∧
            excerpt.codeOver excerpt.own = .ok " \nb\n" ∧
              (blockAround shell "a\n").snippet ⟨0⟩ ⟨6⟩ = .ok "\x7b\na\nb\n\x7d" ∧
                excerpt.snippetOver excerpt.own = .ok "\x7b\nb\n\x7d" := by
  refine ⟨_, rfl, ⟨⟨.leftBrace, 0, 1, ⟨0⟩, ⟨0⟩, "\x7b"⟩, ⟨.rightBrace, 0, 1, ⟨3⟩, ⟨6⟩, "\x7d"⟩,
    ⟨⟨0⟩, 1, "\x7b\n", ⟨0⟩⟩, ⟨⟨3⟩, 3, "\x7d\n", ⟨0⟩⟩, ?_, ?_, ?_, ?_, rfl, by decide⟩,
    ?_, ?_, ?_, ?_⟩
  all_goals exact ok_of_toOption (by decide +kernel)

end ShellCore.Arena
