import ShellCore.Proofs.Lexing.PhysicalLines

namespace ShellCore

/-!
# Places of a text

A place of a text is a byte offset, and also a byte column of one of its lines.
The text between two places is what is left of the first line, the lines in
between and the beginning of the last one.
-/

namespace Text

/-- The column behind some characters, the first of which stands at a given one. -/
def columnFrom
    (column : Nat)
    (characters : List Char) :
    Nat :=
  characters.foldl
    (fun column character => if character = '\n' then 0 else column + character.utf8Size)
    column

/-- The column of what follows some characters of a text: the bytes behind their last newline. -/
def columnAfter
    (characters : List Char) :
    Nat :=
  columnFrom 0 characters

theorem columnFrom_append
    (column : Nat)
    (left right : List Char) :
    columnFrom column (left ++ right) = columnFrom (columnFrom column left) right :=
  List.foldl_append

theorem columnAfter_append
    (left right : List Char) :
    columnAfter (left ++ right) = columnFrom (columnAfter left) right :=
  columnFrom_append 0 left right

theorem columnAfter_newline
    (characters : List Char) :
    columnAfter (characters ++ ['\n']) = 0 :=
  columnAfter_append characters ['\n']

theorem columnFrom_of_notMem
    {characters : List Char}
    (noNewline : '\n' ∉ characters)
    (column : Nat) :
    columnFrom column characters = column + byteLength characters := by
  induction characters generalizing column with
  | nil => rfl
  | cons first rest inductionHypothesis =>
      obtain ⟨inside, later⟩ := not_or.mp (mt List.mem_cons.mpr noNewline)
      have step : columnFrom column (first :: rest) = columnFrom (column + first.utf8Size) rest :=
        congrArg (columnFrom · rest) (if_neg (Ne.symm inside))
      rw [step, inductionHypothesis later, byteLength_cons, Nat.add_assoc]

theorem columnAfter_spaces
    (indent : Nat) :
    columnAfter (List.replicate indent ' ') = indent := by
  have noNewline : '\n' ∉ List.replicate indent ' ' := by simp
  have length : byteLength (List.replicate indent ' ') = indent := by
    induction indent with
    | zero => rfl
    | succ indent inductionHypothesis =>
        rw [List.replicate_succ, byteLength_cons, inductionHypothesis (by simp), Nat.add_comm]
        rfl
  rw [columnAfter, columnFrom_of_notMem noNewline, length, Nat.zero_add]

theorem byteLength_pos
    {characters : List Char}
    (nonempty : characters ≠ []) :
    0 < byteLength characters := by
  cases characters with
  | nil => exact absurd rfl nonempty
  | cons first rest =>
      have size := first.utf8Size_pos
      rw [byteLength_cons]
      omega

/-- Of two beginnings of a text the one with fewer bytes begins the other one. -/
theorem append_of_byteLength_le
    {first last behindFirst behindLast : List Char}
    (same : first ++ behindFirst = last ++ behindLast)
    (shorter : byteLength first ≤ byteLength last) :
    ∃ inner, last = first ++ inner ∧ behindFirst = inner ++ behindLast := by
  rcases List.append_eq_append_iff.mp same with ⟨inner, whole, rest⟩ | ⟨inner, whole, rest⟩
  · exact ⟨inner, whole, rest⟩
  · have empty : inner = [] := by
      refine Decidable.byContradiction fun nonempty => ?_
      have positive := byteLength_pos nonempty
      rw [whole, byteLength_append] at shorter
      omega
    subst empty
    exact ⟨[], by rw [whole, List.append_nil, List.append_nil], rest.symm⟩

theorem sliceBytes?_eq
    {text before middle after : List Char}
    {first last : Nat}
    (whole : text = before ++ (middle ++ after))
    (begins : first = byteLength before)
    (ends : last = byteLength before + byteLength middle) :
    sliceBytes? text first last = some middle := by
  subst whole begins ends
  exact sliceBytes?_append before middle after

/--
A part of a text behind spaces stands where it stood: each of its characters is
at the column that it has in the text.
-/
def StandsAtColumns
    (text : List Char)
    (offset indent : Nat)
    (part : List Char) :
    Prop :=
  ∀ before character after,
    part = before ++ character :: after →
      (takeBytes? text (offset + byteLength before)).map columnAfter =
        some (columnAfter (List.replicate indent ' ' ++ before))

/-- It does exactly if there are as many spaces as bytes before it on its first line. -/
theorem standsAtColumns_iff
    (before part after : List Char)
    (indent : Nat) :
    StandsAtColumns (before ++ (part ++ after)) (byteLength before) indent part ↔
      part = [] ∨ columnAfter before = indent := by
  constructor
  · intro stands
    cases part with
    | nil => exact .inl rfl
    | cons first rest =>
        have atFirst := stands [] first rest rfl
        rw [byteLength_nil, Nat.add_zero, takeBytes?_append, List.append_nil,
          columnAfter_spaces] at atFirst
        exact .inr (Option.some.inj atFirst)
  · rintro (empty | indented) taken character rest rfl
    · exact absurd empty (by simp)
    · have regrouped :
          before ++ ((taken ++ character :: rest) ++ after) =
            (before ++ taken) ++ (character :: rest ++ after) := by
        simp only [List.append_assoc]
      rw [regrouped, ← byteLength_append, takeBytes?_append, Option.map_some, columnAfter_append,
        columnAfter_append, columnAfter_spaces, indented]

end Text

/-- The byte offset at which a line of a text begins. -/
def lineStart
    (lines : List (List Char))
    (place : Nat) :
    Nat :=
  Text.byteLength (lines.take place).flatten

section Lines

variable {lines : List (List Char)} {place first last : Nat} {line : List Char}

theorem flatten_at
    (stands : lines[place]? = some line) :
    lines.flatten =
      (lines.take place).flatten ++ (line ++ (lines.drop (place + 1)).flatten) := by
  obtain ⟨known, rfl⟩ := List.getElem?_eq_some_iff.mp stands
  rw [← List.flatten_cons, ← List.drop_eq_getElem_cons known, ← List.flatten_append,
    List.take_append_drop]

/-- The lines before a later one are those before this one, this one and those in between. -/
theorem flatten_take_at
    (stands : lines[first]? = some line)
    (before : first < last) :
    (lines.take last).flatten =
      (lines.take first).flatten ++ (line ++ ((lines.take last).drop (first + 1)).flatten) := by
  have inside : (lines.take last)[first]? = some line := by
    rw [List.getElem?_take_of_lt before, stands]
  rw [flatten_at inside, List.take_take, Nat.min_eq_left (Nat.le_of_lt before)]

theorem lineStart_add_le
    (stands : lines[first]? = some line)
    (before : first < last) :
    lineStart lines first + Text.byteLength line ≤ lineStart lines last := by
  rw [lineStart, lineStart, flatten_take_at stands before, Text.byteLength_append,
    Text.byteLength_append]
  omega

/-- The text between two columns of one line. -/
theorem flatten_within
    {head inner tail : List Char}
    (stands : lines[place]? = some (head ++ (inner ++ tail))) :
    lines.flatten =
      ((lines.take place).flatten ++ head) ++
        (inner ++ (tail ++ (lines.drop (place + 1)).flatten)) := by
  rw [flatten_at stands]
  simp only [List.append_assoc]

/-- The text from a column of one line to a column of a later one. -/
theorem flatten_across
    {head tail otherHead otherTail : List Char}
    (firstStands : lines[first]? = some (head ++ tail))
    (lastStands : lines[last]? = some (otherHead ++ otherTail))
    (before : first < last) :
    lines.flatten =
      ((lines.take first).flatten ++ head) ++
        ((tail ++ ((lines.take last).drop (first + 1)).flatten ++ otherHead) ++
          (otherTail ++ (lines.drop (last + 1)).flatten)) := by
  rw [flatten_at lastStands, flatten_take_at firstStands before]
  simp only [List.append_assoc]

/-- A line of a text begins at the first column. -/
theorem Physical.columnAfter_take
    (physical : Physical lines)
    (known : place < lines.length) :
    Text.columnAfter (lines.take place).flatten = 0 := by
  induction physical generalizing place with
  | nil => exact absurd known (Nat.not_lt_zero place)
  | last oneLine =>
      obtain rfl := Nat.lt_one_iff.mp known
      rfl
  | @cons body lines oneLine physical inductionHypothesis =>
      cases place with
      | zero => rfl
      | succ place =>
          rw [List.take_succ_cons, List.flatten_cons, Text.columnAfter_append,
            Text.columnAfter_newline]
          exact inductionHypothesis (Nat.lt_of_succ_lt_succ known)

theorem Physical.oneLine
    (physical : Physical lines)
    (member : line ∈ lines) :
    OneLine line := by
  induction physical with
  | nil => cases member
  | last oneLine => exact List.mem_singleton.mp member ▸ oneLine
  | cons oneLine physical inductionHypothesis =>
      rcases List.mem_cons.mp member with rfl | member
      · exact oneLine
      · exact inductionHypothesis member

/-- A text that is its own only physical line has a newline at its end at most. -/
theorem oneLine_of_only
    {text : List Char}
    (only : LineLexer.physicalLines text = [text]) :
    OneLine text := by
  refine (LineLexer.physical_physicalLines text).oneLine ?_
  rw [only]
  exact List.mem_singleton_self text

/-- A part of a line that does not end with a newline stands before none. -/
theorem OneLine.newline_notMem
    {head part tail : List Char}
    (oneLine : OneLine (head ++ (part ++ tail)))
    (nonempty : part ≠ [])
    (inside : part.getLast? ≠ some '\n') :
    '\n' ∉ head ++ part := by
  intro member
  obtain ⟨before, after, whole⟩ := List.append_of_mem member
  have atEnd : after ++ tail = [] := by
    refine oneLine before (after ++ tail) ?_
    rw [← List.append_assoc, whole, List.append_assoc, List.cons_append]
  obtain ⟨rfl, rfl⟩ := List.append_eq_nil_iff.mp atEnd
  have final := congrArg List.getLast? whole
  rw [List.getLast?_append, List.getLast?_eq_some_getLast nonempty, Option.some_or,
    List.getLast?_concat, ← List.getLast?_eq_some_getLast nonempty] at final
  exact inside final

/-- The column behind a part of a line is its end, unless it ends with the newline. -/
theorem Physical.columnAfter
    {head part tail : List Char}
    (physical : Physical lines)
    (stands : lines[place]? = some (head ++ (part ++ tail)))
    (nonempty : part ≠ []) :
    Text.columnAfter ((lines.take place).flatten ++ (head ++ part)) =
      if part.getLast? = some '\n' then 0 else Text.byteLength (head ++ part) := by
  split
  next atEnd =>
    obtain ⟨inner, rfl⟩ := List.getLast?_eq_some_iff.mp atEnd
    rw [← List.append_assoc, ← List.append_assoc, Text.columnAfter_newline]
  next inside =>
    obtain ⟨known, _⟩ := List.getElem?_eq_some_iff.mp stands
    have oneLine := physical.oneLine (List.mem_of_getElem? stands)
    rw [Text.columnAfter_append, physical.columnAfter_take known,
      Text.columnFrom_of_notMem (oneLine.newline_notMem nonempty inside), Nat.zero_add]

end Lines

namespace LineLexer

/-- No physical line is empty. -/
theorem ne_nil_of_mem_physicalLines
    {text line : List Char}
    (member : line ∈ physicalLines text) :
    line ≠ [] := by
  induction text using physicalLines.induct with
  | case1 => cases member
  | case2 rest inductionHypothesis =>
      rw [physicalLines, if_pos rfl] at member
      rcases List.mem_cons.mp member with rfl | member
      · exact List.cons_ne_nil _ _
      · exact inductionHypothesis member
  | case3 first rest inside empty inductionHypothesis =>
      rw [physicalLines, if_neg inside, empty] at member
      rw [List.mem_singleton.mp member]
      exact List.cons_ne_nil _ _
  | case4 first rest inside line lines found inductionHypothesis =>
      rw [physicalLines, if_neg inside, found] at member
      rcases List.mem_cons.mp member with rfl | member
      · exact List.cons_ne_nil _ _
      · exact inductionHypothesis (found ▸ List.mem_cons_of_mem _ member)

end LineLexer

end ShellCore
