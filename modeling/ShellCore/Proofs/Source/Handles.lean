import ShellCore.Source.Arena

namespace ShellCore

/-!
# Handles of lines and tokens

A handle that is given out is the place in its table where the record is kept,
so looking it up finds the record as long as the table only grows.
-/

namespace Arena

theorem nextHandle_ok
    {size : Nat}
    {handle : UInt32}
    (given : nextHandle size = .ok handle) :
    handle.toNat = size ∧ size < SpanId.none.index := by
  unfold nextHandle at given
  split at given
  next fits =>
    cases given
    have bounded : size < UInt32.size := Nat.lt_trans fits (by decide)
    exact ⟨UInt32.toNat_ofNat_of_lt' bounded, fits⟩
  · cases given

theorem addLine_ok
    {arena after : Arena}
    {text : String}
    {number : UInt32}
    {line : LineId}
    (added : arena.addLine text number = (.ok line, after)) :
    after.lineText line = .ok text ∧ after.tokens = arena.tokens := by
  unfold addLine at added
  split at added
  · cases added
  next source isOpen =>
    split at added
    · cases added
    next handle given =>
      cases added
      refine ⟨?_, rfl⟩
      have found :
          (arena.lines.push ⟨⟨handle⟩, number, text, source⟩)[handle.toNat]? =
            some ⟨⟨handle⟩, number, text, source⟩ := by
        rw [(nextHandle_ok given).1, Array.getElem?_push_size]
      simp only [lineText, Arena.line, LineId.index, found]
      rfl

/-- A line that is refused changes nothing. -/
theorem addLine_refused
    {arena after : Arena}
    {text : String}
    {number : UInt32}
    {error : ArenaError}
    (refused : arena.addLine text number = (.error error, after)) :
    after = arena := by
  unfold addLine at refused
  split at refused
  · cases refused
    rfl
  · split at refused <;> cases refused
    rfl

/-- A line is only added while there are handles. -/
theorem addLine_room
    {arena after : Arena}
    {text : String}
    {number : UInt32}
    {line : LineId}
    (added : arena.addLine text number = (.ok line, after)) :
    arena.lines.size < SpanId.none.index := by
  unfold addLine at added
  split at added
  · cases added
  · split at added
    · cases added
    next given => exact (nextHandle_ok given).2

/-- Adding a token gives out the next handle and changes nothing but the table of tokens. -/
theorem addToken_ok
    {arena after : Arena}
    {kind : TokenKind}
    {column length : UInt32}
    {line : LineId}
    {text : String}
    {span : SpanId}
    (added : arena.addToken kind column length line text = (.ok span, after)) :
    span.index = arena.tokens.size ∧
      span.index < SpanId.none.index ∧
        after.lines = arena.lines ∧
          after.tokens = arena.tokens.push ⟨kind, column, length, line, span, text⟩ := by
  unfold addToken at added
  split at added
  · cases added
  · split at added
    · cases added
    next handle given =>
      split at added
      · cases added
        obtain ⟨place, bounded⟩ := nextHandle_ok given
        refine ⟨place, ?_, rfl, rfl⟩
        change handle.toNat < SpanId.none.index
        rwa [place]
      · cases added

/-- A token that is refused changes nothing. -/
theorem addToken_refused
    {arena after : Arena}
    {kind : TokenKind}
    {column length : UInt32}
    {line : LineId}
    {text : String}
    {error : ArenaError}
    (refused : arena.addToken kind column length line text = (.error error, after)) :
    after = arena := by
  unfold addToken at refused
  split at refused
  · cases refused
    rfl
  · split at refused
    · cases refused
      rfl
    · split at refused <;> cases refused
      rfl

/-- Where no source is left to close, nothing changes. -/
theorem closeSource_refused
    {arena after : Arena}
    {error : ArenaError}
    (refused : arena.closeSource = (.error error, after)) :
    after = arena := by
  unfold closeSource at refused
  split at refused <;> cases refused
  rfl

/-- The number of a line that is not known is not made. -/
theorem lineNumeral_refused
    {arena after : Arena}
    {line : LineId}
    {error : ArenaError}
    (refused : arena.lineNumeral line = (.error error, after)) :
    after = arena := by
  unfold lineNumeral at refused
  split at refused
  · cases refused
    rfl
  · split at refused <;> cases refused

/-- A line can be added while a source is open and there are handles. -/
theorem addLine_succeeds
    {arena : Arena}
    {source : SourceId}
    (isOpen : arena.currentSource? = some source)
    (room : arena.lines.size < SpanId.none.index)
    (text : String)
    (number : UInt32) :
    ∃ line after,
      arena.addLine text number = (.ok line, after) ∧
        line.index < after.lines.size ∧
          after.tokens = arena.tokens := by
  have bounded : arena.lines.size < UInt32.size := Nat.lt_trans room (by decide)
  have exact : (UInt32.ofNat arena.lines.size).toNat = arena.lines.size :=
    UInt32.toNat_ofNat_of_lt' bounded
  rw [addLine, isOpen, nextHandle, if_pos room]
  refine ⟨_, _, rfl, ?_, rfl⟩
  change (UInt32.ofNat arena.lines.size).toNat < (arena.lines.push _).size
  rw [exact, Array.size_push]
  exact Nat.lt_succ_self _

/-- A token of a known line can be added while its end is a column and there are handles. -/
theorem addToken_succeeds
    {arena : Arena}
    {column length : UInt32}
    {line : LineId}
    (known : line.index < arena.lines.size)
    (fits : column.toNat + length.toNat < UInt32.size)
    (room : arena.tokens.size < SpanId.none.index)
    (kind : TokenKind)
    (text : String) :
    ∃ span after, arena.addToken kind column length line text = (.ok span, after) := by
  rw [addToken, if_neg (Nat.not_le_of_lt fits), nextHandle, if_pos room]
  dsimp only
  rw [if_pos known]
  exact ⟨_, _, rfl⟩

/-- A line is found where its handle says. -/
theorem line_ok_iff
    {arena : Arena}
    {handle : LineId}
    {line : SourceLine} :
    arena.line handle = .ok line ↔ arena.lines[handle.index]? = some line := by
  unfold Arena.line
  cases arena.lines[handle.index]? <;> simp

/-- So is a token, unless the handle stands for none. -/
theorem token_ok_iff
    {arena : Arena}
    {span : SpanId}
    {token : Token} :
    arena.token span = .ok token ↔
      span.isNone = false ∧ arena.tokens[span.index]? = some token := by
  unfold Arena.token
  cases span.isNone with
  | true => simp
  | false => cases arena.tokens[span.index]? <;> simp

/-- A token whose handle names its place in the table is found there. -/
theorem token_of_place
    {arena : Arena}
    {before rest : List Token}
    {token : Token}
    (bounded : token.span.index < SpanId.none.index)
    (place : token.span.index = before.length)
    (table : arena.tokens.toList = before ++ token :: rest) :
    arena.token token.span = .ok token := by
  have some : token.span.isNone = false := by
    rw [SpanId.isNone, decide_eq_false_iff_not]
    intro isNone
    rw [isNone] at bounded
    exact Nat.lt_irrefl _ bounded
  have found : arena.tokens[token.span.index]? = .some token := by
    rw [← Array.getElem?_toList, table, place]
    simp
  exact token_ok_iff.mpr ⟨some, found⟩

end Arena

end ShellCore
