import ShellCore.Proofs.Source.Handles
import ShellCore.Proofs.Source.Window

namespace ShellCore.Arena

/-!
# Histories of an arena

An arena is what a sequence of operations has made of the empty one. Some of the
operations are refused and leave it alone; what the others can do is said once,
by cases, so that an invariant is judged change by change.
-/

/-- An operation that may change an arena. -/
inductive Operation where
  | openSource (provenance : Provenance)
  | closeSource
  | addLine (text : String) (number : UInt32)
  | discard
  | saveBlock (left right : SpanId)
  | addToken (kind : TokenKind) (column length : UInt32) (line : LineId) (text : String)
  | lineNumeral (line : LineId)

/-- Whether an operation was refused, without its answer, and the arena after it. -/
def unanswered
    (performed : Except ArenaError α × Arena) :
    Except ArenaError Unit × Arena :=
  (performed.1.map fun _ => (), performed.2)

/-- Perform an operation, which may be refused. -/
def perform
    (arena : Arena) :
    Operation →
    Except ArenaError Unit × Arena
  | .openSource provenance => (.ok (), (arena.openSource provenance).2)
  | .closeSource => unanswered arena.closeSource
  | .addLine text number => unanswered (arena.addLine text number)
  | .discard => (.ok (), arena.discard)
  | .saveBlock left right => unanswered (arena.saveBlock left right)
  | .addToken kind column length line text =>
      unanswered (arena.addToken kind column length line text)
  | .lineNumeral line => unanswered (arena.lineNumeral line)

/-- The arena after an operation that may be refused. -/
def attempt
    (arena : Arena)
    (operation : Operation) :
    Arena :=
  (arena.perform operation).2

/-- The arena after a sequence of operations. -/
def attemptAll
    (arena : Arena)
    (operations : List Operation) :
    Arena :=
  operations.foldl attempt arena

/-- The arena that a sequence of operations makes of the empty one. -/
def ofHistory
    (operations : List Operation) :
    Arena :=
  attemptAll .empty operations

theorem attemptAll_cons
    (arena : Arena)
    (operation : Operation)
    (later : List Operation) :
    arena.attemptAll (operation :: later) = (arena.attempt operation).attemptAll later :=
  rfl

theorem attemptAll_append
    (arena : Arena)
    (earlier later : List Operation) :
    arena.attemptAll (earlier ++ later) = (arena.attemptAll earlier).attemptAll later :=
  List.foldl_append

theorem ofHistory_append
    (earlier later : List Operation) :
    ofHistory (earlier ++ later) = (ofHistory earlier).attemptAll later :=
  attemptAll_append .empty earlier later

/-- What an operation does to an arena that does not refuse it. -/
inductive Changes (arena : Arena) : Operation → Arena → Prop where
  | openSource (provenance : Provenance) :
      Changes arena (.openSource provenance)
        { arena with
          sources := arena.sources.push provenance
          openSources := ⟨UInt32.ofNat arena.sources.size⟩ :: arena.openSources }
  | closeSource {outer : List SourceId} :
      outer <:+ arena.openSources →
      Changes arena .closeSource { arena with openSources := outer }
  | addLine (line : SourceLine) :
      arena.currentSource? = some line.source →
      line.line.index = arena.lines.size →
      Changes arena (.addLine line.text line.number)
        { arena with
          lines := arena.lines.push line
          active := arena.active ++ [line.line] }
  | discard :
      Changes arena .discard { arena with active := [] }
  | saveBlock {left right : SpanId} {block : List LineId} :
      block <:+: arena.active →
      Changes arena (.saveBlock left right)
        { arena with
          saved := arena.saved ++ block
          active := [] }
  | addToken (token : Token) :
      token.span.index = arena.tokens.size →
      token.line.index < arena.lines.size →
      token.endColumn < UInt32.size →
      Changes arena
        (.addToken token.kind token.column token.length token.line token.text)
        { arena with tokens := arena.tokens.push token }
  | lineNumeral {line : LineId} (number : UInt32) :
      Changes arena (.lineNumeral line)
        { arena with numerals := arena.numerals.insert number (toString number.toNat) }
  /-- The text of the number was made before. -/
  | knownNumeral {line : LineId} :
      Changes arena (.lineNumeral line) arena

namespace Changes

variable {arena after : Arena}

theorem of_closeSource
    {source : SourceId}
    (closed : arena.closeSource = (.ok source, after)) :
    arena.Changes .closeSource after := by
  unfold Arena.closeSource at closed
  split at closed
  · cases closed
  next innermost outer shape =>
    cases closed
    refine .closeSource ?_
    rw [shape]
    exact List.suffix_cons _ outer

theorem of_addLine
    {text : String}
    {number : UInt32}
    {line : LineId}
    (added : arena.addLine text number = (.ok line, after)) :
    arena.Changes (.addLine text number) after := by
  unfold Arena.addLine at added
  split at added
  · cases added
  next source isOpen =>
    split at added
    · cases added
    next handle given =>
      cases added
      exact .addLine ⟨⟨handle⟩, number, text, source⟩ isOpen (nextHandle_ok given).1

theorem of_saveBlock
    {left right : SpanId}
    {count : Nat}
    (saved : arena.saveBlock left right = (.ok count, after)) :
    arena.Changes (.saveBlock left right) after := by
  unfold Arena.saveBlock at saved
  split at saved
  · cases saved
  next block found =>
    cases saved
    obtain ⟨leftToken, _, found⟩ := bind_ok_iff.mp found
    obtain ⟨rightToken, _, found⟩ := bind_ok_iff.mp found
    exact .saveBlock (windowBetween_ok found).1

theorem of_addToken
    {kind : TokenKind}
    {column length : UInt32}
    {line : LineId}
    {text : String}
    {span : SpanId}
    (added : arena.addToken kind column length line text = (.ok span, after)) :
    arena.Changes (.addToken kind column length line text) after := by
  unfold Arena.addToken at added
  split at added
  · cases added
  next fits =>
    split at added
    · cases added
    next handle given =>
      split at added
      next known =>
        cases added
        exact .addToken ⟨kind, column, length, line, ⟨handle⟩, text⟩
          (nextHandle_ok given).1 known (Nat.lt_of_not_le fits)
      · cases added

theorem of_lineNumeral
    {line : LineId}
    {text : String}
    (made : arena.lineNumeral line = (.ok text, after)) :
    arena.Changes (.lineNumeral line) after := by
  unfold Arena.lineNumeral at made
  split at made
  · cases made
  next number found =>
    split at made
    · cases made
      exact .knownNumeral
    · cases made
      exact .lineNumeral number

end Changes

/-- A block that cannot be saved is left in the window. -/
theorem saveBlock_refused
    {arena after : Arena}
    {left right : SpanId}
    {error : ArenaError}
    (refused : arena.saveBlock left right = (.error error, after)) :
    after = arena := by
  unfold saveBlock at refused
  split at refused <;> cases refused
  rfl

theorem unanswered_ok
    {performed : Except ArenaError α × Arena}
    (accepted : (unanswered performed).1 = .ok ()) :
    ∃ answer, performed = (.ok answer, performed.2) := by
  rcases performed with ⟨result, after⟩
  cases result with
  | error error => cases accepted
  | ok answer => exact ⟨answer, rfl⟩

theorem unanswered_error
    {performed : Except ArenaError α × Arena}
    {error : ArenaError}
    (refused : (unanswered performed).1 = .error error) :
    performed = (.error error, performed.2) := by
  rcases performed with ⟨result, after⟩
  cases result with
  | error other =>
      cases refused
      rfl
  | ok answer => cases refused

/-- An operation that is not refused makes one of the listed changes. -/
theorem changes_of_perform
    {arena : Arena}
    {operation : Operation}
    (accepted : (arena.perform operation).1 = .ok ()) :
    arena.Changes operation (arena.attempt operation) := by
  cases operation with
  | openSource provenance => exact .openSource provenance
  | closeSource =>
      obtain ⟨source, closed⟩ := unanswered_ok accepted
      exact .of_closeSource closed
  | addLine text number =>
      obtain ⟨line, added⟩ := unanswered_ok accepted
      exact .of_addLine added
  | discard => exact .discard
  | saveBlock left right =>
      obtain ⟨count, saved⟩ := unanswered_ok accepted
      exact .of_saveBlock saved
  | addToken kind column length line text =>
      obtain ⟨span, added⟩ := unanswered_ok accepted
      exact .of_addToken added
  | lineNumeral line =>
      obtain ⟨text, made⟩ := unanswered_ok accepted
      exact .of_lineNumeral made

/-- One that is refused changes nothing. -/
theorem attempt_of_refused
    {arena : Arena}
    {operation : Operation}
    {error : ArenaError}
    (refused : (arena.perform operation).1 = .error error) :
    arena.attempt operation = arena := by
  cases operation with
  | openSource provenance => cases refused
  | closeSource => exact closeSource_refused (unanswered_error refused)
  | addLine text number => exact addLine_refused (unanswered_error refused)
  | discard => cases refused
  | saveBlock left right => exact saveBlock_refused (unanswered_error refused)
  | addToken kind column length line text => exact addToken_refused (unanswered_error refused)
  | lineNumeral line => exact lineNumeral_refused (unanswered_error refused)

/-- An attempt makes a change, or is refused and changes nothing. -/
theorem attempt_cases
    (arena : Arena)
    (operation : Operation) :
    arena.Changes operation (arena.attempt operation) ∨
      arena.attempt operation = arena := by
  cases performed : (arena.perform operation).1 with
  | ok answer => exact .inl (changes_of_perform performed)
  | error error => exact .inr (attempt_of_refused performed)

end ShellCore.Arena
