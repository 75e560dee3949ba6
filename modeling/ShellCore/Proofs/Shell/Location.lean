import ShellCore.Proofs.Shell.Numbering
import ShellCore.Proofs.Source.Reachable
import ShellCore.Proofs.Source.Reconstruction

namespace ShellCore

/-!
# Locations of tokens

Every token that an arena holds has a line with a number and a source, and can be
located, but for one shape: an empty token at the last column of 32 bits is admitted,
because it ends there, and cannot be located, because its column is counted from one.
-/

namespace Token

/-- The token is empty and stands at the last column that a word of 32 bits holds. -/
def IsLastAndEmpty
    (token : Token) :
    Prop :=
  token.column.toNat + 1 = UInt32.size ∧ token.length = 0

instance (token : Token) : Decidable token.IsLastAndEmpty :=
  inferInstanceAs (Decidable (_ ∧ _))

/-- Where a token ends within 32 bits, only an empty one begins at the last column. -/
theorem isLastAndEmpty_iff
    {token : Token}
    (ends : token.endColumn < UInt32.size) :
    token.IsLastAndEmpty ↔ token.column.toNat + 1 = UInt32.size := by
  constructor
  · exact And.left
  · intro last
    have ends : token.column.toNat + token.length.toNat < UInt32.size := ends
    have isEmpty : token.length.toNat = 0 := by omega
    exact ⟨last, UInt32.toNat.inj isEmpty⟩

end Token

namespace Arena.WellFormed

variable {arena : Arena}

/-- Every token that is found stands on a line with a number and a source. -/
theorem place_of_token
    {span : SpanId}
    {token : Token}
    (wellFormed : arena.WellFormed)
    (found : arena.token span = .ok token) :
    ∃ number source, Shell.Place arena span token number source := by
  have member : token ∈ arena.tokens := Array.mem_of_getElem? (token_ok_iff.mp found).2
  have known : token.line.index < arena.lines.size := wellFormed.tokenLines token member
  let line := arena.lines[token.line.index]
  have stands : arena.lines[token.line.index]? = some line := Array.getElem?_eq_getElem known
  have lineFound : arena.line token.line = .ok line := line_ok_iff.mpr stands
  have sameHandle : line.line = token.line := (wellFormed.line_ok lineFound).1
  obtain ⟨source, hasSource⟩ := wellFormed.lineSource (Array.mem_of_getElem? stands)
  refine ⟨line.number, source, found, ?_, sameHandle ▸ hasSource⟩
  rw [Arena.lineNumber, lineFound]
  rfl

end Arena.WellFormed

namespace Shell

variable {first last : Shell}

/-- The arena of a shell is filled by operations on it, whoever is lent it. -/
theorem Offering.reachable
    {log : List Offer}
    (filled : first.arena.Reachable)
    (history : Offering first log last) :
    last.arena.Reachable := by
  induction history with
  | start => exact filled
  | feedLine text _ inductionHypothesis => exact feedLine_reachable inductionHypothesis text
  | lexSource provenance text _ inductionHypothesis =>
      exact lexSource_reachable inductionHypothesis provenance text
  | lend operation _ inductionHypothesis => exact inductionHypothesis.attemptAll [operation]
  | execute _ ran inductionHypothesis =>
      obtain ⟨operations, made⟩ := (KeepsSources.executeFrom ran).arena
      rw [made]
      exact inductionHypothesis.attemptAll operations

/-- A token at a place is located there, unless its column cannot be counted from one. -/
theorem locate_eq
    {arena : Arena}
    {span : SpanId}
    {token : Token}
    {number : UInt32}
    {source : Provenance}
    (wellFormed : arena.WellFormed)
    (place : Place arena span token number source) :
    locate arena span =
      if token.IsLastAndEmpty then .error .columnOverflow
      else .ok (some (placeText source number (token.column.toNat + 1))) := by
  have member : token ∈ arena.tokens := Array.mem_of_getElem? (Arena.token_ok_iff.mp place.found).2
  have shape := Token.isLastAndEmpty_iff (wellFormed.tokenEnds token member)
  rw [locate_of_place place]
  rcases columnFromOne_cases token with ⟨fits, counted⟩ | ⟨atEnd, overflows⟩
  · rw [counted, if_neg fun isLast => Nat.ne_of_lt fits (shape.mp isLast)]
    rfl
  · rw [overflows, if_pos (shape.mpr atEnd)]
    rfl

/--
Whatever was done with a shell and its arena, every token in it stands on a line with a
number and a source. It is located by that source, that number and its column counted
from one, and an error about it is told of with this location. Only for an empty token
at the last column of 32 bits neither can be done.
-/
theorem admitted_token_is_located_unless_last_and_empty
    {config : Config}
    {host : Host}
    {log : List Offer}
    {span : SpanId}
    {token : Token}
    (built : new config host = .ok first)
    (history : Offering first log last)
    (admitted : last.arena.token span = .ok token) :
    token.endColumn < UInt32.size ∧
    ∃ number source,
      Place last.arena span token number source ∧
      (locate last.arena span =
        if token.IsLastAndEmpty then .error .columnOverflow
        else .ok (some (placeText source number (token.column.toNat + 1)))) ∧
      ∀ error : RuntimeError,
        error.token? = some span →
        diagnose last.arena error =
          if token.IsLastAndEmpty then .error .columnOverflow
          else .ok ⟨error.message, some (placeText source number (token.column.toNat + 1)),
            some span⟩ := by
  have wellFormed := (history.reachable (new_reachable built)).wellFormed
  have member : token ∈ last.arena.tokens :=
    Array.mem_of_getElem? (Arena.token_ok_iff.mp admitted).2
  obtain ⟨number, source, place⟩ := wellFormed.place_of_token admitted
  have located := locate_eq wellFormed place
  refine ⟨wellFormed.tokenEnds token member, number, source, place, located, ?_⟩
  intro error about
  unfold diagnose
  rw [about]
  dsimp only
  rw [located]
  split <;> rfl

/-- A shell that was fed a line and lent its arena for an empty token on it. -/
def markedAt
    (shell : Shell)
    (column : UInt32) :
    Shell :=
  let fed := (shell.feedLine "x\n").2
  { fed with arena := fed.arena.attempt (.addToken .word column 0 ⟨0⟩ "") }

theorem Offering.markedAt
    (shell : Shell)
    (column : UInt32) :
    Offering shell [⟨"x\n", (shell.feedLine "x\n").1⟩] (shell.markedAt column) := by
  have nothingOffered : Offering shell [] shell := .start
  exact (nothingOffered.feedLine "x\n").lend (.addToken .word column 0 ⟨0⟩ "")

theorem token_of_markedAt
    {shell : Shell}
    (built : new .transient .inert = .ok shell)
    {column : UInt32}
    (isLate : column = 4294967294 ∨ column = 4294967295) :
    (shell.markedAt column).arena.token ⟨2⟩ = .ok ⟨.word, column, 0, ⟨0⟩, ⟨2⟩, ""⟩ := by
  cases built
  rcases isLate with rfl | rfl <;> exact Arena.ok_of_toOption (by decide +kernel)

theorem empty_token_before_last_column_is_located :
    ∃ shell number source,
      new .transient .inert = .ok shell ∧
        Place (shell.markedAt 4294967294).arena ⟨2⟩
            ⟨.word, 4294967294, 0, ⟨0⟩, ⟨2⟩, ""⟩ number source ∧
          locate (shell.markedAt 4294967294).arena ⟨2⟩ =
            .ok (some (placeText source number 4294967295)) := by
  obtain ⟨shell, built⟩ : ∃ shell, new .transient .inert = .ok shell := ⟨_, rfl⟩
  obtain ⟨_, number, source, place, located, _⟩ :=
    admitted_token_is_located_unless_last_and_empty built (.markedAt shell 4294967294)
      (token_of_markedAt built (.inl rfl))
  rw [if_neg (by decide)] at located
  exact ⟨shell, number, source, built, place, located⟩

/-- An empty token at the last column is admitted, and cannot be located or told of. -/
theorem empty_token_in_last_column_is_not_located :
    ∃ shell,
      new .transient .inert = .ok shell ∧
        Offering shell [⟨"x\n", (shell.feedLine "x\n").1⟩] (shell.markedAt 4294967295) ∧
          (shell.markedAt 4294967295).arena.token ⟨2⟩ =
              .ok ⟨.word, 4294967295, 0, ⟨0⟩, ⟨2⟩, ""⟩ ∧
            locate (shell.markedAt 4294967295).arena ⟨2⟩ = .error .columnOverflow ∧
              diagnose (shell.markedAt 4294967295).arena (.unmatchedControl .breakLoop ⟨2⟩) =
                .error .columnOverflow := by
  obtain ⟨shell, built⟩ : ∃ shell, new .transient .inert = .ok shell := ⟨_, rfl⟩
  have history := Offering.markedAt shell 4294967295
  have found := token_of_markedAt built (.inr rfl)
  obtain ⟨number, source, place⟩ :=
    (history.reachable (new_reachable built)).wellFormed.place_of_token found
  have tooFar : TooFarRight (shell.markedAt 4294967295).arena ⟨2⟩ :=
    ⟨_, number, source, place, rfl⟩
  refine ⟨shell, built, history, found, ?_, diagnose_of_tooFarRight rfl tooFar⟩
  rw [locate_of_place place]
  rfl

end Shell

end ShellCore
