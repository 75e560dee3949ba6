import ShellCore.Proofs.Lexing.PhysicalLines
import ShellCore.Proofs.Lexing.QuoteScan

namespace ShellCore

/-!
# Lexemes and the scan for quotes

A lexeme that leaves no string open takes the scan to a state from which the
next lexeme is scanned as at the beginning of a line. A lexeme that leaves a
string open takes it into the string, and what is left of the line stays there.
-/

open QuoteState

/-- The scan passes a lexeme that leaves no string open. -/
def Passes
    (first : Char)
    (rest : List Char)
    (following : Nat) :
    Prop :=
  Resumes (scan true .fresh (first :: rest.take following)) (rest.drop following)

/-- The scan is inside a string after a lexeme, and stays there to the end of the line. -/
structure Enters
    (first : Char)
    (rest : List Char)
    (following : Nat)
    (quote : Quote) :
    Prop where
  inside : scan true .fresh (first :: rest.take following) = ofOpen (some quote)
  stays : (scan true (ofOpen (some quote)) (rest.drop following)).quote? = some quote
  noQuote : ∀ character ∈ rest.drop following, character ≠ '\'' ∧ character ≠ '"'

/-- What a string that is not closed on its line leaves of the line. -/
inductive LeftOver : Quote → List Char → Prop where
  | nothing {quote} : LeftOver quote []
  | backslash : LeftOver .double ['\\']
  | newline {rest} : LeftOver .double ('\\' :: '\n' :: rest)

/-- The scan does what the shape of a lexeme says, whatever lines follow. -/
structure LexemeShape.Scanned
    (first : Char)
    (rest : List Char)
    (shape : LexemeShape) :
    Prop where
  passes : shape.opens = none → Passes first rest shape.following
  opened : ∀ {quote}, shape.opens = some quote →
    scan true .fresh (first :: rest.take shape.following) = ofOpen (some quote) ∧
      LeftOver quote (rest.drop shape.following)

namespace LexemeShape.Scanned

theorem plain
    {first : Char}
    {rest : List Char}
    {following : Nat}
    (kind : TokenKind)
    (passes : Passes first rest following) :
    Scanned first rest (.plain kind following) where
  passes := fun _ => passes
  opened := fun opens => nomatch opens

end LexemeShape.Scanned

/-- The scan does what the shape of a lexeme on one line says. -/
structure LexemeShape.Follows
    (first : Char)
    (rest : List Char)
    (shape : LexemeShape) :
    Prop where
  passes : shape.opens = none → Passes first rest shape.following
  enters : ∀ {quote}, shape.opens = some quote → Enters first rest shape.following quote

namespace Passes

/-- A character that ends words, but no quote and no left bracket, is passed by itself. -/
theorem alone
    {first : Char}
    (rest : List Char)
    (returns : step true .fresh first = .fresh) :
    Passes first rest 0 := by
  change Resumes (step true .fresh first) rest
  rw [returns]
  exact .fresh rest

/-- A pair of characters that leads back to the beginning is passed. -/
theorem twice
    {first second : Char}
    (rest : List Char)
    (returns : scan true .fresh [first, second] = .fresh) :
    Passes first (second :: rest) 1 := by
  change Resumes (scan true .fresh [first, second]) rest
  rw [returns]
  exact .fresh rest

end Passes

/-- What follows the leading characters of a class begins with none of the class. -/
theorem head_drop_countWhile
    (holds : Char → Bool)
    (characters : List Char) :
    ∀ character,
      (characters.drop (countWhile holds characters)).head? = some character →
      holds character = false := by
  induction characters with
  | nil =>
      intro character isNext
      cases isNext
  | cons first rest inductionHypothesis =>
      intro character isNext
      by_cases first_holds : holds first = true
      · rw [countWhile, List.takeWhile_cons_of_pos first_holds, List.length_cons,
          List.drop_succ_cons] at isNext
        exact inductionHypothesis character isNext
      · rw [countWhile, List.takeWhile_cons_of_neg first_holds] at isNext
        cases isNext
        exact Bool.not_eq_true _ ▸ first_holds

theorem mem_take_countWhile
    (holds : Char → Bool)
    (characters : List Char) :
    ∀ character ∈ characters.take (countWhile holds characters), holds character = true := by
  intro character member
  have taken : characters.takeWhile holds = characters.take (countWhile holds characters) :=
    List.prefix_iff_eq_take.mp (List.takeWhile_prefix holds)
  rw [← taken] at member
  exact List.all_eq_true.mp List.all_takeWhile character member

namespace Passes

theorem comment
    (rest : List Char) :
    Passes '#' rest (countWhile (· ≠ '\n') rest) := by
  have inside := mem_take_countWhile (· ≠ '\n') rest
  have ends := head_drop_countWhile (· ≠ '\n') rest
  simp only [decide_eq_true_eq] at inside
  simp only [decide_eq_false_iff_not, Decidable.not_not] at ends
  change Resumes (scan true .comment _) _
  rw [scan_comment inside]
  exact .comment ends

theorem word
    {first : Char}
    (rest : List Char)
    (part : isWordPart first = true)
    (noComment : first ≠ '#') :
    Passes first rest (countWhile isWordPart rest) := by
  change Resumes (scan true (step true .fresh first) _) _
  rw [step_fresh_part part noComment,
    scan_word_parts (mem_take_countWhile isWordPart rest)]
  exact .word (head_drop_countWhile isWordPart rest)

/-- Behind a left angle bracket, the scan passes what continues the operator. -/
theorem leftAngle
    (rest : List Char) :
    Resumes
      (scan true .angle (rest.take (angleFollowing '<' rest)))
      (rest.drop (angleFollowing '<' rest)) := by
  unfold angleFollowing
  split
  · exact .fresh _
  · exact .fresh _
  next rest notDash =>
    refine .pair fun character isNext => ?_
    rintro rfl
    cases rest with
    | nil => cases isNext
    | cons second rest =>
        cases isNext
        exact notDash rest rfl
  · refine .angle fun character isNext => ?_
    cases isNext
    decide
  next notAngle _ =>
    refine .angle fun character isNext => ?_
    rintro rfl
    cases rest with
    | nil => cases isNext
    | cons second rest =>
        cases isNext
        exact notAngle rest rfl

/-- Behind a right angle bracket, the scan passes what continues the operator. -/
theorem rightAngle
    (rest : List Char) :
    Resumes
      (scan true .fresh (rest.take (angleFollowing '>' rest)))
      (rest.drop (angleFollowing '>' rest)) := by
  unfold angleFollowing
  split <;> exact .fresh _

theorem doubled
    {first : Char}
    (rest : List Char)
    (returns : step true .fresh first = .fresh) :
    Passes first rest (doubledShape first rest).following := by
  change Passes first rest (if rest.head? = some first then 1 else 0)
  split
  next again =>
    cases rest with
    | nil => cases again
    | cons second rest =>
        cases again
        refine .twice rest ?_
        rw [scan_cons, returns, scan_cons, returns]
        rfl
  · exact .alone rest returns

end Passes

theorem isWordPart_of_isDigit
    {character : Char}
    (digit : character.isDigit = true) :
    isWordPart character = true := by
  have noBreak : ∀ breaker, breaker.isDigit = false → character ≠ breaker := by
    rintro breaker noDigit rfl
    cases noDigit.symm.trans digit
  have noBlank : Text.isBlank character = false := by
    simp only [Char.isDigit, Bool.and_eq_true, decide_eq_true_eq, ge_iff_le,
      UInt32.le_iff_toNat_le] at digit
    obtain ⟨low, high⟩ := digit
    change 48 ≤ character.toNat at low
    change character.toNat ≤ 57 at high
    simp only [Text.isBlank, Text.blankRanges, List.any_eq_false, List.mem_cons,
      List.not_mem_nil, or_false, forall_eq_or_imp, forall_eq, Bool.and_eq_true,
      decide_eq_true_eq]
    omega
  simp [isWordPart, isWordBreak, noBlank, noBreak '\'' rfl, noBreak '"' rfl,
    noBreak '|' rfl, noBreak '&' rfl, noBreak ';' rfl, noBreak '<' rfl, noBreak '>' rfl,
    noBreak '(' rfl, noBreak ')' rfl, noBreak '\x7b' rfl, noBreak '\x7d' rfl]

/-- An operator behind a descriptor is passed if it is passed by itself. -/
theorem passes_behind
    {first angle : Char}
    {rest operator : List Char}
    {digits following : Nat}
    (descriptor : scan true .fresh (first :: rest.take digits) = .word)
    (behind : rest.drop digits = angle :: operator)
    (resumes :
      Resumes (scan true (step true .word angle) (operator.take following))
        (operator.drop following)) :
    Passes first rest (digits + 1 + following) := by
  have taken :
      rest.take (digits + 1 + following) =
        rest.take digits ++ angle :: operator.take following := by
    rw [Nat.add_assoc, List.take_add, behind, Nat.add_comm 1, List.take_succ_cons]
  have dropped : rest.drop (digits + 1 + following) = operator.drop following := by
    rw [Nat.add_assoc, ← List.drop_drop, behind, Nat.add_comm 1, List.drop_succ_cons]
  rw [Passes, taken, dropped, ← List.cons_append, scan_append, descriptor]
  exact resumes

/-- A descriptor is scanned as a word, and the operator behind it as by itself. -/
theorem passes_descriptor
    {first : Char}
    {rest : List Char}
    {shape : LexemeShape}
    (digit : first.isDigit = true)
    (found : descriptorShape? rest = some shape) :
    shape.opens = none ∧ Passes first rest shape.following := by
  have noComment : first ≠ '#' := by
    rintro rfl
    revert digit
    decide
  have digits : scan true .fresh (first :: rest.take (countWhile Char.isDigit rest)) = .word := by
    rw [scan_cons, step_fresh_part (isWordPart_of_isDigit digit) noComment]
    refine scan_word_parts fun character member => ?_
    exact isWordPart_of_isDigit (mem_take_countWhile Char.isDigit rest character member)
  unfold descriptorShape? at found
  dsimp only at found
  split at found
  next operator behind =>
    cases found
    exact ⟨rfl, passes_behind digits behind (Passes.leftAngle operator)⟩
  next operator behind =>
    cases found
    exact ⟨rfl, passes_behind digits behind (Passes.rightAngle operator)⟩
  · cases found

/-- A character that begins neither a last backslash nor an escape is no backslash. -/
theorem ne_backslash
    {first : Char}
    {rest : List Char}
    (noEnd : first = '\\' → rest = [] → False)
    (noPair : ∀ second later, first = '\\' → rest = second :: later → False) :
    first ≠ '\\' := by
  intro isBackslash
  cases rest with
  | nil => exact noEnd isBackslash rfl
  | cons second later => exact noPair second later isBackslash rfl

/--
The extent of a string behind its opening quote: the scan leaves the string at
its end, or is still in it and no more than a backslash is left.
-/
structure StringExtent
    (quote : Quote)
    (rest : List Char)
    (extent : Nat × Bool) :
    Prop where
  closed : extent.2 = true →
    scan true (ofOpen (some quote)) (rest.take extent.1) = .fresh
  inside : extent.2 = false →
    scan true (ofOpen (some quote)) (rest.take extent.1) = ofOpen (some quote)
  leftOver : extent.2 = false → LeftOver quote (rest.drop extent.1)

namespace StringExtent

/-- Nothing of the line belongs to the string. -/
theorem of_leftOver
    {quote : Quote}
    {rest : List Char}
    (leftOver : LeftOver quote rest) :
    StringExtent quote rest (0, false) where
  closed := fun closed => nomatch closed
  inside := fun _ => rfl
  leftOver := fun _ => leftOver

/-- The closing quote is the next character. -/
theorem closing
    {quote : Quote}
    (rest : List Char)
    (closes : step true (ofOpen (some quote)) quote.char = .fresh) :
    StringExtent quote (quote.char :: rest) (1, true) where
  closed := fun _ => closes
  inside := fun unclosed => nomatch unclosed
  leftOver := fun unclosed => nomatch unclosed

/-- Characters that keep the scan inside the string belong to it. -/
theorem behind
    {quote : Quote}
    {skipped rest : List Char}
    {length : Nat}
    {closed : Bool}
    (stays : scan true (ofOpen (some quote)) skipped = ofOpen (some quote))
    (extent : StringExtent quote rest (length, closed)) :
    StringExtent quote (skipped ++ rest) (length + skipped.length, closed) := by
  have taken :
      (skipped ++ rest).take (length + skipped.length) = skipped ++ rest.take length := by
    rw [Nat.add_comm, List.take_length_add_append]
  have dropped :
      (skipped ++ rest).drop (length + skipped.length) = rest.drop length := by
    rw [Nat.add_comm, List.drop_length_add_append]
  constructor
  · intro closes
    rw [taken, scan_append, stays]
    exact extent.closed closes
  · intro unclosed
    rw [taken, scan_append, stays]
    exact extent.inside unclosed
  · intro unclosed
    rw [dropped]
    exact extent.leftOver unclosed

theorem single
    (rest : List Char) :
    StringExtent .single rest (singleQuotedLength rest) := by
  induction rest with
  | nil => exact .of_leftOver .nothing
  | cons first rest inductionHypothesis =>
      rw [singleQuotedLength]
      by_cases closes : first = '\''
      · rw [if_pos closes, closes]
        exact closing rest rfl
      · rw [if_neg closes]
        have stays : scan true (ofOpen (some .single)) [first] = ofOpen (some .single) :=
          step_single closes
        exact behind stays inductionHypothesis

theorem double
    (rest : List Char) :
    StringExtent .double rest (doubleQuotedLength rest) := by
  induction rest using doubleQuotedLength.induct with
  | case1 => exact .of_leftOver .nothing
  | case2 rest => exact closing rest rfl
  | case3 => exact .of_leftOver .backslash
  | case4 rest => exact .of_leftOver .newline
  | case5 escaped rest noNewline length closed shorter inductionHypothesis =>
      rw [shorter] at inductionHypothesis
      rw [doubleQuotedLength.eq_5 escaped rest noNewline, shorter]
      have stays :
          scan true (ofOpen (some .double)) ['\\', escaped] = ofOpen (some .double) :=
        rfl
      exact behind stays inductionHypothesis
  | case6 first rest noQuote noEnd noNewline noPair length closed shorter
      inductionHypothesis =>
      rw [shorter] at inductionHypothesis
      rw [doubleQuotedLength.eq_6 first rest noQuote noEnd noNewline noPair, shorter]
      have stays : scan true (ofOpen (some .double)) [first] = ofOpen (some .double) :=
        step_double noQuote (ne_backslash noEnd noPair)
      exact behind stays inductionHypothesis

end StringExtent

/-- What an unclosed string leaves of a line keeps the scan in the string. -/
theorem LeftOver.stays
    {quote : Quote}
    {rest : List Char}
    (leftOver : LeftOver quote rest)
    (oneLine : OneLine rest) :
    (scan true (ofOpen (some quote)) rest).quote? = some quote ∧
      ∀ character ∈ rest, character ≠ '\'' ∧ character ≠ '"' := by
  cases leftOver with
  | nothing => exact ⟨quote?_ofOpen _, by simp⟩
  | backslash => exact ⟨rfl, by simp⟩
  | @newline rest =>
      obtain rfl : rest = [] := oneLine ['\\'] rest rfl
      exact ⟨rfl, by simp⟩

namespace LexemeShape.Scanned

theorem quoted
    {quote : Quote}
    {rest : List Char}
    {extent : Nat × Bool}
    (opens : step true .fresh quote.char = ofOpen (some quote))
    (string : StringExtent quote rest extent) :
    Scanned quote.char rest (quotedShape quote extent) := by
  obtain ⟨length, closed⟩ := extent
  cases closed with
  | true =>
      refine .plain .quoted ?_
      rw [Passes, scan, List.foldl_cons, opens]
      rw [show List.foldl (step true) _ _ = _ from string.closed rfl]
      exact .fresh _
  | false =>
      refine ⟨(nomatch ·), ?_⟩
      intro opened same
      cases same
      refine ⟨?_, string.leftOver rfl⟩
      rw [scan_cons, opens]
      exact string.inside rfl

theorem word
    {first : Char}
    (rest : List Char)
    (part : isWordPart first = true)
    (noComment : first ≠ '#') :
    Scanned first rest (wordShape first rest) := by
  have passes := Passes.word rest part noComment
  rw [wordShape]
  split
  · exact .plain _ passes
  · exact .plain _ passes

theorem ampersand
    (rest : List Char) :
    Scanned '&' rest (ampersandShape rest) := by
  unfold ampersandShape
  split
  · exact .plain _ (.twice _ rfl)
  · exact .plain _ (.twice _ rfl)
  · exact .plain _ (.alone _ rfl)

theorem choice
    {condition : Prop}
    [Decidable condition]
    {first : Char}
    {rest : List Char}
    {positive negative : LexemeShape}
    (holds : condition → Scanned first rest positive)
    (fails : ¬ condition → Scanned first rest negative) :
    Scanned first rest (if condition then positive else negative) := by
  by_cases decided : condition
  · rw [if_pos decided]
    exact holds decided
  · rw [if_neg decided]
    exact fails decided

theorem digit
    {first : Char}
    (rest : List Char)
    (digit : first.isDigit = true)
    (part : isWordPart first = true)
    (noComment : first ≠ '#') :
    Scanned first rest ((descriptorShape? rest).getD (wordShape first rest)) := by
  cases found : descriptorShape? rest with
  | none => exact word rest part noComment
  | some shape =>
      obtain ⟨closed, passes⟩ := passes_descriptor digit found
      refine ⟨fun _ => passes, ?_⟩
      intro quote opens
      cases closed.symm.trans opens

end LexemeShape.Scanned

/-- The scan does what the shape of the next lexeme says, whatever lines follow. -/
theorem lexemeShape_scanned
    (first : Char)
    (rest : List Char) :
    (lexemeShape first rest).Scanned first rest := by
  unfold lexemeShape
  refine .choice (fun newline => ?_) fun _ => ?_
  · subst newline
    exact .plain _ (.alone rest rfl)
  refine .choice (fun leftBrace => ?_) fun noLeftBrace => ?_
  · subst leftBrace
    exact .plain _ (.alone rest rfl)
  refine .choice (fun rightBrace => ?_) fun noRightBrace => ?_
  · subst rightBrace
    exact .plain _ (.alone rest rfl)
  refine .choice (fun comment => ?_) fun noComment => ?_
  · subst comment
    exact .plain _ (.comment rest)
  refine .choice (fun single => ?_) fun noSingle => ?_
  · subst single
    exact .quoted rfl (.single rest)
  refine .choice (fun double => ?_) fun noDouble => ?_
  · subst double
    exact .quoted rfl (.double rest)
  refine .choice (fun parenthesis => ?_) fun noParenthesis => ?_
  · rcases parenthesis with rfl | rfl
    · exact .plain _ (.alone rest rfl)
    · exact .plain _ (.alone rest rfl)
  refine .choice (fun doubled => ?_) fun noDoubled => ?_
  · rcases doubled with rfl | rfl
    · exact .plain _ (.doubled rest rfl)
    · exact .plain _ (.doubled rest rfl)
  refine .choice (fun ampersand => ?_) fun noAmpersand => ?_
  · subst ampersand
    exact .ampersand rest
  refine .choice (fun angle => ?_) fun noAngle => ?_
  · rcases angle with rfl | rfl
    · exact .plain _ (.leftAngle rest)
    · exact .plain _ (.rightAngle rest)
  refine .choice (fun blank => ?_) fun noBlank => ?_
  · exact .plain _ (.alone rest (step_fresh_blank blank))
  have part : isWordPart first = true := by
    rw [not_or] at noParenthesis noDoubled noAngle
    simp [isWordPart, isWordBreak, noBlank, noSingle, noDouble, noDoubled, noAmpersand,
      noAngle, noParenthesis, noLeftBrace, noRightBrace]
  refine .choice (fun isDigit => ?_) fun _ => ?_
  · exact .digit rest isDigit part noComment
  · exact .word rest part noComment

/-- The scan does what the shape of the next lexeme on a line says. -/
theorem lexemeShape_follows
    (first : Char)
    {rest : List Char}
    (oneLine : OneLine rest) :
    (lexemeShape first rest).Follows first rest := by
  have scanned := lexemeShape_scanned first rest
  refine ⟨scanned.passes, fun opens => ?_⟩
  obtain ⟨inside, leftOver⟩ := scanned.opened opens
  obtain ⟨stays, noQuote⟩ := leftOver.stays (oneLine.drop _)
  exact ⟨inside, stays, noQuote⟩

end ShellCore
