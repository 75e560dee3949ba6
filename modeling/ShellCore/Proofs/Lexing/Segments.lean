import Mathlib.Data.List.Basic
import ShellCore.Proofs.Lexing.Classification
import ShellCore.Proofs.Lexing.QuoteAgreement
import ShellCore.Proofs.Lexing.Runs

namespace ShellCore

/-!
# Runs and separators

On the scan for quotes, a separator outside strings and comments parts what stands
around it. The runs of the lexemes of a line are the segments that are left, as long as
the scan of the line ends outside strings and meets no newline behind a backslash
between double quotes, where the lexer gives the string up.
-/

namespace QuoteState

/-- Outside strings and comments. -/
def isBare :
    QuoteState →
    Bool
  | fresh => true
  | word => true
  | angle => true
  | pair => true
  | comment => false
  | single => false
  | double => false
  | escaped => false

/-- The character separates what stands around it. -/
def parts
    (state : QuoteState)
    (character : Char) :
    Bool :=
  state.isBare && isSeparator character

/-- The character is a newline that a backslash precedes between double quotes. -/
def losesEscape
    (state : QuoteState)
    (character : Char) :
    Bool :=
  state = escaped && character = '\n'

/-- Behind the character the lexer may be elsewhere than in what stands before it. -/
def cuts
    (state : QuoteState)
    (character : Char) :
    Bool :=
  state.parts character || state.losesEscape character

/-- The scan of a text meets a character that is marked in the state it is read in. -/
def meets
    (mark : QuoteState → Char → Bool) :
    QuoteState →
    List Char →
    Bool
  | _, [] => false
  | state, character :: rest =>
      mark state character || meets mark (step true state character) rest

/-- The segments of a text between the separators that part it. -/
def segments :
    QuoteState →
    List Char →
    List (List Char)
  | _, [] => [[]]
  | state, character :: rest =>
      if state.parts character then
        [] :: segments (step true state character) rest
      else
        (segments (step true state character) rest).modifyHead (character :: ·)

/-- The scan of a text ends outside strings, none of which loses an escape. -/
def Closes
    (state : QuoteState)
    (text : List Char) :
    Prop :=
  meets losesEscape state text = false ∧ (scan true state text).quote? = none

instance (state : QuoteState) (text : List Char) : Decidable (state.Closes text) :=
  inferInstanceAs (Decidable (_ ∧ _))

variable {mark : QuoteState → Char → Bool} {state : QuoteState} {left right text : List Char}

section Marks

theorem meets_append
    (mark : QuoteState → Char → Bool)
    (state : QuoteState)
    (left right : List Char) :
    meets mark state (left ++ right) =
      (meets mark state left || meets mark (scan true state left) right) := by
  induction left generalizing state with
  | nil => rfl
  | cons first rest inductionHypothesis =>
      rw [List.cons_append, meets, meets, inductionHypothesis, Bool.or_assoc, scan_cons]

/-- What is marked in no state is not met. -/
theorem meets_of_unmarked
    (unmarked : ∀ character ∈ text, ∀ state, mark state character = false) :
    meets mark state text = false := by
  induction text generalizing state with
  | nil => rfl
  | cons first rest inductionHypothesis =>
      rw [meets, unmarked first List.mem_cons_self, Bool.false_or]
      exact inductionHypothesis fun character member =>
        unmarked character (List.mem_cons_of_mem first member)

theorem meets_cuts_eq_false_iff :
    meets cuts state text = false ↔
      meets parts state text = false ∧ meets losesEscape state text = false := by
  induction text generalizing state with
  | nil => exact ⟨fun _ => ⟨rfl, rfl⟩, fun _ => rfl⟩
  | cons first rest inductionHypothesis =>
      simp only [meets, cuts, Bool.or_eq_false_iff, inductionHypothesis]
      exact and_and_and_comm

/-- In a comment nothing is cut before the line ends. -/
theorem meets_cuts_comment
    (oneLine : '\n' ∉ text) :
    meets cuts .comment text = false := by
  induction text with
  | nil => rfl
  | cons first rest inductionHypothesis =>
      rw [List.mem_cons, not_or] at oneLine
      have stays : step true comment first = comment := if_neg (Ne.symm oneLine.1)
      rw [meets, stays, inductionHypothesis oneLine.2]
      rfl

/-- What is neither a separator nor a newline does not cut. -/
theorem cuts_of_solid
    {character : Char}
    (solid : isSeparator character = false)
    (noNewline : character ≠ '\n')
    (state : QuoteState) :
    state.cuts character = false := by
  rw [cuts, parts, losesEscape, solid, Bool.and_false, decide_eq_false noNewline, Bool.and_false,
    Bool.or_self]

theorem closes_append_iff :
    Closes state (left ++ right) ↔
      meets losesEscape state left = false ∧ Closes (scan true state left) right := by
  rw [Closes, Closes, meets_append, Bool.or_eq_false_iff, scan_append, and_assoc]

end Marks

section Segments

/-- Without a parting character, a text in front belongs to the first segment. -/
theorem segments_append
    (together : meets parts state left = false) :
    segments state (left ++ right) =
      (segments (scan true state left) right).modifyHead (left ++ ·) := by
  induction left generalizing state with
  | nil => exact (congrFun List.modifyHead_id (segments state right)).symm
  | cons first rest inductionHypothesis =>
      rw [meets, Bool.or_eq_false_iff] at together
      rw [List.cons_append, segments, if_neg (by rw [together.1]; decide),
        inductionHypothesis together.2, List.modifyHead_modifyHead, scan_cons]
      rfl

/-- The first segment goes on to the end or to the first character that parts the text. -/
theorem segments_cases
    (state : QuoteState)
    (text : List Char) :
    ∃ head others,
      segments state text = head :: others ∧
        meets parts state head = false ∧
          (text = head ∧ others = [] ∨
            ∃ character rest,
              text = head ++ character :: rest ∧
                (scan true state head).parts character = true ∧
                  others = segments (step true (scan true state head) character) rest) := by
  induction text generalizing state with
  | nil => exact ⟨[], [], rfl, rfl, .inl ⟨rfl, rfl⟩⟩
  | cons first rest inductionHypothesis =>
      by_cases parting : state.parts first = true
      · exact ⟨[], _, if_pos parting, rfl, .inr ⟨first, rest, rfl, parting, rfl⟩⟩
      · obtain ⟨head, others, shape, together, ends⟩ := inductionHypothesis (step true state first)
        refine ⟨first :: head, others, ?_, ?_, ?_⟩
        · rw [segments, if_neg parting, shape]
          rfl
        · rw [meets, Bool.eq_false_iff.mpr parting, together, Bool.or_self]
        · rcases ends with ⟨rfl, isLast⟩ | ⟨character, later, rfl, isParting, isRest⟩
          · exact .inl ⟨rfl, isLast⟩
          · exact .inr ⟨character, later, rfl, isParting, isRest⟩

/-- Behind a separator outside strings and comments a text is scanned as at its beginning. -/
theorem step_of_parts
    {character : Char}
    (parting : state.parts character = true) :
    step true state character = fresh := by
  rw [parts, Bool.and_eq_true] at parting
  obtain ⟨bare, separates⟩ := parting
  simp only [isSeparator, Bool.or_eq_true, decide_eq_true_eq] at separates
  cases state with
  | fresh | word | angle | pair => rcases separates with rfl | rfl <;> rfl
  | comment | single | double | escaped => cases bare

theorem isBare_iff :
    state.isBare = true ↔ state.quote? = none ∧ state ≠ comment := by
  cases state <;> decide

theorem parts_space_iff :
    state.parts ' ' = true ↔ state.quote? = none ∧ state ≠ comment := by
  change (state.isBare && true) = true ↔ _
  rw [Bool.and_true, isBare_iff]

theorem segments_cons_of_parts
    {character : Char}
    (parting : state.parts character = true)
    (rest : List Char) :
    segments state (character :: rest) = [] :: segments fresh rest := by
  rw [segments, if_pos parting, step_of_parts parting]

theorem closes_cons_of_parts
    {character : Char}
    (parting : state.parts character = true)
    (rest : List Char) :
    Closes state (character :: rest) ↔ Closes fresh rest := by
  have noLoss : state.losesEscape character = false := by
    cases state with
    | escaped => cases parting
    | fresh | word | angle | pair | comment | single | double => rfl
  rw [Closes, Closes, meets, noLoss, Bool.false_or, scan_cons, step_of_parts parting]

end Segments

namespace Resumes

/-- Where a text is scanned as at its beginning, its first character parts it as there. -/
theorem parts_head
    (resumes : Resumes state text) :
    ∀ character ∈ text.head?, state.parts character = QuoteState.fresh.parts character := by
  intro character isHead
  have alike := resumes.next character isHead
  cases state with
  | fresh | word | angle | pair => rfl
  | comment =>
      have solid : isSeparator character = false := by
        by_contra separates
        simp only [isSeparator, Bool.or_eq_false_iff, decide_eq_false_iff_not, not_and_or,
          Decidable.not_not] at separates
        rcases separates with rfl | rfl <;> cases alike
      rw [parts, parts, solid, Bool.and_false, Bool.and_false]
  | single | double | escaped => cases resumes.outside

theorem losesEscape
    (resumes : Resumes state text)
    (character : Char) :
    state.losesEscape character = false := by
  cases state with
  | escaped => cases resumes.outside
  | fresh | word | angle | pair | comment | single | double => rfl

theorem segments_eq
    (resumes : Resumes state text) :
    segments state text = segments .fresh text := by
  cases text with
  | nil => rfl
  | cons first rest =>
      rw [segments, segments, resumes.parts_head first rfl, resumes.next first rfl]

theorem closes_iff
    (resumes : Resumes state text) :
    Closes state text ↔ Closes .fresh text := by
  cases text with
  | nil => exact ⟨fun _ => ⟨rfl, rfl⟩, fun _ => ⟨rfl, resumes.outside⟩⟩
  | cons first rest =>
      have beginsAlike : QuoteState.losesEscape .fresh first = false := rfl
      rw [Closes, Closes, meets, meets, resumes.losesEscape, beginsAlike, scan_cons, scan_cons,
        resumes.next first rfl]

/-- What follows what is scanned from here does not matter. -/
theorem of_append
    (resumes : Resumes state (left ++ right)) :
    Resumes state left := by
  refine ⟨resumes.outside, fun character isHead => resumes.next character ?_⟩
  rw [List.head?_append, isHead]
  rfl

end Resumes

end QuoteState

open QuoteState

section Lexemes

/-- No separator follows the first character of a lexeme, unless it is a comment or a string. -/
def LexemeShape.IsSolid
    (rest : List Char)
    (shape : LexemeShape) :
    Prop :=
  shape.kind.isString = false →
  shape.kind ≠ .comment →
  ∀ character ∈ rest.take shape.following, isSeparator character = false

namespace LexemeShape.IsSolid

variable {first : Char} {rest : List Char}

theorem alone
    (kind : TokenKind) :
    IsSolid rest (.plain kind 0) :=
  fun _ _ _ member => nomatch member

theorem word :
    IsSolid rest (wordShape first rest) := by
  have parts : ∀ character ∈ rest.take (countWhile isWordPart rest),
      isSeparator character = false := by
    intro character member
    have noBlank := isBlank_of_isWordPart (mem_take_countWhile isWordPart rest character member)
    refine Bool.eq_false_iff.mpr fun separates => ?_
    simp only [isSeparator, Bool.or_eq_true, decide_eq_true_eq] at separates
    rcases separates with rfl | rfl <;> cases noBlank
  rw [wordShape]
  split
  · exact fun _ _ => parts
  · exact fun _ _ => parts

theorem angle
    (kind : TokenKind)
    (angle : Char) :
    IsSolid rest (.plain kind (angleFollowing angle rest)) := by
  intro _ _
  change ∀ character ∈ rest.take (angleFollowing angle rest), isSeparator character = false
  unfold angleFollowing
  split <;> try split
  all_goals simp [isSeparator]

theorem doubled
    (solid : isSeparator first = false) :
    IsSolid rest (doubledShape first rest) := by
  intro _ _ character member
  change character ∈ rest.take (if rest.head? = some first then 1 else 0) at member
  split at member
  next again =>
    obtain ⟨later, rfl⟩ := List.head?_eq_some_iff.mp again
    rw [List.mem_singleton.mp member]
    exact solid
  next => cases member

theorem ampersand :
    IsSolid rest (ampersandShape rest) := by
  unfold ampersandShape
  split
  · exact fun _ _ => by simp [LexemeShape.plain, isSeparator]
  · exact fun _ _ => by simp [LexemeShape.plain, isSeparator]
  · exact alone _

theorem descriptor
    {shape : LexemeShape}
    (found : descriptorShape? rest = some shape) :
    IsSolid rest shape := by
  have digits : ∀ character ∈ rest.take (countWhile Char.isDigit rest),
      isSeparator character = false := by
    intro character member
    have isDigit := mem_take_countWhile Char.isDigit rest character member
    refine Bool.eq_false_iff.mpr fun separates => ?_
    simp only [isSeparator, Bool.or_eq_true, decide_eq_true_eq] at separates
    rcases separates with rfl | rfl <;> cases isDigit
  have behind : ∀ {angle : Char} {operator : List Char},
      rest.drop (countWhile Char.isDigit rest) = angle :: operator →
      isSeparator angle = false →
      IsSolid rest (.plain .redirect
        (countWhile Char.isDigit rest + 1 + angleFollowing angle operator)) := by
    intro angle operator isBehind solid _ _ character member
    change character ∈
      rest.take (countWhile Char.isDigit rest + 1 + angleFollowing angle operator) at member
    rw [Nat.add_assoc, List.take_add, isBehind, Nat.add_comm 1, List.take_succ_cons,
      List.mem_append, List.mem_cons] at member
    rcases member with member | rfl | member
    · exact digits character member
    · exact solid
    · exact IsSolid.angle .redirect angle rfl TokenKind.noConfusion character member
  simp only [descriptorShape?] at found
  split at found
  next operator isBehind =>
    cases found
    exact behind isBehind rfl
  next operator isBehind =>
    cases found
    exact behind isBehind rfl
  · cases found

theorem string
    (quote : Quote)
    (extent : Nat × Bool) :
    IsSolid rest (quotedShape quote extent) := by
  intro noString
  cases noString.symm.trans (isString_quotedShape quote extent)

end LexemeShape.IsSolid

/-- No lexeme but a comment or a string has a separator. -/
theorem lexemeShape_isSolid
    {first : Char}
    (rest : List Char)
    (solid : isSeparator first = false) :
    (lexemeShape first rest).IsSolid rest := by
  unfold lexemeShape
  refine iteInduction (fun _ => .alone _) fun _ => ?_
  refine iteInduction (fun _ => .alone _) fun _ => ?_
  refine iteInduction (fun _ => .alone _) fun _ => ?_
  refine iteInduction (fun _ _ noComment => absurd rfl noComment) fun _ => ?_
  refine iteInduction (fun _ => .string _ _) fun _ => ?_
  refine iteInduction (fun _ => .string _ _) fun _ => ?_
  refine iteInduction (fun _ => .alone _) fun _ => ?_
  refine iteInduction (fun _ => .doubled solid) fun _ => ?_
  refine iteInduction (fun _ => .ampersand) fun _ => ?_
  refine iteInduction (fun _ => .angle _ _) fun _ => ?_
  refine iteInduction (fun _ => .alone _) fun _ => ?_
  refine iteInduction (fun _ => ?_) fun _ => .word
  cases found : descriptorShape? rest with
  | none => exact .word
  | some shape => exact .descriptor found

/-- A string that is closed on its line is not cut in it, and its quote is its last character. -/
structure ClosedString
    (quote : Quote)
    (part : List Char) :
    Prop where
  uncut : meets cuts (ofOpen (some quote)) part = false
  last : part.getLast? = some quote.char

namespace ClosedString

theorem behind
    {quote : Quote}
    {skipped part : List Char}
    (uncut : meets cuts (ofOpen (some quote)) skipped = false)
    (stays : scan true (ofOpen (some quote)) skipped = ofOpen (some quote))
    (closed : ClosedString quote part) :
    ClosedString quote (skipped ++ part) where
  uncut := by rw [meets_append, stays, uncut, closed.uncut, Bool.or_self]
  last := by rw [List.getLast?_append, closed.last, Option.some_or]

theorem single
    {rest : List Char}
    {length : Nat}
    (closed : singleQuotedLength rest = (length, true)) :
    ClosedString .single (rest.take length) := by
  induction rest generalizing length with
  | nil => cases closed
  | cons first rest inductionHypothesis =>
      rw [singleQuotedLength] at closed
      by_cases closes : first = '\''
      · subst closes
        rw [if_pos rfl] at closed
        cases closed
        exact ⟨rfl, rfl⟩
      · rw [if_neg closes] at closed
        obtain ⟨rfl, isClosed⟩ := Prod.mk.inj closed
        have stays : scan true (ofOpen (some .single)) [first] = ofOpen (some .single) :=
          step_single closes
        exact behind rfl stays (inductionHypothesis (Prod.ext rfl isClosed))

theorem double
    {rest : List Char}
    {length : Nat}
    (closed : doubleQuotedLength rest = (length, true)) :
    ClosedString .double (rest.take length) := by
  induction rest using doubleQuotedLength.induct generalizing length with
  | case1 => cases closed
  | case2 rest =>
      cases closed
      exact ⟨rfl, rfl⟩
  | case3 => cases closed
  | case4 rest => cases closed
  | case5 escaped rest noNewline count isClosed shorter inductionHypothesis =>
      rw [doubleQuotedLength.eq_5 escaped rest noNewline, shorter] at closed
      cases closed
      have uncut : meets cuts (ofOpen (some .double)) ['\\', escaped] = false := by
        simpa [meets, cuts, parts, QuoteState.losesEscape, isBare, step, ofOpen] using noNewline
      exact behind uncut rfl (inductionHypothesis shorter)
  | case6 first rest noQuote noEnd noNewline noPair count isClosed shorter inductionHypothesis =>
      rw [doubleQuotedLength.eq_6 first rest noQuote noEnd noNewline noPair, shorter] at closed
      cases closed
      have stays : scan true (ofOpen (some .double)) [first] = ofOpen (some .double) :=
        step_double noQuote (ne_backslash noEnd noPair)
      exact behind rfl stays (inductionHypothesis shorter)

theorem of_extent
    {quote : Quote}
    {rest : List Char}
    (closed : (extentOf quote rest).2 = true) :
    ClosedString quote (rest.take (extentOf quote rest).1) := by
  cases quote with
  | single => exact single (Prod.ext rfl closed)
  | double => exact double (Prod.ext rfl closed)

end ClosedString

variable {first : Char} {rest : List Char}

/-- A lexeme that leaves no string open is not cut, and ends on a line that it does not end. -/
structure LexemeShape.Uncut
    (first : Char)
    (rest : List Char)
    (shape : LexemeShape) :
    Prop where
  uncut : meets cuts .fresh (first :: rest.take shape.following) = false
  last : (rest.take shape.following).getLast? ≠ some '\n'

theorem lexemeShape_uncut
    (rest : List Char)
    (solid : isSeparator first = false)
    (closed : (lexemeShape first rest).opens = none) :
    (lexemeShape first rest).Uncut first rest := by
  have begins := lexemeShape_begins rest solid
  have isSolid := lexemeShape_isSolid rest solid
  generalize lexemeShape first rest = shape at begins isSolid closed
  by_cases isString : shape.kind.isString = true
  · cases begins with
    | @string quote isQuote =>
        cases isClosed : (extentOf quote rest).2 with
        | false =>
            rw [quotedShape, isClosed] at closed
            cases closed
        | true =>
            have string := ClosedString.of_extent isClosed
            rw [quotedShape, isClosed]
            subst isQuote
            refine ⟨?_, ?_⟩
            · cases quote <;> exact string.uncut
            · change (rest.take (extentOf quote rest).1).getLast? ≠ some '\n'
              rw [string.last]
              cases quote <;> decide
    | _ => cases isString
  · have noString : shape.kind.isString = false := Bool.eq_false_iff.mpr isString
    have oneLine := begins.newline_notMem noString
    refine ⟨?_, fun isLast => oneLine (List.mem_of_mem_getLast? isLast)⟩
    have firstUncut : cuts .fresh first = false := by
      rw [cuts, parts, solid, Bool.and_false]
      rfl
    by_cases isComment : shape.kind = .comment
    · cases begins with
      | comment isHash =>
          subst isHash
          exact meets_cuts_comment oneLine
      | string => cases noString.symm.trans (isString_quotedShape _ _)
      | _ => cases isComment
    · rw [meets, firstUncut, Bool.false_or]
      refine meets_of_unmarked fun character member state => ?_
      refine cuts_of_solid (isSolid noString isComment character member) ?_ state
      rintro rfl
      exact oneLine member

end Lexemes

section Lines

/-- The token that ends a line. -/
def lineEnd
    (column : Nat) :
    Lexeme where
  kind := .newline
  column := column
  text := ['\n']
  opens := none

/-- A part of a line that is not empty. -/
def isPresent
    (segment : List Char) :
    Bool :=
  !segment.isEmpty

variable {column : Nat} {body later : List Char} {lexemes : List Lexeme} {lexeme : Lexeme}

theorem isPresent_append
    {left : List Char}
    (isText : left ≠ [])
    (right : List Char) :
    isPresent (left ++ right) = true := by
  obtain ⟨first, later, rfl⟩ := List.exists_cons_of_ne_nil isText
  rfl

/-- The first segment is not empty unless the first character parts the text. -/
theorem isPresent_head
    {state : QuoteState}
    {first : Char}
    {rest head : List Char}
    {others : List (List Char)}
    (noParting : state.parts first = false)
    (shape : segments state (first :: rest) = head :: others) :
    isPresent head = true := by
  obtain ⟨behind, others, isBehind, -⟩ := segments_cases (step true state first) rest
  rw [segments, noParting, if_neg Bool.false_ne_true, isBehind] at shape
  cases shape
  rfl

theorem lexemesFrom_newline
    (column : Nat) :
    lexemesFrom column ['\n'] = [lineEnd column] := by
  rw [lexemesFrom_of_not_isSeparator column [] rfl, List.drop_nil, lexemesFrom]
  rfl

/-- A lexeme joins the run behind it, or begins one if nothing or a separator follows. -/
theorem runTexts_cons
    (isText : lexeme.text ≠ [])
    (lexed :
      lexemesFrom lexeme.endColumn (later ++ ['\n']) = lexemes ++ [lineEnd column])
    (runs :
      Stretch.runTexts (lexemes.map Lexeme.stretch) =
        (segments .fresh later).filter isPresent) :
    Stretch.runTexts ((lexeme :: lexemes).map Lexeme.stretch) =
      ((segments .fresh later).modifyHead (lexeme.text ++ ·)).filter isPresent := by
  obtain ⟨head, others, shape, -⟩ := segments_cases .fresh later
  rw [shape] at runs ⊢
  rw [List.modifyHead_cons, List.filter_cons_of_pos (isPresent_append isText head)]
  cases lexemes with
  | nil =>
      have nothing : (head :: others).filter isPresent = [] := runs.symm
      rw [List.filter_eq_nil_iff] at nothing
      have noHead : head = [] := by simpa [isPresent] using nothing head List.mem_cons_self
      have noOthers : others.filter isPresent = [] :=
        List.filter_eq_nil_iff.mpr fun part member =>
          nothing part (List.mem_cons_of_mem head member)
      rw [noHead, noOthers, List.append_nil]
      exact congrArg (fun text => [text]) (List.append_nil lexeme.text)
  | cons second lexemes =>
      cases later with
      | nil =>
          rw [List.nil_append, lexemesFrom_newline] at lexed
          cases lexemes <;> cases lexed
      | cons first rest =>
          have begins := head_lexemesFrom lexed
          cases separates : isSeparator first with
          | false =>
              have noParting : fresh.parts first = false := separates
              rw [List.filter_cons_of_pos (isPresent_head noParting shape)] at runs
              rw [List.map_cons, List.map_cons,
                Stretch.runTexts_of_touches (begins.mpr separates).symm, ← List.map_cons, runs]
              rfl
          | true =>
              have parting : fresh.parts first = true := separates
              rw [segments_cons_of_parts parting] at shape
              obtain ⟨rfl, rfl⟩ := List.cons.inj shape
              have apart : lexeme.endColumn ≠ second.column := fun same => by
                cases (begins.mp same.symm).symm.trans separates
              rw [List.map_cons, List.map_cons, Stretch.runTexts_of_apart apart, ← List.map_cons,
                runs, List.append_nil]
              rfl

/-- What the lexer makes of a line whose text is closed. -/
structure ReadsRuns
    (column : Nat)
    (body : List Char)
    (lexemes : List Lexeme) :
    Prop where
  lexed :
    lexemesFrom column (body ++ ['\n']) =
      lexemes ++ [lineEnd (column + Text.byteLength body)]
  closed : LineLexer.quoteAfter none lexemes = none
  runs :
    Stretch.runTexts (lexemes.map Lexeme.stretch) = (segments .fresh body).filter isPresent

/-- A lexeme that leaves no string open ends in front of the newline that ends the line. -/
theorem following_le_length
    {first : Char}
    (solid : isSeparator first = false)
    (closed : (lexemeShape first (body ++ ['\n'])).opens = none) :
    (lexemeShape first (body ++ ['\n'])).following ≤ body.length := by
  have uncut := lexemeShape_uncut (body ++ ['\n']) solid closed
  by_contra further
  refine uncut.last ?_
  rw [List.take_of_length_le (by rw [List.length_append, List.length_singleton]; omega),
    List.getLast?_concat]

/-- What follows a lexeme on its line is read as if the line began with it. -/
structure Precedes
    (lexeme : Lexeme)
    (body later : List Char) :
    Prop where
  whole : body = lexeme.text ++ later
  uncut : meets cuts .fresh lexeme.text = false
  resumes : Resumes (scan true .fresh lexeme.text) later

theorem Precedes.closes_iff
    (precedes : Precedes lexeme body later) :
    Closes .fresh body ↔ Closes .fresh later := by
  obtain ⟨-, noLoss⟩ := meets_cuts_eq_false_iff.mp precedes.uncut
  rw [precedes.whole, closes_append_iff, precedes.resumes.closes_iff]
  exact ⟨And.right, And.intro noLoss⟩

/-- A lexeme that leaves no string open precedes the rest of its line. -/
theorem exists_precedes
    {first : Char}
    (column : Nat)
    (solid : isSeparator first = false)
    (closed : (lexemeShape first (body ++ ['\n'])).opens = none) :
    ∃ later,
      Precedes (lexemeAt column first (body ++ ['\n'])) (first :: body) later ∧
        (body ++ ['\n']).drop (lexemeShape first (body ++ ['\n'])).following =
          later ++ ['\n'] := by
  have atMost := following_le_length solid closed
  have uncut := (lexemeShape_uncut (body ++ ['\n']) solid closed).uncut
  have passes := (lexemeShape_scanned first (body ++ ['\n'])).passes closed
  generalize isShape : lexemeShape first (body ++ ['\n']) = shape at atMost uncut passes
  have isText :
      (lexemeAt column first (body ++ ['\n'])).text =
        first :: (body ++ ['\n']).take shape.following := by
    rw [lexemeAt, isShape]
  have dropped :
      (body ++ ['\n']).drop shape.following = body.drop shape.following ++ ['\n'] :=
    List.drop_append_of_le_length atMost
  rw [Passes, dropped] at passes
  refine ⟨body.drop shape.following, ⟨?_, ?_, ?_⟩, dropped⟩
  · rw [isText, List.take_append_of_le_length atMost, List.cons_append, List.take_append_drop]
  · rw [isText]
    exact uncut
  · rw [isText]
    exact passes.of_append

/-- A newline leaves open what is open in front of it. -/
theorem quote?_step_newline
    (state : QuoteState) :
    (step true state '\n').quote? = state.quote? := by
  cases state <;> rfl

/-- A string that is left open keeps the line from being closed. -/
theorem not_closes_of_opens
    {first : Char}
    {quote : Quote}
    (opens : (lexemeShape first (body ++ ['\n'])).opens = some quote) :
    ¬ Closes .fresh (first :: body) := by
  obtain ⟨inside, leftOver⟩ := (lexemeShape_scanned first (body ++ ['\n'])).opened opens
  generalize (lexemeShape first (body ++ ['\n'])).following = following at inside leftOver
  have whole := List.take_append_drop following (body ++ ['\n'])
  generalize (body ++ ['\n']).take following = taken at inside whole
  generalize (body ++ ['\n']).drop following = dropped at leftOver whole
  intro closes
  -- The string is open at the newline, or was given up at a newline before it.
  cases leftOver with
  | nothing =>
      rw [List.append_nil] at whole
      rw [whole, ← List.cons_append, scan_append] at inside
      have stillOpen := congrArg quote? inside
      rw [quote?_ofOpen] at stillOpen
      cases closes.2.symm.trans ((quote?_step_newline _).symm.trans stillOpen)
  | backslash =>
      have ends := congrArg List.getLast? whole
      rw [List.getLast?_concat, List.getLast?_concat] at ends
      cases ends
  | @newline rest =>
      rcases List.eq_nil_or_concat rest with rfl | ⟨front, last, rfl⟩
      · rw [List.append_cons] at whole
        obtain ⟨rfl, -⟩ := List.append_inj' whole rfl
        have isOpen := closes.2
        rw [← List.cons_append, scan_append, inside] at isOpen
        cases isOpen
      · rw [List.concat_eq_append, ← List.cons_append, ← List.cons_append,
          ← List.append_assoc] at whole
        obtain ⟨rfl, -⟩ := List.append_inj' whole rfl
        rw [← List.cons_append, closes_append_iff, inside] at closes
        cases closes.2.1

/-- A lexeme that leaves no string open goes in front of what is read behind it. -/
theorem ReadsRuns.cons
    (reads : ReadsRuns lexeme.endColumn later lexemes)
    (precedes : Precedes lexeme body later)
    (isText : lexeme.text ≠ [])
    (opensNone : lexeme.opens = none)
    (lexed :
      lexemesFrom lexeme.column (body ++ ['\n']) =
        lexeme :: lexemesFrom lexeme.endColumn (later ++ ['\n'])) :
    ReadsRuns lexeme.column body (lexeme :: lexemes) where
  lexed := by
    rw [lexed, reads.lexed, precedes.whole, Text.byteLength_append, ← Nat.add_assoc]
    rfl
  closed := by rw [LineLexer.quoteAfter_cons, reads.closed, opensNone, Option.or_none]
  runs := by
    obtain ⟨together, -⟩ := meets_cuts_eq_false_iff.mp precedes.uncut
    rw [runTexts_cons isText reads.lexed reads.runs, precedes.whole, segments_append together,
      precedes.resumes.segments_eq]

/-- A line whose text is not closed leaves a string open; any other is read in its segments. -/
theorem lexemesFrom_line
    (column : Nat)
    (body : List Char) :
    (Closes .fresh body ∧ ∃ lexemes, ReadsRuns column body lexemes) ∨
      ¬ Closes .fresh body ∧
        LineLexer.quoteAfter none (lexemesFrom column (body ++ ['\n'])) ≠ none := by
  generalize isLine : body ++ ['\n'] = line
  -- The induction is the lexer's; what a lexeme leaves is a line again, at a later column.
  induction column, line using lexemesFrom.induct generalizing body with
  | case1 column => cases body <;> cases isLine
  | case2 column first rest separates inductionHypothesis =>
      cases body with
      | nil =>
          cases isLine
          cases separates
      | cons _ later =>
          cases isLine
          have parting : fresh.parts first = true := separates
          rw [lexemesFrom, if_pos separates, closes_cons_of_parts parting]
          refine (inductionHypothesis later rfl).imp_left ?_
          rintro ⟨closes, lexemes, reads⟩
          refine ⟨closes, lexemes, ?_, reads.closed, ?_⟩
          · rw [List.cons_append, lexemesFrom, if_pos separates, reads.lexed,
              Text.byteLength_cons, Nat.add_assoc]
          · rw [segments_cons_of_parts parting, List.filter_cons_of_neg (by decide), reads.runs]
  | case3 column first rest notSeparator shape text inductionHypothesis =>
      have solid : isSeparator first = false := by simpa using notSeparator
      cases body with
      | nil =>
          cases isLine
          refine .inl ⟨⟨rfl, rfl⟩, [], ?_, rfl, rfl⟩
          exact lexemesFrom_newline column
      | cons first body =>
          rw [List.cons_append] at isLine
          obtain ⟨rfl, rfl⟩ := List.cons.inj isLine
          have lexed := lexemesFrom_of_not_isSeparator column (body ++ ['\n']) solid
          rw [lexed, LineLexer.quoteAfter_cons]
          change _ ∨ _ ∧ Option.or _ shape.opens ≠ none
          cases opens : shape.opens with
          | some quote =>
              refine .inr ⟨not_closes_of_opens opens, ?_⟩
              cases LineLexer.quoteAfter none _ <;> exact Option.some_ne_none _
          | none =>
              obtain ⟨later, precedes, dropped⟩ := exists_precedes column solid opens
              rw [precedes.closes_iff, Option.or_none, dropped]
              rw [dropped] at lexed
              refine (inductionHypothesis later dropped.symm).imp ?_ fun leftOpen => ?_
              · rintro ⟨closes, lexemes, reads⟩
                have behind :
                    ReadsRuns (lexemeAt column first (body ++ ['\n'])).endColumn later lexemes :=
                  reads
                exact ⟨closes, _, behind.cons precedes (List.cons_ne_nil _ _) opens lexed⟩
              · exact dropped ▸ leftOpen

end Lines

end ShellCore
