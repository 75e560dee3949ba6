import ShellCore.Lexing.Line

namespace ShellCore

/-!
# Scanning for quotes

Which quote is open depends on quotes, comments and the characters in front of a
`#`. A scan follows these from character to character over a whole source, and
knows neither lines nor lexemes.
-/

/-- Where a scan for quotes stands. -/
inductive QuoteState where
  /-- Outside strings, where a `#` begins a comment. -/
  | fresh
  /-- Behind a character of a word, to which a `#` belongs. -/
  | word
  /-- Behind one angle bracket of a here-document operator. -/
  | angle
  /-- Behind both angle brackets of a here-document operator. -/
  | pair
  | comment
  | single
  | double
  /-- Between double quotes, behind a backslash. -/
  | escaped
  deriving Repr, DecidableEq

namespace QuoteState

/-- The state at the beginning of a line, by the quote that is open. -/
def ofOpen :
    Option Quote →
    QuoteState
  | none => fresh
  | some .single => single
  | some .double => double

/-- The quote that is open in a state. -/
def quote? :
    QuoteState →
    Option Quote
  | fresh => none
  | word => none
  | angle => none
  | pair => none
  | comment => none
  | single => some .single
  | double => some .double
  | escaped => some .double

/--
The state behind a character outside strings and comments. Whether a dash
belongs to the operator `<<-` is a parameter; if it does not, it is a character
of a word there as elsewhere.
-/
def stepOutside
    (dashes : Bool)
    (state : QuoteState)
    (character : Char) :
    QuoteState :=
  if character = '\'' then single
  else if character = '"' then double
  else if character = '#' then if state = word then word else comment
  else if character = '<' then if state = angle then pair else angle
  else if character = '-' then if dashes && state = pair then fresh else word
  else if isWordPart character then word
  else fresh

/-- The state behind a character. -/
def step
    (dashes : Bool)
    (state : QuoteState)
    (character : Char) :
    QuoteState :=
  match state with
  | single => if character = '\'' then fresh else single
  | double =>
      if character = '"' then fresh
      else if character = '\\' then escaped
      else double
  | escaped => double
  | comment => if character = '\n' then fresh else comment
  | state => stepOutside dashes state character

/-- The state behind a text. -/
def scan
    (dashes : Bool)
    (state : QuoteState)
    (characters : List Char) :
    QuoteState :=
  characters.foldl (step dashes) state

variable {dashes : Bool} {state : QuoteState} {character : Char}

theorem scan_cons
    (dashes : Bool)
    (state : QuoteState)
    (first : Char)
    (rest : List Char) :
    scan dashes state (first :: rest) = scan dashes (step dashes state first) rest :=
  rfl

theorem scan_append
    (dashes : Bool)
    (state : QuoteState)
    (left right : List Char) :
    scan dashes state (left ++ right) = scan dashes (scan dashes state left) right :=
  List.foldl_append

@[simp] theorem quote?_ofOpen
    (openQuote : Option Quote) :
    (ofOpen openQuote).quote? = openQuote := by
  rcases openQuote with _ | _ | _ <;> rfl

/-- Behind a newline, the open quote tells the state. -/
theorem step_newline
    (dashes : Bool)
    (state : QuoteState) :
    step dashes state '\n' = ofOpen (step dashes state '\n').quote? := by
  cases dashes <;> cases state <;> rfl

theorem isWordPart_ne
    (part : isWordPart character = true) :
    character ≠ '\'' ∧ character ≠ '"' ∧ character ≠ '<' := by
  refine ⟨?_, ?_, ?_⟩ <;>
    · rintro rfl
      revert part
      decide

theorem step_word_part
    (part : isWordPart character = true) :
    step true word character = word := by
  obtain ⟨noSingle, noDouble, noAngle⟩ := isWordPart_ne part
  simp [step, stepOutside, noSingle, noDouble, noAngle, part]

theorem step_fresh_part
    (part : isWordPart character = true)
    (noComment : character ≠ '#') :
    step true fresh character = word := by
  obtain ⟨noSingle, noDouble, noAngle⟩ := isWordPart_ne part
  simp [step, stepOutside, noSingle, noDouble, noAngle, noComment, part]

theorem step_fresh_blank
    (blank : Text.isBlank character = true) :
    step true fresh character = fresh := by
  have noMark : ∀ mark, Text.isBlank mark = false → character ≠ mark := by
    rintro mark noBlank rfl
    cases noBlank.symm.trans blank
  have noPart : isWordPart character = false := by
    simp [isWordPart, isWordBreak, blank]
  simp [step, stepOutside, noMark '\'' rfl, noMark '"' rfl, noMark '#' rfl,
    noMark '<' rfl, noMark '-' rfl, noPart]

theorem scan_word_parts
    {characters : List Char}
    (parts : ∀ character ∈ characters, isWordPart character = true) :
    scan true word characters = word := by
  induction characters with
  | nil => rfl
  | cons first rest inductionHypothesis =>
      have first_part := step_word_part (parts first List.mem_cons_self)
      rw [scan_cons, first_part]
      exact inductionHypothesis fun character member =>
        parts character (List.mem_cons_of_mem first member)

theorem step_single
    (noQuote : character ≠ '\'') :
    step true single character = single :=
  if_neg noQuote

theorem step_double
    (noQuote : character ≠ '"')
    (noBackslash : character ≠ '\\') :
    step true double character = double := by
  rw [step, if_neg noQuote, if_neg noBackslash]

/-- Only a quote leads into a string. -/
theorem step_outside
    (outside : state.quote? = none)
    (noSingle : character ≠ '\'')
    (noDouble : character ≠ '"') :
    (step true state character).quote? = none := by
  have always : (stepOutside true state character).quote? = none := by
    rw [stepOutside, if_neg noSingle, if_neg noDouble]
    split
    · split <;> rfl
    split
    · split <;> rfl
    split
    · split <;> rfl
    split <;> rfl
  cases state with
  | fresh => exact always
  | word => exact always
  | angle => exact always
  | pair => exact always
  | comment =>
      rw [step]
      split <;> rfl
  | single => cases outside
  | double => cases outside
  | escaped => cases outside

/-- Without quotes, a scan outside strings stays outside. -/
theorem scan_outside
    {characters : List Char}
    (outside : state.quote? = none)
    (noQuote : ∀ character ∈ characters, character ≠ '\'' ∧ character ≠ '"') :
    (scan true state characters).quote? = none := by
  induction characters generalizing state with
  | nil => exact outside
  | cons first rest inductionHypothesis =>
      obtain ⟨noSingle, noDouble⟩ := noQuote first List.mem_cons_self
      refine inductionHypothesis (step_outside outside noSingle noDouble) ?_
      exact fun character member => noQuote character (List.mem_cons_of_mem first member)

theorem scan_comment
    {characters : List Char}
    (oneLine : ∀ character ∈ characters, character ≠ '\n') :
    scan true comment characters = comment := by
  induction characters with
  | nil => rfl
  | cons first rest inductionHypothesis =>
      have stays : step true comment first = comment :=
        if_neg (oneLine first List.mem_cons_self)
      rw [scan_cons, stays]
      exact inductionHypothesis fun character member =>
        oneLine character (List.mem_cons_of_mem first member)

/-- A state outside strings from which a text is scanned as from the beginning of a line. -/
structure Resumes
    (state : QuoteState)
    (rest : List Char) :
    Prop where
  outside : state.quote? = none
  next : ∀ character, rest.head? = some character →
    step true state character = step true fresh character

namespace Resumes

theorem fresh
    (rest : List Char) :
    Resumes .fresh rest :=
  ⟨rfl, fun _ _ => rfl⟩

theorem scan_eq
    {rest : List Char}
    (resumes : Resumes state rest) :
    (scan true state rest).quote? = (scan true .fresh rest).quote? := by
  cases rest with
  | nil => exact resumes.outside
  | cons first rest =>
      rw [scan_cons, scan_cons, resumes.next first rfl]

/-- Behind a word, what ends the word is scanned as at the beginning of a line. -/
theorem word
    {rest : List Char}
    (ends : ∀ character, rest.head? = some character → isWordPart character = false) :
    Resumes .word rest := by
  refine ⟨rfl, fun character isNext => ?_⟩
  have ending := ends character isNext
  have noComment : character ≠ '#' := by
    rintro rfl
    revert ending
    decide
  simp [step, stepOutside, noComment]

theorem comment
    {rest : List Char}
    (ends : ∀ character, rest.head? = some character → character = '\n') :
    Resumes .comment rest := by
  refine ⟨rfl, fun character isNext => ?_⟩
  rw [ends character isNext]
  rfl

theorem angle
    {rest : List Char}
    (single : ∀ character, rest.head? = some character → character ≠ '<') :
    Resumes .angle rest := by
  refine ⟨rfl, fun character isNext => ?_⟩
  have noAngle := single character isNext
  simp [step, stepOutside, noAngle]

theorem pair
    {rest : List Char}
    (noDash : ∀ character, rest.head? = some character → character ≠ '-') :
    Resumes .pair rest := by
  refine ⟨rfl, fun character isNext => ?_⟩
  have noDash := noDash character isNext
  simp [step, stepOutside, noDash]

end Resumes

end QuoteState

end ShellCore
