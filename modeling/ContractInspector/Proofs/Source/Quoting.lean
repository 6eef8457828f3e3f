import ContractInspector.Proofs.Source.Items

/-! Literals as a splitter sees them and as the lexer does. The splitter looks one character back where the
lexer takes escaped characters along, and knows two of the three quotes: `quotes_eq_iff` says for which
literals this makes no difference. -/
namespace ContractInspector.Source

/-- The quotes of the literals that a splitter takes itself to be inside of, behind each character. -/
def SplitState.quotes : SplitState → List Char → List (Option Char)
  | _, [] => []
  | state, c :: rest => (state.enter c).quote :: (state.enter c).quotes rest

/-- The quote of the literal that is open behind each character of a lexeme. -/
def Lexeme.quotes : Lexeme → List (Option Char)
  | code _ => [none]
  | comment text => text.map fun _ => none
  | literal quote contents closed =>
    some quote :: contents.map (fun _ => some quote) ++ (if closed then [none] else [])

/-- The quote of the literal that is open behind each character of a text. -/
def lexedQuotes (text : List Char) : List (Option Char) :=
  (lexemes text).flatMap Lexeme.quotes

/-- A literal in one of the two quotes that a splitter knows, neither opened nor closed behind a
backslash. -/
def Lexeme.Simple (before : Option Char) : Lexeme → Prop
  | literal quote contents closed =>
    quote ≠ '`' ∧ before ≠ some '\\' ∧ (closed = true → contents.getLast? ≠ some '\\')
  | _ => True

/-- All literals of a text are simple, behind a character. -/
def SimpleFrom : Option Char → List Lexeme → Prop
  | _, [] => True
  | before, lexeme :: rest => lexeme.Simple before ∧ SimpleFrom lexeme.source.getLast? rest

def SimpleLiterals (text : List Char) : Prop :=
  SimpleFrom none (lexemes text)

variable {text after front contents : List Char} {lexeme : Lexeme} {state : SplitState} {quote c : Char}

section Uncommented

theorem uncommented_of_reads (reads : Reads text lexeme after) (uncommented : stripComments text = text) :
    (∀ part, lexeme ≠ .comment part) ∧ stripComments after = after := by
  rw [stripComments, reads.mask, reads.source] at uncommented
  obtain ⟨same, behind⟩ := List.append_inj uncommented (lexeme.length_masked false)
  refine ⟨?_, behind⟩
  rintro part rfl
  have slash : part.head? = some '/' := by cases reads <;> rfl
  have blank := congrArg List.head? same
  rw [Lexeme.masked, List.head?_map, Lexeme.source, slash] at blank
  contradiction

/-- Induction along the lexemes of a text that has no comments. -/
@[elab_as_elim]
theorem uncommented_induction {motive : List Char → Prop} (nil : motive [])
    (reads : ∀ {text lexeme after}, Reads text lexeme after → (∀ part, lexeme ≠ .comment part) →
      motive after → motive text)
    (text : List Char) (uncommented : stripComments text = text) : motive text := by
  induction text using lexing_induction with
  | nil => exact nil
  | reads read ih =>
    obtain ⟨noComment, behind⟩ := uncommented_of_reads read uncommented
    exact reads read noComment (ih behind)

end Uncommented

namespace SplitState

theorem quote_count (state : SplitState) (c : Char) : (state.count c).quote = state.quote := by
  unfold count
  split
  case h_2 => split <;> rfl
  all_goals rfl

theorem quote_enter (state : SplitState) (c : Char) : (state.enter c).quote = state.quoteAfter c := by
  rw [enter]
  dsimp only
  split
  · exact quote_count _ c
  · rfl

theorem quotes_append (state : SplitState) (front back : List Char) :
    state.quotes (front ++ back) = state.quotes front ++ (front.foldl enter state).quotes back := by
  induction front generalizing state with
  | nil => rfl
  | cons c front ih => rw [List.cons_append, quotes, ih, quotes, List.cons_append, List.foldl_cons]

theorem length_quotes (state : SplitState) (text : List Char) : (state.quotes text).length = text.length := by
  induction text generalizing state with
  | nil => rfl
  | cons c rest ih => rw [quotes, List.length_cons, ih, List.length_cons]

theorem before_fold (state : SplitState) (text : List Char) :
    (text.foldl enter state).before = text.getLast?.or state.before := by
  induction text generalizing state with
  | nil => rfl
  | cons c rest ih =>
    rw [List.foldl_cons, ih, List.getLast?_cons]
    cases rest.getLast? <;> rfl

theorem quote_fold (state : SplitState) (text : List Char) :
    (text.foldl enter state).quote = (state.quotes text).getLast?.getD state.quote := by
  induction text generalizing state with
  | nil => rfl
  | cons c rest ih =>
    rw [List.foldl_cons, ih, quotes, List.getLast?_cons]
    rfl

theorem quoteAfter_other (other : isQuote c = false) (state : SplitState) : state.quoteAfter c = state.quote := by
  have double : c ≠ '"' := by
    rintro rfl
    contradiction
  have single : c ≠ '\'' := by
    rintro rfl
    contradiction
  simp [quoteAfter, double, single]

theorem quoteAfter_escaped (escape : state.before = some '\\') (c : Char) :
    state.quoteAfter c = state.quote := by
  simp [quoteAfter, escape]

/-- A splitter opens a literal where a quote that it knows stands behind no backslash. -/
theorem quoteAfter_opening (outside : state.quote = none) (isQuoted : isQuote c = true) :
    state.quoteAfter c = some c ↔ c ≠ '`' ∧ state.before ≠ some '\\' := by
  rw [quoteAfter, outside]
  rcases isQuote_iff.mp isQuoted with rfl | rfl | rfl <;> simp

/-- It closes the literal where the same quote stands behind no backslash. -/
theorem quoteAfter_closing (inside : state.quote = some c) (isQuoted : isQuote c = true) (known : c ≠ '`') :
    state.quoteAfter c = none ↔ state.before ≠ some '\\' := by
  rw [quoteAfter, inside]
  rcases isQuote_iff.mp isQuoted with rfl | rfl | rfl <;> simp_all

/-- Inside of a literal, a splitter stays inside. -/
theorem quotes_inside (inside : Inside quote contents) (opened : state.quote = some quote) :
    state.quotes contents = contents.map (fun _ => some quote) ∧
      (contents.foldl enter state).quote = some quote := by
  induction inside generalizing state with
  | nil => exact ⟨rfl, opened⟩
  | @escaped c rest _ ih =>
    have backslash : (state.enter '\\').quote = some quote := by
      rw [quote_enter, quoteAfter_other rfl, opened]
    have behind : ((state.enter '\\').enter c).quote = some quote := by
      rw [quote_enter, quoteAfter_escaped rfl, backslash]
    obtain ⟨quotes, last⟩ := ih behind
    refine ⟨?_, last⟩
    rw [SplitState.quotes, SplitState.quotes, backslash, behind, quotes]
    rfl
  | @plain c rest different _ _ ih =>
    have behind : (state.enter c).quote = some quote := by
      rw [quote_enter, quoteAfter, opened]
      simp [different]
    obtain ⟨quotes, last⟩ := ih behind
    refine ⟨?_, last⟩
    rw [SplitState.quotes, behind, quotes]
    rfl

theorem quotes_unclosed (unclosed : Unclosed quote contents) (opened : state.quote = some quote) :
    state.quotes contents = contents.map fun _ => some quote := by
  rcases unclosed with inside | ⟨front, rfl, inside⟩
  · exact (quotes_inside inside opened).1
  · obtain ⟨quotes, last⟩ := quotes_inside inside opened
    have backslash : ((front.foldl enter state).enter '\\').quote = some quote := by
      rw [quote_enter, quoteAfter_other rfl, last]
    rw [quotes_append, quotes, SplitState.quotes, SplitState.quotes, backslash, List.map_append]
    rfl

end SplitState

section Lexemes

theorem Lexeme.length_quotes (lexeme : Lexeme) : lexeme.quotes.length = lexeme.source.length := by
  cases lexeme with
  | code c => rfl
  | comment text => simp [quotes, source]
  | literal quote contents closed => cases closed <;> simp [quotes, source]

/-- A splitter reads a literal as the lexer does exactly if it is simple. -/
theorem quotes_literal_iff {closed : Bool} (reads : Reads text (.literal quote contents closed) after)
    (outside : state.quote = none) :
    state.quotes (Lexeme.literal quote contents closed).source =
        (Lexeme.literal quote contents closed).quotes ↔
      (Lexeme.literal quote contents closed).Simple state.before := by
  have isQuoted : isQuote quote = true := by cases reads <;> assumption
  have opening := SplitState.quoteAfter_opening outside isQuoted
  rw [← SplitState.quote_enter] at opening
  rw [Lexeme.source, Lexeme.quotes, Lexeme.Simple, List.cons_append, List.cons_append,
    SplitState.quotes, List.cons.injEq, opening, and_assoc]
  refine and_congr_right fun known => and_congr_right fun unescaped => ?_
  have opened : (state.enter quote).quote = some quote := opening.mpr ⟨known, unescaped⟩
  cases reads with
  | literal _ inside =>
    obtain ⟨quotes, last⟩ := SplitState.quotes_inside inside opened
    have before : (contents.foldl SplitState.enter (state.enter quote)).before ≠ some '\\' ↔
        contents.getLast? ≠ some '\\' := by
      have start : (state.enter quote).before = some quote := rfl
      rw [SplitState.before_fold, start]
      cases contents.getLast? with
      | none => simpa using quote_ne_backslash isQuoted
      | some c => simp
    have closing := SplitState.quoteAfter_closing last isQuoted known
    simp only [if_true, true_implies]
    rw [SplitState.quotes_append, quotes, List.append_cancel_left_eq, SplitState.quotes,
      SplitState.quote_enter, ← before, ← closing]
    simp [SplitState.quotes]
  | openLiteral _ unclosed => simp [SplitState.quotes_unclosed unclosed opened]

theorem quotes_lexeme_iff (reads : Reads text lexeme after) (noComment : ∀ part, lexeme ≠ .comment part)
    (outside : state.quote = none) :
    state.quotes lexeme.source = lexeme.quotes ↔ lexeme.Simple state.before := by
  cases lexeme with
  | code c =>
    have other : isQuote c = false := by cases reads; assumption
    have behind : (state.enter c).quote = none := by
      rw [SplitState.quote_enter, SplitState.quoteAfter_other other, outside]
    simp [Lexeme.source, Lexeme.quotes, Lexeme.Simple, SplitState.quotes, behind]
  | comment part => exact absurd rfl (noComment part)
  | literal quote contents closed => exact quotes_literal_iff reads outside

/-- Behind a lexeme no literal is open, unless it reaches the end of the text. -/
theorem quote_behind (reads : Reads text lexeme after) (noComment : ∀ part, lexeme ≠ .comment part)
    (same : state.quotes lexeme.source = lexeme.quotes) :
    after = [] ∨ (lexeme.source.foldl SplitState.enter state).quote = none := by
  rw [SplitState.quote_fold, same]
  cases reads with
  | code => exact .inr rfl
  | lineComment => exact absurd rfl (noComment _)
  | blockComment => exact absurd rfl (noComment _)
  | openComment => exact absurd rfl (noComment _)
  | literal => exact .inr (by simp [Lexeme.quotes, List.getLast?_cons])
  | openLiteral => exact .inl rfl

theorem quotes_eq_iff_from (uncommented : stripComments text = text) (outside : state.quote = none) :
    state.quotes text = lexedQuotes text ↔ SimpleFrom state.before (lexemes text) := by
  refine uncommented_induction (motive := fun text => ∀ {state : SplitState}, state.quote = none →
    (state.quotes text = lexedQuotes text ↔ SimpleFrom state.before (lexemes text))) ?_ ?_ text
    uncommented outside
  · intro state _
    simp [SplitState.quotes, lexedQuotes, SimpleFrom]
  · intro text lexeme after reads noComment ih state outside
    have behind : (lexeme.source.foldl SplitState.enter state).before = lexeme.source.getLast? := by
      rw [SplitState.before_fold, Option.or_of_isSome]
      exact List.getLast?_isSome.mpr reads.source_ne_nil
    rw [lexedQuotes, reads.lexemes, List.flatMap_cons, ← lexedQuotes, SimpleFrom,
      ← quotes_lexeme_iff reads noComment outside, ← behind]
    have split : state.quotes text = state.quotes lexeme.source ++
        (lexeme.source.foldl SplitState.enter state).quotes after := by
      rw [← SplitState.quotes_append, ← reads.source]
    have lengths : (state.quotes lexeme.source).length = lexeme.quotes.length := by
      rw [SplitState.length_quotes, Lexeme.length_quotes]
    rw [split]
    refine Iff.trans ⟨fun same => List.append_inj same lengths, fun ⟨first, last⟩ => by rw [first, last]⟩ ?_
    refine and_congr_right fun same => ?_
    rcases quote_behind reads noComment same with rfl | outside
    · simp [SplitState.quotes, lexedQuotes, SimpleFrom]
    · exact ih outside

/-- A splitter and the lexer see the same literals in a text exactly if they are simple. -/
theorem quotes_eq_iff (uncommented : stripComments text = text) :
    SplitState.start.quotes text = lexedQuotes text ↔ SimpleLiterals text :=
  quotes_eq_iff_from uncommented rfl

end Lexemes

end ContractInspector.Source
