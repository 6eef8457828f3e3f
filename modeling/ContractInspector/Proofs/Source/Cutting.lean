import ContractInspector.Proofs.Source.Quoting

/-! Where a text is cut. As long as a splitter and the lexer see the same literals, it is cut at the
separators of its masked copy that stand outside of all brackets there. -/
namespace ContractInspector.Source

open Text (isBlank)

/-- A text is cut at an offset: behind the character there, the splitter starts a new item. -/
def CutAt (separator : Char) (text : List Char) (n : Nat) : Prop :=
  n < text.length ∧ ((text.take (n + 1)).foldl (SplitState.step separator) .start).item = []

/-- The last character of a text, and how many brackets of each kind are open behind it. -/
structure Depths where
  before : Option Char
  angles : Nat
  squares : Nat
  parens : Nat

namespace Depths

def start : Depths :=
  ⟨none, 0, 0, 0⟩

/-- One bracket more or less, and never less than none. The head of an arrow closes nothing. -/
def step (depths : Depths) (c : Char) : Depths where
  before := some c
  angles :=
    if c = '<' then depths.angles + 1
    else if c = '>' ∧ depths.before ≠ some '=' then depths.angles - 1 else depths.angles
  squares :=
    if c = '[' then depths.squares + 1 else if c = ']' then depths.squares - 1 else depths.squares
  parens :=
    if c = '(' then depths.parens + 1 else if c = ')' then depths.parens - 1 else depths.parens

def AllZero (depths : Depths) : Prop :=
  depths.angles = 0 ∧ depths.squares = 0 ∧ depths.parens = 0

theorem step_other {c : Char} (other : c ∉ ['<', '>', '[', ']', '(', ')']) (depths : Depths) :
    depths.step c = { depths with before := some c } := by
  simp only [List.mem_cons, List.not_mem_nil, or_false, not_or] at other
  simp [step, other]

end Depths

/-- No bracket is open behind a text. -/
def TopLevel (text : List Char) : Prop :=
  (text.foldl Depths.step .start).AllZero

variable {text masked rest : List Char} {quotes : List (Option Char)} {c separator : Char} {n : Nat}

section Cuts

open SplitState

theorem alike_step {one two : SplitState} (alike : Alike one two) (separator c : Char) :
    Alike (one.step separator c) (two.enter c) := by
  have entered := alike.enter c
  rw [step_eq]
  split <;> exact { entered with }

theorem alike_fold {one two : SplitState} (alike : Alike one two) (separator : Char) (text : List Char) :
    Alike (text.foldl (SplitState.step separator) one) (text.foldl enter two) := by
  induction text generalizing one two with
  | nil => exact alike
  | cons c rest ih => exact ih (alike_step alike separator c)

theorem item_step (state : SplitState) (separator c : Char) :
    (state.step separator c).item = [] ↔ c = separator ∧ (state.enter c).atTop = true := by
  rw [step_eq]
  split
  next cut => simpa using cut
  next uncut => simpa using uncut

/-- A text is cut at the separators outside of all brackets and quotes, as the splitter sees them. -/
theorem cutAt_iff_atTop : CutAt separator text n ↔
    text[n]? = some separator ∧ ((text.take (n + 1)).foldl enter .start).atTop = true := by
  rw [CutAt]
  cases here : text[n]? with
  | none =>
    have outside := List.getElem?_eq_none_iff.mp here
    simp only [Nat.not_lt.mpr outside, false_and, reduceCtorEq]
  | some c =>
    obtain ⟨inside, same⟩ := List.getElem?_eq_some_iff.mp here
    have same : Alike SplitState.start .start := ⟨rfl, rfl, rfl, rfl, Iff.rfl, Iff.rfl⟩
    have alike := alike_fold same separator (text.take n)
    have cut : text.take (n + 1) = text.take n ++ [c] := by
      rw [List.take_add_one, here, Option.toList_some]
    rw [cut, List.foldl_append, List.foldl_append, List.foldl_cons, List.foldl_nil, List.foldl_cons,
      List.foldl_nil, item_step, (alike.enter c).atTop]
    simp only [inside, true_and, Option.some.injEq]

end Cuts

section Masked

/-- A text beside its masked copy and the literals that are open behind each character: the copy shows what
stands outside of literals and the quotes around them, and hides the rest. -/
inductive Shows : List Char → List Char → List (Option Char) → Prop where
  | nil : Shows [] [] []
  | shown {c : Char} {text masked : List Char} {quotes : List (Option Char)} :
      Shows text masked quotes → Shows (c :: text) (c :: masked) (none :: quotes)
  | hidden {c d quote : Char} {text masked : List Char} {quotes : List (Option Char)} :
      isBlank d = true ∨ isQuote d = true → Shows text masked quotes →
      Shows (c :: text) (d :: masked) (some quote :: quotes)

theorem Shows.append {text' masked' : List Char} {quotes' : List (Option Char)}
    (front : Shows text masked quotes) (back : Shows text' masked' quotes') :
    Shows (text ++ text') (masked ++ masked') (quotes ++ quotes') := by
  induction front with
  | nil => exact back
  | shown _ ih => exact .shown ih
  | hidden hides _ ih => exact .hidden hides ih

theorem shows_contents (quote : Char) (contents : List Char) :
    Shows contents (contents.map blanked) (contents.map fun _ => some quote) := by
  induction contents with
  | nil => exact .nil
  | cons c contents ih => exact .hidden (.inl (isBlank_blanked c)) ih

theorem shows_lexeme {after : List Char} {lexeme : Lexeme} (reads : Reads text lexeme after)
    (noComment : ∀ part, lexeme ≠ .comment part) :
    Shows lexeme.source (lexeme.masked true) lexeme.quotes := by
  cases lexeme with
  | code c => exact .shown .nil
  | comment part => exact absurd rfl (noComment part)
  | literal quote contents closed =>
    have isQuoted : isQuote quote = true := by cases reads <;> assumption
    refine .hidden (.inr isQuoted) ((shows_contents quote contents).append ?_)
    cases closed with
    | true => exact .shown .nil
    | false => exact .nil

theorem shows_maskAll (uncommented : stripComments text = text) :
    Shows text (maskAll text) (lexedQuotes text) := by
  refine uncommented_induction (motive := fun text => Shows text (maskAll text) (lexedQuotes text))
    ?_ ?_ text uncommented
  · simpa [maskAll, lexedQuotes] using Shows.nil
  · intro text lexeme after reads noComment ih
    have shows := (shows_lexeme reads noComment).append ih
    rw [maskAll, lexedQuotes, reads.mask, reads.lexemes, List.flatMap_cons]
    exact reads.source ▸ shows

end Masked

section Simulation

/-- A splitter over a text, and the depths over its masked copy. What stood before matters outside of
literals only. -/
structure Level (state : SplitState) (depths : Depths) : Prop where
  angles : state.angles = depths.angles
  squares : state.squares = depths.squares
  parens : state.parens = depths.parens
  arrow : state.quote = none → (state.before = some '=' ↔ depths.before = some '=')

variable {state : SplitState} {depths : Depths}

theorem Level.atTop (level : Level state depths) (outside : state.quote = none) :
    state.atTop = true ↔ depths.AllZero := by
  simp [SplitState.atTop, Depths.AllZero, outside, level.angles, level.squares, level.parens, and_assoc]

/-- Hidden characters count for nothing on either side. -/
theorem Level.hidden {d quote : Char} (level : Level state depths) (hides : isBlank d = true ∨ isQuote d = true)
    (inside : (state.enter c).quote = some quote) : Level (state.enter c) (depths.step d) := by
  have other : d ∉ ['<', '>', '[', ']', '(', ')'] := by
    intro member
    simp only [List.mem_cons, List.not_mem_nil, or_false] at member
    rcases member with rfl | rfl | rfl | rfl | rfl | rfl <;> rcases hides with blank | quoted <;> contradiction
  have unread : state.enter c = { state with quote := some quote, before := some c } := by
    have quoted : state.quoteAfter c = some quote := (SplitState.quote_enter state c).symm.trans inside
    rw [SplitState.enter, quoted]
    rfl
  rw [unread, Depths.step_other other]
  exact { level with arrow := fun outside => absurd outside (Option.some_ne_none quote) }

/-- Characters outside of literals are counted alike. -/
theorem Level.shown (level : Level state depths) (outside : (state.enter c).quote = none) :
    Level (state.enter c) (depths.step c) := by
  have unquoted : state.quoteAfter c = none := (SplitState.quote_enter state c).symm.trans outside
  have counted : state.enter c = { ({ state with quote := none }.count c) with before := some c } := by
    rw [SplitState.enter, unquoted]
    rfl
  have arrow : c = '>' → (state.before = some '=' ↔ depths.before = some '=') := by
    rintro rfl
    exact level.arrow ((SplitState.quoteAfter_other rfl state).symm.trans unquoted)
  rw [counted]
  unfold SplitState.count
  split
  case h_2 =>
    have arrow := arrow rfl
    by_cases head : state.before = some '='
    · have head' := arrow.mp head
      exact ⟨by simp [Depths.step, head, head', level.angles], by simp [Depths.step, head, level.squares],
        by simp [Depths.step, head, level.parens], fun _ => Iff.rfl⟩
    · have head' := mt arrow.mpr head
      exact ⟨by simp [Depths.step, head, head', level.angles], by simp [Depths.step, head, level.squares],
        by simp [Depths.step, head, level.parens], fun _ => Iff.rfl⟩
  case h_7 noLess noGreater noOpen noClose noParen noParens =>
    have other : c ∉ ['<', '>', '[', ']', '(', ')'] := by
      simp only [List.mem_cons, List.not_mem_nil, or_false, not_or]
      exact ⟨noLess, noGreater, noOpen, noClose, noParen, noParens⟩
    rw [Depths.step_other other]
    exact { level with arrow := fun _ => Iff.rfl }
  all_goals exact ⟨by simp [Depths.step, level.angles], by simp [Depths.step, level.squares],
    by simp [Depths.step, level.parens], fun _ => Iff.rfl⟩

theorem Level.cut_iff (level : Level state depths) (shows : Shows text masked quotes)
    (separates : Separator separator) (noQuote : isQuote separator = false)
    (same : (state.quotes text).take (n + 1) = quotes.take (n + 1)) :
    text[n]? = some separator ∧ ((text.take (n + 1)).foldl SplitState.enter state).atTop = true ↔
      masked[n]? = some separator ∧ ((masked.take n).foldl Depths.step depths).AllZero := by
  -- both sides advance one character; `Level` carries the depths to the one at `n`
  induction shows generalizing state depths n with
  | nil => simp
  | @shown c text masked quotes _ ih =>
    rw [SplitState.quotes, List.take_succ_cons, List.take_succ_cons, List.cons.injEq] at same
    obtain ⟨outside, same⟩ := same
    cases n with
    | zero =>
      change some c = some separator ∧ (state.enter c).atTop = true ↔ some c = some separator ∧ depths.AllZero
      refine and_congr_right fun here => ?_
      obtain rfl := Option.some.inj here
      have marks : ['<', '>', '[', ']', '(', ')'] ⊆ splitMarks := by decide
      have other : c ∉ ['<', '>', '[', ']', '(', ')'] := fun bracket => separates.plain (marks bracket)
      rw [(level.shown outside).atTop outside, Depths.step_other other]
      rfl
    | succ n => exact ih (level.shown outside) same
  | @hidden c d quote text masked quotes hides _ ih =>
    rw [SplitState.quotes, List.take_succ_cons, List.take_succ_cons, List.cons.injEq] at same
    obtain ⟨inside, same⟩ := same
    cases n with
    | zero =>
      refine iff_of_false ?_ ?_
      · rintro ⟨-, top⟩
        have open_ : (state.enter c).atTop = true := top
        simp [SplitState.atTop, inside] at open_
      · rintro ⟨here, -⟩
        obtain rfl : d = separator := Option.some.inj here
        simp [separates.visible, noQuote] at hides
    | succ n => exact ih (level.hidden hides inside) same

end Simulation

section Main

/-- A splitter and the lexer see the same literals in a text without comments exactly if the literals are
simple. As long as they do, the text is cut at the commas, or semicolons, that its masked copy shows outside
of all brackets. -/
theorem cutAt_iff (uncommented : stripComments text = text) :
    (SplitState.start.quotes text = lexedQuotes text ↔ SimpleLiterals text) ∧
      ∀ separator, separator = ',' ∨ separator = ';' → ∀ n,
        (SplitState.start.quotes text).take (n + 1) = (lexedQuotes text).take (n + 1) →
        (CutAt separator text n ↔
          (maskAll text)[n]? = some separator ∧ TopLevel ((maskAll text).take n)) := by
  refine ⟨quotes_eq_iff uncommented, fun separator either n same => ?_⟩
  have level : Level .start .start := ⟨rfl, rfl, rfl, fun _ => Iff.rfl⟩
  have separates : Separator separator ∧ isQuote separator = false := by
    rcases either with rfl | rfl
    · exact ⟨separator_comma, rfl⟩
    · exact ⟨separator_semicolon, rfl⟩
  rw [cutAt_iff_atTop, level.cut_iff (shows_maskAll uncommented) separates.1 separates.2 same]
  rfl

/-- An item in simple literals: a separator inside of one, an escaped quote and a separator behind it. -/
def quotedItems : List Char :=
  "\"a,\\\"\", b".toList

theorem cutAt_iff_quoted : stripComments quotedItems = quotedItems ∧
    (SplitState.start.quotes quotedItems).take 7 = (lexedQuotes quotedItems).take 7 ∧
    CutAt ',' quotedItems 6 ∧ ¬CutAt ',' quotedItems 2 := by
  have uncommented : stripComments quotedItems = quotedItems := by decide +kernel
  have same : (SplitState.start.quotes quotedItems).take 7 = (lexedQuotes quotedItems).take 7 := by
    decide +kernel
  have sameBefore : (SplitState.start.quotes quotedItems).take 3 = (lexedQuotes quotedItems).take 3 := by
    decide +kernel
  have behind : (maskAll quotedItems)[6]? = some ',' := by decide +kernel
  have inside : (maskAll quotedItems)[2]? ≠ some ',' := by decide +kernel
  have top : TopLevel ((maskAll quotedItems).take 6) := by
    unfold TopLevel Depths.AllZero
    decide +kernel
  obtain ⟨-, cuts⟩ := cutAt_iff uncommented
  exact ⟨uncommented, same, (cuts ',' (.inl rfl) 6 same).mpr ⟨behind, top⟩,
    fun cut => inside ((cuts ',' (.inl rfl) 2 sameBefore).mp cut).1⟩

/-- An escaped backslash closes no literal for a splitter. -/
theorem not_cutAt_escaped :
    let text := "\"\\\\\", b".toList
    stripComments text = text ∧ (maskAll text)[4]? = some ',' ∧ TopLevel ((maskAll text).take 4) ∧
      ¬CutAt ',' text 4 ∧ splitTop ',' text = [text] := by
  unfold TopLevel Depths.AllZero CutAt
  decide +kernel

end Main

end ContractInspector.Source
