import ContractInspector.Proofs.Text.Stripping
import ContractInspector.Source.Split

/-! Splitting lists at commas. A part whose brackets are balanced, and whose commas stand between
brackets, is taken along as a whole (`Carried`), so such parts are what a list of them is split into
(`splitTop_separated`). -/
namespace ContractInspector.Source

open Text (isBlank strip)

variable {part other : List Char} {nested : Bool} {c : Char}

/-- A splitter at commas takes a part along, at least if a bracket is open. -/
def Carried (nested : Bool) (part : List Char) : Prop :=
  ∀ state : SplitState, state.quote = none → state.before ≠ some '=' →
    (nested = true → state.atTop = false) →
    ∃ before, before ≠ some '=' ∧ part.foldl (SplitState.step ',') state =
      { state with before := before, item := part.reverse ++ state.item }

theorem Carried.inBrackets (carried : Carried false part) (nested : Bool) : Carried nested part :=
  fun state quote before _ => carried state quote before (by simp)

theorem carried_nil : Carried nested [] :=
  fun state _ before _ => ⟨state.before, before, rfl⟩

theorem carried_append (one : Carried nested part) (two : Carried nested other) :
    Carried nested (part ++ other) := by
  intro state quote before inside
  obtain ⟨middle, noArrow, first⟩ := one state quote before inside
  obtain ⟨last, ends, second⟩ :=
    two { state with before := middle, item := part.reverse ++ state.item } quote noArrow inside
  refine ⟨last, ends, ?_⟩
  rw [List.foldl_append, first, second, List.reverse_append, List.append_assoc]

/-- The characters that a splitter looks at. -/
def splitMarks : List Char :=
  ['"', '\'', '<', '>', '[', ']', '(', ')', '=']

theorem step_plain (plain : c ∉ splitMarks) {state : SplitState} (quote : state.quote = none) :
    state.step ',' c =
      if c = ',' && state.atTop then
        { state with before := some c, item := [], items := state.flush }
      else { state with before := some c, item := c :: state.item } := by
  simp only [splitMarks, List.mem_cons, List.not_mem_nil, not_or, or_false] at plain
  obtain ⟨double, single, opening, closing, openingSquare, closingSquare, openingParen, closingParen, -⟩ :=
    plain
  have same : state.quoteAfter c = state.quote := by simp [SplitState.quoteAfter, double, single]
  have counted : state.count c = state := by
    unfold SplitState.count
    split <;> simp_all
  have whole : { state with quote := state.quoteAfter c } = state := by rw [same]
  simp only [SplitState.step, whole, counted, ite_self, quote]

theorem carried_char (plain : c ∉ splitMarks) (inside : c = ',' → nested = true) :
    Carried nested [c] := by
  intro state quote before within
  have noSplit : (decide (c = ',') && state.atTop) = false := by
    by_cases comma : c = ','
    · simp [within (inside comma)]
    · simp [comma]
  refine ⟨some c, ?_, ?_⟩
  · intro arrow
    obtain rfl := Option.some.inj arrow
    exact plain (by decide)
  · rw [List.foldl_cons, List.foldl_nil, step_plain plain quote, if_neg (by simp [noSplit])]
    rfl

theorem carried_plain (plain : ∀ c ∈ part, c ∉ splitMarks ∧ c ≠ ',') : Carried nested part := by
  induction part with
  | nil => exact carried_nil
  | cons c part ih =>
    obtain ⟨⟨noMark, noComma⟩, others⟩ := List.forall_mem_cons.mp plain
    exact carried_append (carried_char noMark fun comma => absurd comma noComma) (ih others)

/-- A part between brackets is taken along, with its commas. -/
theorem carried_bracketed {opener closer : Char}
    (brackets : (opener, closer) ∈ [('<', '>'), ('[', ']'), ('(', ')')]) (carried : Carried true part) :
    Carried nested (opener :: (part ++ [closer])) := by
  intro state quote before _
  simp only [List.mem_cons, List.not_mem_nil, or_false, Prod.mk.injEq] at brackets
  let entered := { state.count opener with before := some opener, item := opener :: state.item }
  have opened : state.step ',' opener = entered := by
    rcases brackets with ⟨rfl, rfl⟩ | ⟨rfl, rfl⟩ | ⟨rfl, rfl⟩ <;>
      simp [SplitState.step, SplitState.quoteAfter, SplitState.count, quote, entered]
  have inside : entered.quote = none ∧ entered.before ≠ some '=' ∧ entered.atTop = false := by
    rcases brackets with ⟨rfl, rfl⟩ | ⟨rfl, rfl⟩ | ⟨rfl, rfl⟩ <;>
      simp [SplitState.count, SplitState.atTop, quote, entered]
  obtain ⟨last, noArrow, passed⟩ := carried entered inside.1 inside.2.1 fun _ => inside.2.2
  refine ⟨some closer, ?_, ?_⟩
  · rcases brackets with ⟨rfl, rfl⟩ | ⟨rfl, rfl⟩ | ⟨rfl, rfl⟩ <;> decide
  · rw [List.foldl_cons, opened, List.foldl_append, passed]
    rcases brackets with ⟨rfl, rfl⟩ | ⟨rfl, rfl⟩ | ⟨rfl, rfl⟩ <;>
      simp [SplitState.step, SplitState.quoteAfter, SplitState.count, quote, noArrow, entered]

/-- Items one after another, with a comma and a space between them. -/
def separated (items : List (List Char)) : List Char :=
  [',', ' '].intercalate items

/-- An item that a list can have. -/
structure Item (item : List Char) : Prop where
  carried : Carried false item
  nonempty : item ≠ []
  first : item.head?.any isBlank = false
  last : item.getLast?.any isBlank = false

theorem Item.strip_eq {item front back : List Char} (isItem : Item item)
    (leading : ∀ c ∈ front, isBlank c = true) (trailing : ∀ c ∈ back, isBlank c = true) :
    strip (front ++ (item ++ back)) = item := by
  rw [Text.strip_append_left leading, Text.strip_append_right trailing isItem.first,
    Text.strip_eq_self isItem.first isItem.last]

section Lists

/-- A splitter outside of all brackets, with some text of the current item and some items behind it. -/
def splitterAt (before : Option Char) (text : List Char) (items : List (List Char)) : SplitState :=
  ⟨before, none, 0, 0, 0, text.reverse, items⟩

theorem flush_splitterAt (before : Option Char) (text : List Char) (items : List (List Char)) :
    (splitterAt before text items).flush =
      if (strip text).isEmpty then items else strip text :: items := by
  simp [splitterAt, SplitState.flush]

theorem fold_splitterAt (carried : Carried false part) {before : Option Char} (noArrow : before ≠ some '=')
    (text : List Char) (items : List (List Char)) :
    ∃ last, last ≠ some '=' ∧ part.foldl (SplitState.step ',') (splitterAt before text items) =
      splitterAt last (text ++ part) items := by
  obtain ⟨last, ends, passed⟩ := carried (splitterAt before text items) rfl noArrow (by simp)
  refine ⟨last, ends, ?_⟩
  rw [passed]
  simp [splitterAt]

theorem step_comma (before : Option Char) (text : List Char) (items : List (List Char)) :
    (splitterAt before text items).step ',' ',' =
      splitterAt (some ',') [] (splitterAt before text items).flush := by
  rw [step_plain (by decide) rfl]
  rfl

theorem carried_blanks (blank : ∀ c ∈ part, c = ' ') : Carried nested part := by
  refine carried_plain fun c member => ?_
  rw [blank c member]
  decide

theorem fold_separated {items : List (List Char)} (isItem : ∀ item ∈ items, Item item)
    {front back : List Char} (leading : ∀ c ∈ front, c = ' ') (trailing : ∀ c ∈ back, c = ' ')
    {before : Option Char} (noArrow : before ≠ some '=') (done : List (List Char)) :
    ((separated items ++ back).foldl (SplitState.step ',') (splitterAt before front done)).flush =
      items.reverse ++ done := by
  have blanks : ∀ {part : List Char}, (∀ c ∈ part, c = ' ') → ∀ c ∈ part, isBlank c = true := by
    intro part all c member
    rw [all c member]
    rfl
  induction items generalizing front before done with
  | nil =>
    obtain ⟨last, -, passed⟩ := fold_splitterAt (carried_blanks trailing) noArrow front done
    have none : strip (front ++ back) = [] := by
      rw [Text.strip_append_left (blanks leading), Text.strip_eq,
        List.dropWhile_eq_nil_iff.mpr (blanks trailing)]
      rfl
    rw [separated, List.intercalate_nil, List.nil_append, passed, flush_splitterAt, none]
    rfl
  | cons item items ih =>
    obtain ⟨here, others⟩ := List.forall_mem_cons.mp isItem
    obtain ⟨middle, plain, first⟩ := fold_splitterAt here.carried noArrow front done
    cases items with
    | nil =>
      obtain ⟨last, -, passed⟩ := fold_splitterAt (carried_blanks trailing) plain (front ++ item) done
      have whole := here.strip_eq (blanks leading) (blanks trailing)
      rw [← List.append_assoc] at whole
      rw [separated, List.intercalate_singleton, List.foldl_append, first, passed, flush_splitterAt, whole]
      simp [here.nonempty]
    | cons next items =>
      have split : separated (item :: next :: items) ++ back =
          item ++ ',' :: ' ' :: (separated (next :: items) ++ back) := by
        simp [separated]
      have stripped : strip (front ++ (item ++ [])) = item :=
        here.strip_eq (blanks leading) (by simp)
      rw [List.append_nil] at stripped
      have space : (splitterAt (some ',') [] (item :: done)).step ',' ' ' =
          splitterAt (some ' ') [' '] (item :: done) := by
        rw [step_plain (by decide) rfl]
        rfl
      rw [split, List.foldl_append, first, List.foldl_cons, List.foldl_cons, step_comma,
        flush_splitterAt, stripped, if_neg (by simp [here.nonempty]), space,
        ih others (by simp) (by simp)]
      simp

/-- A list of items, with spaces around it, is split into its items. -/
theorem splitTop_separated {items : List (List Char)} (isItem : ∀ item ∈ items, Item item)
    {front back : List Char} (leading : ∀ c ∈ front, c = ' ') (trailing : ∀ c ∈ back, c = ' ') :
    splitTop ',' (front ++ (separated items ++ back)) = items := by
  obtain ⟨last, plain, passed⟩ :=
    fold_splitterAt (carried_blanks leading) (show none ≠ some '=' by simp) [] []
  have start : SplitState.start = splitterAt none [] [] := rfl
  rw [splitTop, List.foldl_append, start, passed, List.nil_append,
    fold_separated isItem leading trailing plain, List.append_nil, List.reverse_reverse]

theorem count_item (state : SplitState) (c : Char) :
    (state.count c).item = state.item ∧ (state.count c).items = state.items := by
  unfold SplitState.count
  split
  case h_2 => split <;> exact ⟨rfl, rfl⟩
  all_goals exact ⟨rfl, rfl⟩

theorem fold_of_not_mem {separator : Char} (absent : separator ∉ part) (state : SplitState) :
    (part.foldl (SplitState.step separator) state).item = part.reverse ++ state.item ∧
      (part.foldl (SplitState.step separator) state).items = state.items := by
  induction part generalizing state with
  | nil => exact ⟨rfl, rfl⟩
  | cons c part ih =>
    rw [List.mem_cons, not_or] at absent
    obtain ⟨other, absent⟩ := absent
    have step : (state.step separator c).item = c :: state.item ∧
        (state.step separator c).items = state.items := by
      simp only [SplitState.step, Ne.symm other, decide_false, Bool.false_and, Bool.false_eq_true, if_false]
      split <;> simp [count_item]
    obtain ⟨item, items⟩ := ih absent (state.step separator c)
    rw [List.foldl_cons, item, items, step.1, step.2]
    simp

/-- A separator that does not occur splits nothing. -/
theorem splitTop_of_not_mem {separator : Char} {item : List Char} (absent : separator ∉ item)
    (isItem : Item item) : splitTop separator item = [item] := by
  obtain ⟨text, items⟩ := fold_of_not_mem absent SplitState.start
  have stripped := Text.strip_eq_self isItem.first isItem.last
  rw [splitTop, SplitState.flush, text, items]
  simp [SplitState.start, stripped, isItem.nonempty]

end Lists

end ContractInspector.Source
