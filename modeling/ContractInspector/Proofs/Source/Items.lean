import ContractInspector.Proofs.Source.Comments
import ContractInspector.Proofs.Source.Splitting

/-! The items of a text that is split at its top level. `splitTop_eq` says that they are the pieces between
the separators outside of all brackets and quotes, as far as these show anything, and `splitTop_lossless`
what splitting keeps. -/
namespace ContractInspector.Source

open Text (isBlank strip)

namespace SplitState

variable {one two state : SplitState} {c separator : Char} {text front back : List Char}

/-- What a splitter knows behind a character, apart from the items. -/
def enter (state : SplitState) (c : Char) : SplitState :=
  let quoted := { state with quote := state.quoteAfter c }
  { (if quoted.quote.isNone then quoted.count c else quoted) with before := some c }

theorem step_eq (state : SplitState) (separator c : Char) :
    state.step separator c =
      if c = separator && (state.enter c).atTop then
        { state.enter c with item := [], items := state.flush }
      else { state.enter c with item := c :: state.item } := by
  have kept (quoted : SplitState) : (quoted.count c).flush = quoted.flush := by
    rw [flush, flush, (count_item quoted c).1, (count_item quoted c).2]
  rw [step, enter]
  dsimp only
  split
  · rw [kept, (count_item _ c).1]
    rfl
  · rfl

theorem enter_items (state : SplitState) (c : Char) : (state.enter c).items = state.items := by
  rw [enter]
  dsimp only
  split
  · exact (count_item _ c).2
  · rfl

theorem enter_plain (plain : c ∉ splitMarks) (state : SplitState) :
    state.enter c = { state with before := some c } := by
  simp only [splitMarks, List.mem_cons, List.not_mem_nil, not_or, or_false] at plain
  have same : state.quoteAfter c = state.quote := by simp [quoteAfter, plain]
  have counted : state.count c = state := by
    unfold count
    split <;> simp_all
  rw [enter, same]
  dsimp only
  rw [counted, ite_self]

/-- Two splitters that go on alike. -/
structure Alike (one two : SplitState) : Prop where
  quote : one.quote = two.quote
  angles : one.angles = two.angles
  squares : one.squares = two.squares
  parens : one.parens = two.parens
  escape : one.before = some '\\' ↔ two.before = some '\\'
  arrow : one.before = some '=' ↔ two.before = some '='

theorem Alike.atTop (alike : Alike one two) : one.atTop = two.atTop := by
  rw [SplitState.atTop, SplitState.atTop, alike.quote, alike.angles, alike.squares, alike.parens]

theorem Alike.quoteAfter (alike : Alike one two) (c : Char) : one.quoteAfter c = two.quoteAfter c := by
  rw [SplitState.quoteAfter, SplitState.quoteAfter, alike.quote]
  simp only [ne_eq, alike.escape]

theorem Alike.count (alike : Alike one two) (c : Char) : Alike (one.count c) (two.count c) := by
  unfold SplitState.count
  split
  case h_2 =>
    simp only [alike.arrow]
    split
    · exact alike
    · exact { alike with angles := congrArg (· - 1) alike.angles }
  · exact { alike with angles := congrArg (· + 1) alike.angles }
  · exact { alike with squares := congrArg (· + 1) alike.squares }
  · exact { alike with squares := congrArg (· - 1) alike.squares }
  · exact { alike with parens := congrArg (· + 1) alike.parens }
  · exact { alike with parens := congrArg (· - 1) alike.parens }
  · exact alike

theorem Alike.enter (alike : Alike one two) (c : Char) : Alike (one.enter c) (two.enter c) := by
  have quoted : Alike { one with quote := one.quoteAfter c } { two with quote := two.quoteAfter c } :=
    { alike with quote := alike.quoteAfter c }
  rw [SplitState.enter, SplitState.enter]
  dsimp only
  rw [alike.quoteAfter c]
  rw [alike.quoteAfter c] at quoted
  split
  · exact { quoted.count c with escape := Iff.rfl, arrow := Iff.rfl }
  · exact { quoted with escape := Iff.rfl, arrow := Iff.rfl }

theorem Alike.enters (alike : Alike one two) (text : List Char) :
    Alike (text.foldl SplitState.enter one) (text.foldl SplitState.enter two) := by
  induction text generalizing one two with
  | nil => exact alike
  | cons c rest ih => exact ih (alike.enter c)

/-- Outside of all brackets and quotes, a splitter goes on as at the start. -/
theorem alike_start (top : state.atTop = true) (escape : state.before ≠ some '\\')
    (arrow : state.before ≠ some '=') : Alike state start := by
  simp only [atTop, Bool.and_eq_true, Option.isNone_iff_eq_none, beq_iff_eq] at top
  obtain ⟨⟨⟨quote, angles⟩, squares⟩, parens⟩ := top
  have unread (c : Char) : start.before ≠ some c := (Option.some_ne_none c).symm
  exact ⟨quote, angles, squares, parens, iff_of_false escape (unread _), iff_of_false arrow (unread _)⟩

end SplitState

/-- A character that can stand between items: a splitter does not look at it, and no item starts or
ends with it when it is stripped. -/
structure Separator (c : Char) : Prop where
  plain : c ∉ splitMarks
  escape : c ≠ '\\'
  visible : isBlank c = false

theorem Separator.of_cut {c separator : Char} (separates : Separator separator)
    (cut : decide (c = separator) = true) : Separator c :=
  of_decide_eq_true cut ▸ separates

theorem separator_comma : Separator ',' := ⟨by decide, by decide, by decide⟩

theorem separator_semicolon : Separator ';' := ⟨by decide, by decide, by decide⟩

namespace SplitState

variable {one two state : SplitState} {c separator : Char} {cuts others : Char → Bool}
  {text part front back : List Char}

theorem atTop_enter (plain : c ∉ splitMarks) (state : SplitState) :
    (state.enter c).atTop = state.atTop := by
  rw [enter_plain plain]
  rfl

theorem atTop_enters (plain : ∀ c ∈ part, c ∉ splitMarks) (state : SplitState) :
    (part.foldl enter state).atTop = state.atTop := by
  induction part generalizing state with
  | nil => rfl
  | cons c part ih =>
    obtain ⟨here, others⟩ := List.forall_mem_cons.mp plain
    rw [List.foldl_cons, ih others, atTop_enter here]

theorem alike_behind (plain : c ∉ splitMarks) (escape : c ≠ '\\') (top : state.atTop = true) :
    Alike (state.enter c) start := by
  apply alike_start
  · rwa [atTop_enter plain]
  · rw [enter_plain plain]
    exact fun same => escape (Option.some.inj same)
  · rw [enter_plain plain]
    intro same
    obtain rfl := Option.some.inj same
    exact plain (by decide)

/-- What stands between the separators outside of all brackets and quotes. -/
def pieces (cuts : Char → Bool) : SplitState → List Char → List (List Char)
  | _, [] => [[]]
  | state, c :: rest =>
    if cuts c && (state.enter c).atTop then [] :: (state.enter c).pieces cuts rest
    else ((state.enter c).pieces cuts rest).modifyHead (c :: ·)

theorem pieces_cons (cuts : Char → Bool) (state : SplitState) (c : Char) (rest : List Char) :
    state.pieces cuts (c :: rest) =
      if cuts c && (state.enter c).atTop then [] :: (state.enter c).pieces cuts rest
      else ((state.enter c).pieces cuts rest).modifyHead (c :: ·) := rfl

theorem pieces_ne_nil (cuts : Char → Bool) (state : SplitState) (text : List Char) :
    state.pieces cuts text ≠ [] := by
  induction text generalizing state with
  | nil => exact List.cons_ne_nil _ _
  | cons c rest ih =>
    rw [pieces_cons]
    split
    · exact List.cons_ne_nil _ _
    · simpa using ih _

theorem Alike.pieces (alike : Alike one two) (cuts : Char → Bool) (text : List Char) :
    one.pieces cuts text = two.pieces cuts text := by
  induction text generalizing one two with
  | nil => rfl
  | cons c rest ih =>
    rw [SplitState.pieces, SplitState.pieces, (alike.enter c).atTop, ih (alike.enter c)]

theorem pieces_append_of_forall (none : ∀ c ∈ front, cuts c = false) (state : SplitState)
    (back : List Char) :
    state.pieces cuts (front ++ back) =
      ((front.foldl enter state).pieces cuts back).modifyHead (front ++ ·) := by
  induction front generalizing state with
  | nil =>
    change state.pieces cuts back = (state.pieces cuts back).modifyHead _
    cases state.pieces cuts back <;> rfl
  | cons c front ih =>
    obtain ⟨here, others⟩ := List.forall_mem_cons.mp none
    rw [List.cons_append, pieces_cons, here, Bool.false_and, if_neg Bool.false_ne_true, ih others,
      List.modifyHead_modifyHead]
    rfl

theorem pieces_of_forall (none : ∀ c ∈ text, cuts c = false) (state : SplitState) :
    state.pieces cuts text = [text] := by
  have split := pieces_append_of_forall none state []
  rw [List.append_nil] at split
  rw [split, pieces, List.modifyHead_cons, List.append_nil]

/-- A separator outside of all brackets and quotes takes the pieces apart. -/
theorem pieces_append_cons (separates : Separator c) (isCut : cuts c = true)
    (top : (front.foldl enter state).atTop = true) (back : List Char) :
    state.pieces cuts (front ++ c :: back) = state.pieces cuts front ++ start.pieces cuts back := by
  induction front generalizing state with
  | nil =>
    have top : state.atTop = true := top
    have behind : (state.enter c).atTop = true := (atTop_enter separates.plain state).trans top
    rw [List.nil_append, pieces_cons, isCut, behind,
      (alike_behind separates.plain separates.escape top).pieces]
    rfl
  | cons d front ih =>
    rw [List.cons_append, pieces_cons, pieces_cons, ih top]
    split
    · rfl
    · cases found : (state.enter d).pieces cuts front with
      | nil => exact absurd found (pieces_ne_nil _ _ _)
      | cons piece pieces => rfl

/-- Either nothing is cut off, or a first piece is. -/
theorem whole_or_cut (separates : ∀ c, cuts c = true → Separator c) (state : SplitState)
    (text : List Char) :
    state.pieces cuts text = [text] ∨ ∃ front c back, text = front ++ c :: back ∧ cuts c = true ∧
      (front.foldl enter state).atTop = true ∧ state.pieces cuts front = [front] := by
  induction text generalizing state with
  | nil => exact .inl rfl
  | cons c rest ih =>
    by_cases isCut : (cuts c && (state.enter c).atTop) = true
    · obtain ⟨cut, top⟩ := Bool.and_eq_true_iff.mp isCut
      rw [atTop_enter (separates c cut).plain] at top
      exact .inr ⟨[], c, rest, rfl, cut, top, rfl⟩
    · have step (part : List Char) (whole : (state.enter c).pieces cuts part = [part]) :
          state.pieces cuts (c :: part) = [c :: part] := by
        rw [pieces_cons, if_neg isCut, whole]
        rfl
      rcases ih (state.enter c) with whole | ⟨front, d, back, rfl, cut, top, whole⟩
      · exact .inl (step rest whole)
      · exact .inr ⟨c :: front, d, back, rfl, cut, top, step front whole⟩

/-- Cutting each piece again is cutting at both kinds of separators. -/
theorem flatMap_pieces (separates : ∀ c, cuts c = true → Separator c) (others : Char → Bool)
    (state : SplitState) (text : List Char) {head : List Char} {tail : List (List Char)}
    (found : state.pieces cuts text = head :: tail) :
    state.pieces others head ++ tail.flatMap (start.pieces others) =
      state.pieces (fun c => cuts c || others c) text := by
  induction text generalizing state head tail with
  | nil =>
    cases found
    rfl
  | cons c rest ih =>
    obtain ⟨first, behind, later⟩ := List.exists_cons_of_ne_nil (pieces_ne_nil cuts (state.enter c) rest)
    have again := ih (state.enter c) later
    rw [pieces_cons, later] at found
    by_cases isCut : (cuts c && (state.enter c).atTop) = true
    · obtain ⟨cut, top⟩ := Bool.and_eq_true_iff.mp isCut
      have isSeparator := separates c cut
      have alike := alike_behind isSeparator.plain isSeparator.escape
        ((atTop_enter isSeparator.plain state).symm.trans top)
      rw [if_pos isCut] at found
      obtain ⟨rfl, rfl⟩ := List.cons.inj found
      rw [pieces_cons, cut, top, ← again, alike.pieces]
      rfl
    · rw [if_neg isCut] at found
      obtain ⟨rfl, rfl⟩ := List.cons.inj found
      have same : ((cuts c || others c) && (state.enter c).atTop) =
          (others c && (state.enter c).atTop) := by
        rw [Bool.and_or_distrib_right, eq_false_of_ne_true isCut, Bool.false_or]
      rw [pieces_cons, pieces_cons, same, ← again]
      split
      · rfl
      · cases found : (state.enter c).pieces others first with
        | nil => exact absurd found (pieces_ne_nil _ _ _)
        | cons piece pieces => rfl

end SplitState

section Shown

variable {front back text piece : List Char} {pieces others : List (List Char)}

/-- Pieces as items: stripped, without blank ones. -/
def shown (pieces : List (List Char)) : List (List Char) :=
  (pieces.map strip).filter (!·.isEmpty)

theorem shown_append (pieces others : List (List Char)) :
    shown (pieces ++ others) = shown pieces ++ shown others := by
  rw [shown, List.map_append, List.filter_append]
  rfl

theorem shown_cons (piece : List Char) (pieces : List (List Char)) :
    shown (piece :: pieces) = shown [piece] ++ shown pieces :=
  shown_append [piece] pieces

theorem shown_of_blank (blank : strip piece = []) : shown [piece] = [] := by
  rw [shown, List.map_singleton, blank]
  rfl

theorem shown_of_visible (visible : strip piece ≠ []) : shown [piece] = [strip piece] := by
  simp [shown, visible]

theorem shown_modifyHead (blank : ∀ c ∈ front, isBlank c = true) (pieces : List (List Char)) :
    shown (pieces.modifyHead (front ++ ·)) = shown pieces := by
  cases pieces with
  | nil => rfl
  | cons piece pieces =>
    rw [List.modifyHead_cons, shown, List.map_cons, Text.strip_append_left blank]
    rfl

theorem shown_singleton_append (blank : ∀ c ∈ back, isBlank c = true) (piece : List Char) :
    shown [piece ++ back] = shown [piece] := by
  rw [shown, List.map_singleton, Text.strip_append_blanks blank]
  rfl

/-- Items are the same as the items of pieces. -/
theorem flatMap_shown {read : List Char → List (List Char)} (nil : read [] = [])
    (stripped : ∀ text, read (strip text) = read text) (pieces : List (List Char)) :
    (shown pieces).flatMap read = pieces.flatMap read := by
  induction pieces with
  | nil => rfl
  | cons piece pieces ih =>
    rw [shown_cons, List.flatMap_append, ih, List.flatMap_cons]
    by_cases blank : strip piece = []
    · rw [shown_of_blank blank, ← stripped piece, blank, nil]
      rfl
    · rw [shown_of_visible blank, List.flatMap_singleton, stripped]

end Shown

section Items

variable {separator : Char} {text front back part : List Char}

theorem flush_reverse (state : SplitState) :
    state.flush.reverse = state.items.reverse ++ shown [state.item.reverse] := by
  rw [SplitState.flush]
  by_cases blank : strip state.item.reverse = []
  · simp [blank, shown_of_blank blank]
  · simp [blank, shown_of_visible blank]

/-- The items behind a state: those it has, and those of the pieces of the text, of which the first one
continues its current item. -/
theorem fold_flush (separator : Char) (state : SplitState) (text : List Char) :
    (text.foldl (SplitState.step separator) state).flush.reverse =
      state.items.reverse ++
        shown ((state.pieces (· = separator) text).modifyHead (state.item.reverse ++ ·)) := by
  have alike (state : SplitState) (item : List Char) (items : List (List Char)) :
      SplitState.Alike { state with item := item, items := items } state :=
    ⟨rfl, rfl, rfl, rfl, Iff.rfl, Iff.rfl⟩
  induction text generalizing state with
  | nil => simpa [SplitState.pieces] using flush_reverse state
  | cons c rest ih =>
    rw [List.foldl_cons, ih, SplitState.step_eq, SplitState.pieces_cons]
    split
    · rw [(alike _ _ _).pieces]
      change state.flush.reverse ++ shown (List.modifyHead ([] ++ ·) _) = _
      rw [shown_modifyHead (by simp), flush_reverse, List.modifyHead_cons, shown_cons (_ ++ _),
        List.append_nil, List.append_assoc]
    · have behind : ((c :: state.item).reverse ++ ·) = (state.item.reverse ++ ·) ∘ (c :: ·) := by
        funext text
        simp
      rw [(alike _ _ _).pieces, List.modifyHead_modifyHead, ← behind]
      exact congrArg (·.reverse ++ _) (state.enter_items c)

theorem splitTop_eq (separator : Char) (text : List Char) :
    splitTop separator text = shown (SplitState.start.pieces (· = separator) text) := by
  have fold := fold_flush separator SplitState.start text
  rw [splitTop, fold]
  cases SplitState.start.pieces (· = separator) text <;> rfl

/-- A text that ends outside of all brackets and quotes. -/
def Closed (text : List Char) : Prop :=
  (text.foldl SplitState.enter .start).atTop = true

/-- No separator of a text stands outside of all brackets and quotes. -/
def Whole (cuts : Char → Bool) (text : List Char) : Prop :=
  SplitState.start.pieces cuts text = [text]

theorem splitTop_whole (whole : Whole (· = separator) text) : splitTop separator text = shown [text] := by
  rw [splitTop_eq, whole]

theorem splitTop_append_cons (separates : Separator separator) (closed : Closed front)
    (back : List Char) :
    splitTop separator (front ++ separator :: back) =
      splitTop separator front ++ splitTop separator back := by
  rw [splitTop_eq, SplitState.pieces_append_cons separates (by simp) closed, shown_append,
    ← splitTop_eq, ← splitTop_eq]

/-- Induction along the separators of a text that stand outside of all brackets and quotes. -/
@[elab_as_elim]
theorem item_induction (separates : Separator separator) {motive : List Char → Prop}
    (whole : ∀ text, Whole (· = separator) text → motive text)
    (cut : ∀ front back, Whole (· = separator) front → Closed front → motive back →
      motive (front ++ separator :: back)) (text : List Char) : motive text := by
  rcases SplitState.whole_or_cut (fun _ => separates.of_cut) .start text with one | ⟨front, c, back, split, same, top, one⟩
  · exact whole text one
  · have shorter : back.length < text.length := by
      rw [split, List.length_append, List.length_cons]
      omega
    rw [split, of_decide_eq_true same]
    exact cut front back one top (item_induction separates whole cut back)
  termination_by text.length
  decreasing_by exact shorter

section Blanks

theorem plain_of_blank {c : Char} (blank : isBlank c = true) : c ∉ splitMarks ∧ c ≠ '\\' := by
  constructor
  · intro member
    have visible : ∀ c ∈ splitMarks, isBlank c = false := by decide
    rw [visible c member] at blank
    contradiction
  · rintro rfl
    contradiction

/-- Blanks in front of a text change nothing for a splitter. -/
theorem alike_blanks (blank : ∀ c ∈ front, isBlank c = true) :
    SplitState.Alike (front.foldl SplitState.enter .start) .start := by
  have goesOn : ∀ state : SplitState, SplitState.Alike state .start →
      SplitState.Alike (front.foldl SplitState.enter state) .start := by
    induction front with
    | nil => exact fun _ alike => alike
    | cons c front ih =>
      obtain ⟨here, others⟩ := List.forall_mem_cons.mp blank
      obtain ⟨plain, escape⟩ := plain_of_blank here
      intro state alike
      exact ih others _ (SplitState.alike_behind plain escape alike.atTop)
  exact goesOn .start ⟨rfl, rfl, rfl, rfl, Iff.rfl, Iff.rfl⟩

theorem closed_strip (closed : Closed text) : Closed (strip text) := by
  obtain ⟨front, back, leading, trailing, split⟩ := Text.exists_blanks text
  have plain (c : Char) (member : c ∈ back) : c ∉ splitMarks := (plain_of_blank (trailing c member)).1
  rw [Closed, split, List.foldl_append, List.foldl_append, SplitState.atTop_enters plain,
    ((alike_blanks leading).enters _).atTop] at closed
  exact closed

theorem uncut_blanks (visible : isBlank separator = false) (blank : ∀ c ∈ part, isBlank c = true) :
    ∀ c ∈ part, decide (c = separator) = false := by
  intro c member
  refine decide_eq_false fun same => ?_
  rw [← same, blank c member] at visible
  contradiction

theorem splitTop_blanks_append (visible : isBlank separator = false)
    (blank : ∀ c ∈ front, isBlank c = true) (text : List Char) :
    splitTop separator (front ++ text) = splitTop separator text := by
  have none := uncut_blanks visible blank
  rw [splitTop_eq, SplitState.pieces_append_of_forall none, (alike_blanks blank).pieces,
    shown_modifyHead blank, ← splitTop_eq]

theorem splitTop_append_blanks (visible : isBlank separator = false)
    (blank : ∀ c ∈ back, isBlank c = true) (text : List Char) :
    splitTop separator (text ++ back) = splitTop separator text := by
  have none := uncut_blanks visible blank
  rw [splitTop, List.foldl_append, fold_flush, SplitState.pieces_of_forall none, List.modifyHead_cons,
    shown_singleton_append blank, ← flush_reverse, ← splitTop]

theorem splitTop_strip (visible : isBlank separator = false) (text : List Char) :
    splitTop separator (strip text) = splitTop separator text := by
  obtain ⟨front, back, leading, trailing, split⟩ := Text.exists_blanks text
  calc splitTop separator (strip text)
    _ = splitTop separator (front ++ (strip text ++ back)) := by
        rw [splitTop_blanks_append visible leading, splitTop_append_blanks visible trailing]
    _ = splitTop separator text := congrArg _ split.symm

end Blanks

/-- An item has visible characters at both ends, and is split into itself alone. -/
structure IsItem (separator : Char) (item : List Char) : Prop where
  nonempty : item ≠ []
  first : item.head?.any isBlank = false
  last : item.getLast?.any isBlank = false
  single : splitTop separator item = [item]

theorem splitTop_item (separates : Separator separator) {text item : List Char}
    (member : item ∈ splitTop separator text) : IsItem separator item := by
  have single (piece : List Char) (whole : Whole (· = separator) piece) (member : item ∈ shown [piece]) :
      IsItem separator item := by
    by_cases blank : strip piece = []
    · simp [shown_of_blank blank] at member
    · have items := shown_of_visible blank
      rw [items, List.mem_singleton] at member
      rw [member]
      refine ⟨blank, Text.head?_strip piece, Text.getLast?_strip piece, ?_⟩
      rw [splitTop_strip separates.visible, splitTop_whole whole, items]
  induction text using item_induction separates with
  | whole text whole =>
    rw [splitTop_whole whole] at member
    exact single text whole member
  | cut front back whole closed ih =>
    rw [splitTop_append_cons separates closed, splitTop_whole whole, List.mem_append] at member
    exact member.elim (single front whole) ih

/-- Joined again, the items of a text are split into the same items. -/
theorem splitTop_join (separates : Separator separator) (text : List Char) :
    splitTop separator ([separator].intercalate (splitTop separator text)) =
      splitTop separator text := by
  have single (piece : List Char) (whole : Whole (· = separator) piece) :
      splitTop separator ([separator].intercalate (shown [piece])) = shown [piece] := by
    by_cases blank : strip piece = []
    · rw [shown_of_blank blank]
      rfl
    · rw [shown_of_visible blank, List.intercalate_singleton, splitTop_strip separates.visible,
        splitTop_whole whole, shown_of_visible blank]
  induction text using item_induction separates with
  | whole text whole =>
    rw [splitTop_whole whole]
    exact single text whole
  | cut front back whole closed ih =>
    rw [splitTop_append_cons separates closed, splitTop_whole whole]
    by_cases blank : strip front = []
    · rw [shown_of_blank blank]
      exact ih
    by_cases last : splitTop separator back = []
    · rw [last, List.append_nil]
      exact single front whole
    · rw [shown_of_visible blank, List.singleton_append, List.intercalate_cons_of_ne_nil last,
        List.append_assoc, List.singleton_append, splitTop_append_cons separates (closed_strip closed),
        ih, splitTop_strip separates.visible, splitTop_whole whole, shown_of_visible blank]
      rfl

/-- The characters of a text that are neither blanks nor a separator. -/
def solid (separator : Char) (text : List Char) : List Char :=
  text.filter fun c => !isBlank c && c != separator

theorem solid_strip (separator : Char) (text : List Char) :
    solid separator (strip text) = solid separator text := by
  have seen (text : List Char) : solid separator text = (visible text).filter (· != separator) := by
    simp only [solid, visible, List.filter_filter, Bool.and_comm]
  rw [seen, seen, visible_strip]

theorem solid_shown (separator : Char) (piece : List Char) :
    solid separator (shown [piece]).flatten = solid separator piece := by
  by_cases blank : strip piece = []
  · rw [shown_of_blank blank, ← solid_strip separator piece, blank]
    rfl
  · rw [shown_of_visible blank, List.flatten_singleton, solid_strip]

/-- Splitting loses blanks and separators only. -/
theorem solid_splitTop (separates : Separator separator) (text : List Char) :
    solid separator (splitTop separator text).flatten = solid separator text := by
  induction text using item_induction separates with
  | whole text whole => rw [splitTop_whole whole, solid_shown]
  | cut front back whole closed ih =>
    rw [splitTop_append_cons separates closed, splitTop_whole whole, List.flatten_append, solid,
      List.filter_append, ← solid, ← solid, solid_shown, ih, solid, solid, solid, List.filter_append,
      List.filter_cons_of_neg (by simp)]

/-- Splitting at one separator and the items at another is splitting at both. -/
theorem flatMap_splitTop {other : Char} (separates : Separator separator) (visible : isBlank other = false)
    (text : List Char) :
    (splitTop separator text).flatMap (splitTop other) =
      shown (SplitState.start.pieces (fun c => c = separator || c = other) text) := by
  obtain ⟨head, tail, found⟩ := List.exists_cons_of_ne_nil
    (SplitState.pieces_ne_nil (· = separator) .start text)
  calc (splitTop separator text).flatMap (splitTop other)
    _ = (head :: tail).flatMap (splitTop other) := by
        rw [splitTop_eq separator, flatMap_shown rfl (splitTop_strip visible), found]
    _ = (head :: tail).flatMap fun piece => shown (SplitState.start.pieces (· = other) piece) :=
        congrArg (List.flatMap · _) (funext (splitTop_eq other))
    _ = shown ((head :: tail).flatMap (SplitState.start.pieces (· = other))) := by
        rw [shown, List.map_flatMap, List.filter_flatMap]
        rfl
    _ = shown (SplitState.start.pieces (fun c => c = separator || c = other) text) := by
        rw [← SplitState.flatMap_pieces (fun _ => separates.of_cut) (· = other) .start text found]
        rfl

/-- The items of a text, joined by the separator, are split into themselves again, and all that splitting
loses are blanks and separators. Which of two separators is looked at first does not matter: commas and
semicolons are such separators. -/
theorem splitTop_lossless {other : Char} (separates : Separator separator) (separatesToo : Separator other)
    (text : List Char) :
    let items := splitTop separator text
    (∀ item ∈ items, IsItem separator item) ∧
      splitTop separator ([separator].intercalate items) = items ∧
      solid separator items.flatten = solid separator text ∧
      items.flatMap (splitTop other) = (splitTop other text).flatMap (splitTop separator) := by
  refine ⟨fun item => splitTop_item separates, splitTop_join separates text,
    solid_splitTop separates text, ?_⟩
  have either : (fun c => decide (c = separator) || decide (c = other)) =
      fun c => decide (c = other) || decide (c = separator) :=
    funext fun c => Bool.or_comm _ _
  rw [flatMap_splitTop separates separatesToo.visible, flatMap_splitTop separatesToo separates.visible,
    either]

/-- A function type, an arrow without brackets, blank items and a literal that nothing closes. -/
theorem splitTop_lossless_open :
    let text := " f: (a, b) => C<D, E>;, g=>>;h ,\"x, y; ".toList
    Separator ',' ∧ Separator ';' ∧
      splitTop ',' text =
        ["f: (a, b) => C<D, E>;".toList, "g=>>;h".toList, "\"x, y;".toList] ∧
      splitTop ',' ([','].intercalate (splitTop ',' text)) = splitTop ',' text ∧
      (splitTop ',' text).flatMap (splitTop ';') = (splitTop ';' text).flatMap (splitTop ',') := by
  intro text
  have lossless := splitTop_lossless separator_comma separator_semicolon text
  exact ⟨separator_comma, separator_semicolon, by decide +kernel, lossless.2.1, lossless.2.2.2⟩

end Items

end ContractInspector.Source
