import ContractInspector.Issue.Usage
import ContractInspector.Source.Spans
import ContractInspector.Proofs.Source.Comments
import ContractInspector.Proofs.Source.Nesting
import ContractInspector.Proofs.Text.Standing

/-! Blanking the calls of `disclose` in any text, masked or not. The loop goes on behind a call that it has
blanked, and what it finds there is what stands in the text itself: `withoutDisclosed_eq_hide_calls` says that
it blanks the calls that are found from left to right, and that it ends by itself. -/
namespace ContractInspector.Issue

open Source (Block Span blockAt?)
open Text (Cursor Match Pattern StandsAt isBlank isWord placeAt slice)

variable {text front rest : List Char} {spans : List Span} {block : Block} {n m paren : Nat}

/-- A call of `disclose` is opened at an offset of a text. -/
def OpensAt (text : List Char) (n : Nat) : Prop :=
  ∃ front gap rest, text = front ++ ("disclose".toList ++ (gap ++ '(' :: rest)) ∧ front.length = n ∧
    front.getLast?.any isWord = false ∧ ∀ c ∈ gap, isBlank c = true

/-- The word `disclose` stands at an offset of a text, and behind it, with blanks between them, the
parenthesis at another offset. -/
def OpensTo (text : List Char) (n paren : Nat) : Prop :=
  ∃ gap, (∀ c ∈ gap, isBlank c = true) ∧ StandsAt isWord ("disclose".toList ++ (gap ++ ['('])) text n ∧
    paren + 1 = n + ("disclose".toList ++ (gap ++ ['('])).length

/-- The first call that is opened at or behind an offset. -/
structure NextCall (text : List Char) (n m paren : Nat) : Prop where
  behind : n ≤ m
  opens : OpensTo text m paren
  first : ∀ k, n ≤ k → k < m → ¬OpensAt text k

/-- The calls of `disclose` in a text from an offset on: the next one that is opened is taken up to its closing
parenthesis, and the others are those behind it. A call that never closes ends the search. -/
inductive CallsFrom (text : List Char) : Nat → List Span → Prop where
  | none {n : Nat} : (∀ m, n ≤ m → ¬OpensAt text m) → CallsFrom text n []
  | unclosed {n m paren : Nat} : NextCall text n m paren → blockAt? text paren = .none → CallsFrom text n []
  | call {n m paren : Nat} {block : Block} {spans : List Span} : NextCall text n m paren →
      blockAt? text paren = some block → CallsFrom text (block.closing + 1) spans →
      CallsFrom text n (⟨m, block.closing⟩ :: spans)

/-- An offset lies in one of some spans, their ends included. -/
def hides (spans : List Span) (n : Nat) : Bool :=
  spans.any fun span => span.opening ≤ n && n ≤ span.closing

/-- A text with some spans blanked. -/
def hide (spans : List Span) (text : List Char) : List Char :=
  text.mapIdx fun n c => if hides spans n then ' ' else c

section Opening

theorem mem_outcomes_disclosure {outcome : Text.Outcome} :
    outcome ∈ disclosure.outcomes (.between front text) [] ↔
      ∃ gap rest, text = "disclose".toList ++ (gap ++ '(' :: rest) ∧
        front.getLast?.any isWord = false ∧ (∀ c ∈ gap, isBlank c = true) ∧
        outcome = (.between (front ++ ("disclose".toList ++ (gap ++ ['(']))) rest, []) :=
  Pattern.mem_outcomes_opening rfl

theorem exists_matchAt?_disclosure_iff (inside : n ≤ text.length) :
    (∃ found, disclosure.matchAt? (placeAt text n) = some found) ↔ OpensAt text n := by
  constructor
  · rintro ⟨found, matched⟩
    obtain ⟨front, behind, outcome, rfl, rfl, way, -⟩ := Pattern.exists_way inside matched
    obtain ⟨gap, rest, rfl, whole, blank, -⟩ := mem_outcomes_disclosure.mp (List.mem_of_mem_head? way)
    exact ⟨front, gap, rest, rfl, rfl, whole, blank⟩
  · rintro ⟨front, gap, rest, rfl, rfl, whole, blank⟩
    rw [Text.placeAt_length]
    exact Pattern.exists_matchAt?_of_mem (mem_outcomes_disclosure.mpr ⟨gap, rest, rfl, whole, blank, rfl⟩)

theorem OpensAt.inside (opens : OpensAt text n) : n ≤ text.length := by
  obtain ⟨front, gap, rest, rfl, rfl, -⟩ := opens
  simp

theorem starts_disclose : "disclose".toList.head?.any isWord = true := rfl

theorem opensTo_iff (inside : n ≤ text.length) : OpensTo text n paren ↔
    ∃ found, disclosure.matchAt? (placeAt text n) = some found ∧ found.stop.offset = paren + 1 := by
  constructor
  · rintro ⟨gap, blank, stands, ends⟩
    obtain ⟨found, matched, stop⟩ := Text.exists_opening starts_disclose blank stands
    exact ⟨found, matched, stop.trans ends.symm⟩
  · rintro ⟨found, matched, stop⟩
    obtain ⟨gap, blank, stands, ends⟩ := Text.standsAt_of_opening starts_disclose inside matched
    exact ⟨gap, blank, stands, stop.symm.trans ends⟩

theorem OpensTo.inside (opens : OpensTo text n paren) : n ≤ text.length := by
  obtain ⟨gap, -, stands, -⟩ := opens
  obtain ⟨front, rest, rfl, rfl, -⟩ := (Text.standsAt_iff (by simp)).mp stands
  simp

theorem opensAt_iff : OpensAt text n ↔ ∃ paren, OpensTo text n paren := by
  constructor
  · intro opens
    obtain ⟨found, matched⟩ := (exists_matchAt?_disclosure_iff opens.inside).mpr opens
    obtain ⟨gap, blank, stands, ends⟩ :=
      Text.standsAt_of_opening starts_disclose opens.inside matched
    have positive : 1 ≤ n + ("disclose".toList ++ (gap ++ ['('])).length := by
      simp only [List.length_append, List.length_cons]
      omega
    exact ⟨_, gap, blank, stands, Nat.sub_add_cancel positive⟩
  · rintro ⟨paren, opens⟩
    obtain ⟨found, matched, -⟩ := (opensTo_iff opens.inside).mp opens
    exact (exists_matchAt?_disclosure_iff opens.inside).mp ⟨found, matched⟩

theorem OpensTo.unique {paren' : Nat} (first : OpensTo text n paren) (second : OpensTo text n paren') :
    paren = paren' := by
  obtain ⟨found, matched, stop⟩ := (opensTo_iff first.inside).mp first
  obtain ⟨other, matched', stop'⟩ := (opensTo_iff second.inside).mp second
  obtain rfl := Option.some.inj (matched.symm.trans matched')
  omega

/-- The parenthesis is behind the word, and what stands behind it is the rest of the text. -/
theorem OpensTo.behind (opens : OpensTo text n paren) :
    n < paren ∧ text.drop paren = '(' :: text.drop (paren + 1) := by
  obtain ⟨gap, -, stands, ends⟩ := opens
  obtain ⟨front, rest, rfl, rfl, -⟩ := (Text.standsAt_iff (by simp)).mp stands
  have same : front ++ ("disclose".toList ++ (gap ++ ['(']) ++ rest) =
      (front ++ "disclose".toList ++ gap) ++ '(' :: rest := by simp
  have length : paren = (front ++ "disclose".toList ++ gap).length := by
    simp only [List.length_append, List.length_cons, List.length_nil] at ends ⊢
    omega
  refine ⟨?_, ?_⟩
  · rw [length]
    simp
  · rw [same, length, List.drop_left, List.drop_length_add_append]
    rfl

theorem NextCall.unique {m' paren' : Nat} (first : NextCall text n m paren)
    (second : NextCall text n m' paren') : m = m' ∧ paren = paren' := by
  have notBefore : ¬m < m' := fun before =>
    second.first m first.behind before (opensAt_iff.mpr ⟨_, first.opens⟩)
  have notBehind : ¬m' < m := fun before =>
    first.first m' second.behind before (opensAt_iff.mpr ⟨_, second.opens⟩)
  obtain rfl : m = m' := by omega
  exact ⟨rfl, first.opens.unique second.opens⟩

/-- The block of a parenthesis ends inside of the text, with the other parenthesis. -/
theorem closes_of_blockAt? {rest : List Char} (opens : text.drop paren = '(' :: rest)
    (found : blockAt? text paren = some block) : paren < block.closing ∧ text[block.closing]? = some ')' := by
  obtain rfl : text.drop (paren + 1) = rest := by rw [← List.tail_drop, opens, List.tail_cons]
  rw [blockAt?, opens, Source.blockFrom?] at found
  obtain ⟨stop, stops, rfl⟩ := Option.map_eq_some_iff.mp found
  rw [Source.closingFrom_eq rfl] at stops
  obtain ⟨k, rfl, here, -⟩ := Source.levels_of_counterStop (by decide) stops
  have closes := (Source.getElem?_of_masked here (by decide)).1
  rw [List.getElem?_drop] at closes
  exact ⟨by dsimp only; omega, closes⟩

end Opening

section Hiding

theorem hides_iff : hides spans n = true ↔ ∃ span ∈ spans, span.opening ≤ n ∧ n ≤ span.closing := by
  simp [hides]

theorem hides_cons (span : Span) (spans : List Span) (n : Nat) :
    hides (span :: spans) n = ((span.opening ≤ n && n ≤ span.closing) || hides spans n) := rfl

theorem getElem?_hide (spans : List Span) (text : List Char) (n : Nat) :
    (hide spans text)[n]? = text[n]?.map fun c => if hides spans n then ' ' else c := by
  rw [hide, List.getElem?_mapIdx]

theorem length_hide (spans : List Span) (text : List Char) : (hide spans text).length = text.length :=
  List.length_mapIdx

theorem hide_nil (text : List Char) : hide [] text = text := by
  apply List.ext_getElem?
  intro n
  rw [getElem?_hide]
  simp [hides]

end Hiding

section Searching

/-- Searching for a call behind a text that does not end with a part of a word. -/
theorem searchFrom?_disclosure (whole : front.getLast?.any isWord = false) :
    Text.searchFrom? disclosureSearcher.matchAt? front.getLast? rest front.length =
      (disclosure.search? rest).map (Match.behind front) := by
  have blind : disclosure.Blind front.getLast? := by
    intro holds looks
    obtain rfl : holds = isWord := List.mem_singleton.mp looks
    exact whole
  rw [Pattern.search?_eq_searchAt, ← Pattern.searchAt_behind blind 0, Pattern.searchAt, Nat.add_zero,
    Text.placeAt_length, List.drop_left, disclosureSearcher, Text.Pattern.matchAt?_searcher]
  rfl

theorem matchAt?_drop (inside : n ≤ text.length) (whole : (text.take n).getLast?.any isWord = false) (k : Nat) :
    disclosure.matchAt? (placeAt text (n + k)) =
      (disclosure.matchAt? (placeAt (text.drop n) k)).map (Match.behind (text.take n)) := by
  have blind : disclosure.Blind (text.take n).getLast? := by
    intro holds looks
    obtain rfl : holds = isWord := List.mem_singleton.mp looks
    exact whole
  have moved := @Pattern.matchAt?_behind (text.take n) (text.drop n) disclosure blind k
  rwa [List.take_append_drop, List.length_take_of_le inside] at moved

theorem matchAt?_drop_eq_none_iff {k : Nat} (inside : n + k ≤ text.length)
    (whole : (text.take n).getLast?.any isWord = false) :
    disclosure.matchAt? (placeAt (text.drop n) k) = none ↔ ¬OpensAt text (n + k) := by
  rw [← exists_matchAt?_disclosure_iff inside, matchAt?_drop (Nat.le_of_add_right_le inside) whole]
  cases disclosure.matchAt? (placeAt (text.drop n) k) <;> simp

/-- A search behind an offset finds the next call. -/
theorem NextCall.search? (next : NextCall text n m paren) (whole : (text.take n).getLast?.any isWord = false) :
    ∃ found, disclosure.search? (text.drop n) = some found ∧ n + found.start.offset = m ∧
      n + found.stop.offset = paren + 1 ∧ found.stop.rest = text.drop (paren + 1) := by
  have inside := Nat.le_trans next.behind next.opens.inside
  obtain ⟨other, matched, stop⟩ := (opensTo_iff next.opens.inside).mp next.opens
  obtain ⟨k, rfl⟩ := Nat.exists_eq_add_of_le next.behind
  rw [matchAt?_drop inside whole, Option.map_eq_some_iff] at matched
  obtain ⟨found, here, rfl⟩ := matched
  have fits := Pattern.fits_of_matchAt? here
  have passes : disclosure.Passes (text.drop n) 0 k := by
    intro i _ below
    have within : n + i ≤ text.length := Nat.le_trans (by omega) next.opens.inside
    exact (matchAt?_drop_eq_none_iff within whole).mpr (next.first _ (Nat.le_add_right n i) (by omega))
  have short : k ≤ (text.drop n).length := by
    have := next.opens.inside
    rw [List.length_drop]
    omega
  have stop : n + found.stop.offset = paren + 1 := by
    rwa [Match.behind, Cursor.offset_behind, List.length_take_of_le inside] at stop
  refine ⟨found, Pattern.search?_eq_some_iff.mpr ⟨k, short, here, passes⟩, by rw [fits.1], stop, ?_⟩
  have place := (Pattern.reached_of_mem fits.2.mem_outcomes).place
  have rest : found.stop.rest = (text.drop n).drop found.stop.offset := congrArg Cursor.rest place
  rw [rest, List.drop_drop, stop]

theorem search?_eq_none (inside : n ≤ text.length) (whole : (text.take n).getLast?.any isWord = false)
    (nowhere : ∀ m, n ≤ m → ¬OpensAt text m) : disclosure.search? (text.drop n) = none := by
  refine Pattern.search?_eq_none_iff.mpr fun k short => ?_
  rw [List.length_drop] at short
  exact (matchAt?_drop_eq_none_iff (by omega) whole).mpr (nowhere _ (Nat.le_add_right n k))

end Searching

section Calling

theorem exists_callsFrom (inside : n ≤ text.length) : ∃ spans, CallsFrom text n spans := by
  classical
  generalize distance : text.length - n = k
  induction k using Nat.strongRecOn generalizing n with
  | ind k ih =>
    by_cases opened : ∃ m, n ≤ m ∧ OpensAt text m
    · obtain ⟨m, ⟨behind, opens⟩, least⟩ := Nat.findX opened
      obtain ⟨paren, opens⟩ := opensAt_iff.mp opens
      have next : NextCall text n m paren :=
        ⟨behind, opens, fun i above below opens => least i below ⟨above, opens⟩⟩
      cases found : blockAt? text paren with
      | none => exact ⟨[], .unclosed next found⟩
      | some block =>
        obtain ⟨after, closes⟩ := closes_of_blockAt? opens.behind.2 found
        have before := opens.behind.1
        have ends := (List.getElem?_eq_some_iff.mp closes).1
        obtain ⟨spans, calls⟩ := @ih (text.length - (block.closing + 1)) (by omega) (block.closing + 1) ends rfl
        exact ⟨_, .call next found calls⟩
    · exact ⟨[], .none fun m behind opens => opened ⟨m, behind, opens⟩⟩

theorem CallsFrom.unique {spans' : List Span} (first : CallsFrom text n spans)
    (second : CallsFrom text n spans') : spans = spans' := by
  induction first generalizing spans' with
  | none nowhere =>
    cases second with
    | none | unclosed => rfl
    | call next => exact absurd (opensAt_iff.mpr ⟨_, next.opens⟩) (nowhere _ next.behind)
  | unclosed next endless =>
    cases second with
    | none | unclosed => rfl
    | call next' found =>
      obtain ⟨-, rfl⟩ := next.unique next'
      exact nomatch endless.symm.trans found
  | call next found _ ih =>
    cases second with
    | none nowhere => exact absurd (opensAt_iff.mpr ⟨_, next.opens⟩) (nowhere _ next.behind)
    | unclosed next' endless =>
      obtain ⟨-, rfl⟩ := next.unique next'
      exact nomatch endless.symm.trans found
    | call next' found' later =>
      obtain ⟨rfl, rfl⟩ := next.unique next'
      obtain rfl := Option.some.inj (found.symm.trans found')
      rw [ih later]

/-- The calls stand behind one another inside of the text. -/
theorem CallsFrom.ordered (calls : CallsFrom text n spans) :
    (∀ span ∈ spans, n ≤ span.opening ∧ span.opening < span.closing ∧ span.closing < text.length) ∧
      spans.Pairwise fun first second => first.closing < second.opening := by
  induction calls with
  | none | unclosed => simp
  | @call n m paren block spans next found _ ih =>
    obtain ⟨inside, apart⟩ := ih
    obtain ⟨after, closes⟩ := closes_of_blockAt? next.opens.behind.2 found
    have before := next.opens.behind.1
    have ends := (List.getElem?_eq_some_iff.mp closes).1
    have behind := next.behind
    rw [List.forall_mem_cons, List.pairwise_cons]
    refine ⟨⟨⟨behind, Nat.lt_trans before after, ends⟩, fun span member => ?_⟩,
      fun span member => ?_, apart⟩
    · obtain ⟨low, ordered, high⟩ := inside span member
      exact ⟨by omega, ordered, high⟩
    · exact (inside span member).1

theorem CallsFrom.length_le (calls : CallsFrom text n spans) (inside : n ≤ text.length) :
    n + spans.length ≤ text.length := by
  induction calls with
  | none | unclosed => simpa using inside
  | call next found _ ih =>
    obtain ⟨after, closes⟩ := closes_of_blockAt? next.opens.behind.2 found
    have before := next.opens.behind.1
    have behind := next.behind
    have := ih (List.getElem?_eq_some_iff.mp closes).1
    rw [List.length_cons]
    omega

end Calling

section Loop

variable {fuel : Nat} {done : List (List Char)}

/-- The place at an offset of a text of which everything in front is blanked. -/
def resumeAt (text : List Char) (n : Nat) : Cursor :=
  .between (List.replicate n ' ') (text.drop n)

theorem searchFrom?_resumeAt (text : List Char) (n : Nat) :
    Text.searchFrom? disclosureSearcher.matchAt? (resumeAt text n).before (resumeAt text n).rest
        (resumeAt text n).offset =
      (disclosure.search? (text.drop n)).map (Match.behind (List.replicate n ' ')) := by
  refine searchFrom?_disclosure ?_
  rw [List.getLast?_replicate]
  split <;> rfl

theorem withoutDisclosedFrom_none (nowhere : disclosure.search? (text.drop n) = none) :
    withoutDisclosedFrom (fuel + 1) (resumeAt text n) done = done.reverse.flatten ++ text.drop n := by
  have searched := searchFrom?_resumeAt text n
  rw [nowhere, Option.map_none] at searched
  rw [withoutDisclosedFrom]
  simp only [searched]
  simp [resumeAt]

theorem blockFrom?_paren {found : Match} (opens : OpensTo text m paren)
    (stop : n + found.stop.offset = paren + 1) (rest : found.stop.rest = text.drop (paren + 1)) :
    Source.blockFrom? ((found.behind (List.replicate n ' ')).stop.offset - 1)
        ('(' :: (found.behind (List.replicate n ' ')).stop.rest) = blockAt? text paren := by
  have offset : (found.behind (List.replicate n ' ')).stop.offset - 1 = paren := by
    rw [Match.behind, Cursor.offset_behind, List.length_replicate, stop, Nat.add_sub_cancel]
  rw [offset, Match.behind, Cursor.rest_behind, rest, blockAt?, opens.behind.2]

theorem withoutDisclosedFrom_unclosed (next : NextCall text n m paren)
    (whole : (text.take n).getLast?.any isWord = false) (endless : blockAt? text paren = none) :
    withoutDisclosedFrom (fuel + 1) (resumeAt text n) done = done.reverse.flatten ++ text.drop n := by
  obtain ⟨found, first, -, stop, rest⟩ := next.search? whole
  have searched := searchFrom?_resumeAt text n
  rw [first, Option.map_some] at searched
  rw [withoutDisclosedFrom]
  simp only [searched, blockFrom?_paren next.opens stop rest, endless]
  simp [resumeAt]

/-- One turn of the loop: what stands in front of the next call is kept, and the call is blanked. -/
theorem withoutDisclosedFrom_call (next : NextCall text n m paren)
    (whole : (text.take n).getLast?.any isWord = false) (closes : blockAt? text paren = some block) :
    withoutDisclosedFrom (fuel + 1) (resumeAt text n) done =
      withoutDisclosedFrom fuel (resumeAt text (block.closing + 1))
        (List.replicate (block.closing + 1 - m) ' ' :: slice text n m :: done) := by
  obtain ⟨found, first, start, stop, rest⟩ := next.search? whole
  have searched := searchFrom?_resumeAt text n
  rw [first, Option.map_some] at searched
  have startOffset : (found.behind (List.replicate n ' ')).start.offset = m := by
    rw [Match.behind, Cursor.offset_behind, List.length_replicate, start]
  have stopOffset : (found.behind (List.replicate n ' ')).stop.offset = paren + 1 := by
    rw [Match.behind, Cursor.offset_behind, List.length_replicate, stop]
  have stopRest : (found.behind (List.replicate n ' ')).stop.rest = text.drop (paren + 1) := rest
  have behind := (closes_of_blockAt? next.opens.behind.2 closes).1
  have after : (text.drop (paren + 1)).drop (block.closing + 1 - (paren + 1)) = text.drop (block.closing + 1) := by
    rw [List.drop_drop, Nat.add_sub_cancel' (by omega)]
  have place : resumeAt text (block.closing + 1) =
      ⟨some ' ', text.drop (block.closing + 1), block.closing + 1⟩ := by
    rw [resumeAt, Cursor.between, List.getLast?_replicate, if_neg (Nat.succ_ne_zero _), List.length_replicate]
  rw [withoutDisclosedFrom]
  simp only [searched, blockFrom?_paren next.opens stop rest, closes]
  simp only [startOffset, stopOffset, stopRest, after, place]
  simp only [resumeAt, Cursor.rest_between, Cursor.offset_between, List.length_replicate, slice]

/-- From an offset on, blanking spans keeps what is in front of the first one, and blanks this. -/
theorem drop_hide_cons {closing : Nat} (behind : n ≤ m) (ordered : m ≤ closing) (inside : closing < text.length)
    (others : ∀ span ∈ spans, closing < span.opening) :
    (hide (⟨m, closing⟩ :: spans) text).drop n =
      slice text n m ++ (List.replicate (closing + 1 - m) ' ' ++ (hide spans text).drop (closing + 1)) := by
  have within : m ≤ text.length := by omega
  have front : (slice text n m).length = m - n := by
    rw [slice, List.length_take, List.length_drop]
    omega
  apply List.ext_getElem?
  intro k
  rw [List.getElem?_drop, getElem?_hide, hides_cons]
  rcases Nat.lt_or_ge k (m - n) with before | behindFront
  · have outside : ¬m ≤ n + k := by omega
    have shown : hides spans (n + k) = false := by
      rw [Bool.eq_false_iff, ne_eq, hides_iff]
      rintro ⟨span, member, opens, -⟩
      have := others span member
      omega
    rw [List.getElem?_append_left (by omega), slice, List.getElem?_take_of_lt before, List.getElem?_drop, shown]
    simp [outside]
  · obtain ⟨k, rfl⟩ := Nat.exists_eq_add_of_le behindFront
    have here : n + (m - n + k) = m + k := by omega
    rw [List.getElem?_append_right (by omega), front, Nat.add_sub_cancel_left, here]
    rcases Nat.lt_or_ge k (closing + 1 - m) with covered | beyond
    · have hidden : m + k ≤ closing := by omega
      have inText : m + k < text.length := by omega
      rw [List.getElem?_append_left (by rwa [List.length_replicate]), List.getElem?_replicate_of_lt covered,
        List.getElem?_eq_getElem inText]
      simp [hidden]
    · obtain ⟨k, rfl⟩ := Nat.exists_eq_add_of_le beyond
      have there : m + (closing + 1 - m + k) = closing + 1 + k := by omega
      have passed : ¬closing + 1 + k ≤ closing := by omega
      rw [List.getElem?_append_right (by rw [List.length_replicate]; exact beyond), List.length_replicate,
        Nat.add_sub_cancel_left, List.getElem?_drop, getElem?_hide, there]
      simp [passed]

/-- The loop blanks the calls that are found, and needs one turn for each of them and one to end. -/
theorem CallsFrom.withoutDisclosedFrom_eq (calls : CallsFrom text n spans) (inside : n ≤ text.length)
    (whole : (text.take n).getLast?.any isWord = false) (enough : spans.length < fuel) :
    withoutDisclosedFrom fuel (resumeAt text n) done = done.reverse.flatten ++ (hide spans text).drop n := by
  induction calls generalizing fuel done with
  | none nowhere =>
    obtain ⟨fuel, rfl⟩ := Nat.exists_eq_succ_of_ne_zero (Nat.ne_of_gt enough)
    rw [withoutDisclosedFrom_none (search?_eq_none inside whole nowhere), hide_nil]
  | unclosed next endless =>
    obtain ⟨fuel, rfl⟩ := Nat.exists_eq_succ_of_ne_zero (Nat.ne_of_gt enough)
    rw [withoutDisclosedFrom_unclosed next whole endless, hide_nil]
  | @call n m paren block spans next found later ih =>
    obtain ⟨fuel, rfl⟩ := Nat.exists_eq_succ_of_ne_zero (Nat.ne_of_gt (Nat.zero_lt_of_lt enough))
    obtain ⟨after, closes⟩ := closes_of_blockAt? next.opens.behind.2 found
    have before := next.opens.behind.1
    have ends := (List.getElem?_eq_some_iff.mp closes).1
    have paren : (text.take (block.closing + 1)).getLast?.any isWord = false := by
      rw [Text.getLast?_take_succ ends, closes]
      rfl
    have hidden := @drop_hide_cons text spans n m block.closing next.behind (by omega) ends
      fun span member => (later.ordered.1 span member).1
    rw [withoutDisclosedFrom_call next whole found, ih ends paren (Nat.lt_of_succ_lt_succ enough), hidden]
    simp

theorem CallsFrom.withoutDisclosed_eq (calls : CallsFrom text 0 spans) : withoutDisclosed text = hide spans text := by
  have short := calls.length_le (Nat.zero_le _)
  exact calls.withoutDisclosedFrom_eq (Nat.zero_le _) rfl (by omega)

end Loop

section Editing

/-- The same loop over the text itself: a call is replaced with blanks where it stands, and the search goes on
behind it, in the text that has been changed. -/
def blankFrom : (fuel : Nat) → (text : List Char) → (n : Nat) → List Char
  | 0, text, _ => text
  | fuel + 1, text, n =>
    let place := placeAt text n
    match Text.searchFrom? disclosureSearcher.matchAt? place.before place.rest place.offset with
    | none => text
    | some found =>
      match blockAt? text (found.stop.offset - 1) with
      | none => text
      | some block =>
        let start := found.start.offset
        let stop := block.closing + 1
        blankFrom fuel (text.take start ++ (List.replicate (stop - start) ' ' ++ text.drop stop)) stop

variable {passed gap : List Char} {found : Match}

/-- The first call in a text. -/
structure FirstCall (text : List Char) (found : Match) (front gap rest : List Char) : Prop where
  split : text = front ++ ("disclose".toList ++ (gap ++ '(' :: rest))
  start : found.start.offset = front.length
  stop : found.stop = .between (front ++ ("disclose".toList ++ (gap ++ ['(']))) rest
  whole : front.getLast?.any isWord = false
  blank : ∀ c ∈ gap, isBlank c = true
  first : ∀ n < front.length, ¬OpensAt text n

theorem exists_firstCall {found : Match} (searched : disclosure.search? text = some found) :
    ∃ front gap rest, FirstCall text found front gap rest := by
  obtain ⟨n, inside, matched, passes⟩ := Pattern.search?_eq_some_iff.mp searched
  have first : ∀ m < n, ¬OpensAt text m := by
    intro m below opens
    obtain ⟨other, earlier⟩ := (exists_matchAt?_disclosure_iff opens.inside).mpr opens
    exact nomatch earlier.symm.trans (passes m (Nat.zero_le m) below)
  obtain ⟨front, behind, outcome, rfl, rfl, way, rfl⟩ := Pattern.exists_way inside matched
  obtain ⟨gap, rest, rfl, whole, blank, rfl⟩ := mem_outcomes_disclosure.mp (List.mem_of_mem_head? way)
  exact ⟨front, gap, rest, rfl, rfl, rfl, whole, blank, first⟩

/-- A first call ends with a parenthesis, behind which stands what is left of the text. -/
theorem drop_paren (first : FirstCall rest found front gap after) (passed : List Char) :
    (found.behind passed).start.offset < (found.behind passed).stop.offset - 1 ∧
      (passed ++ rest).drop ((found.behind passed).stop.offset - 1) = '(' :: (found.behind passed).stop.rest := by
  have offset : (found.behind passed).stop.offset - 1 = (passed ++ (front ++ ("disclose".toList ++ gap))).length := by
    rw [Match.behind, Cursor.offset_behind, first.stop, Cursor.offset_between]
    simp only [List.length_append, List.length_cons, List.length_nil]
    omega
  have split : passed ++ rest = passed ++ (front ++ ("disclose".toList ++ gap)) ++ '(' :: after := by
    rw [first.split]
    simp only [List.append_assoc]
  refine ⟨?_, ?_⟩
  · rw [offset, Match.behind, Cursor.offset_behind, first.start]
    simp
  · rw [offset, split, List.drop_left, Match.behind, Cursor.rest_behind, first.stop, Cursor.rest_between]

/-- A text up to a place behind a call, once the call is blanked. -/
def blankedTo (text : List Char) (start stop : Nat) : List Char :=
  text.take start ++ List.replicate (stop - start) ' '

/-- Behind a blanked call the search goes on in the text as it was, at a place behind a blank. -/
theorem between_blankedTo (first : FirstCall rest found front gap after)
    (closes : blockAt? (passed ++ rest) ((found.behind passed).stop.offset - 1) = some block) :
    Cursor.between (blankedTo (passed ++ rest) (found.behind passed).start.offset (block.closing + 1))
        ((passed ++ rest).drop (block.closing + 1)) =
      ⟨some ' ', (found.behind passed).stop.rest.drop (block.closing + 1 - (found.behind passed).stop.offset),
        block.closing + 1⟩ := by
  obtain ⟨ahead, opens⟩ := drop_paren first passed
  obtain ⟨behind, closer⟩ := closes_of_blockAt? opens closes
  have inside := (List.getElem?_eq_some_iff.mp closer).1
  have last : (blankedTo (passed ++ rest) (found.behind passed).start.offset (block.closing + 1)).getLast? =
      some ' ' := by
    rw [blankedTo, List.getLast?_append, List.getLast?_replicate, if_neg (by omega), Option.some_or]
  have length : (blankedTo (passed ++ rest) (found.behind passed).start.offset (block.closing + 1)).length =
      block.closing + 1 := by
    rw [List.length_append] at inside
    simp only [blankedTo, List.length_append, List.length_take, List.length_replicate]
    omega
  have left : (passed ++ rest).drop (block.closing + 1) =
      (found.behind passed).stop.rest.drop (block.closing + 1 - (found.behind passed).stop.offset) := by
    have shorter := congrArg (List.drop (block.closing + 1 - (found.behind passed).stop.offset + 1)) opens
    rw [List.drop_drop, List.drop_succ_cons] at shorter
    rw [← shorter]
    congr 1
    omega
  rw [Cursor.between, last, length, left]

/-- Keeping what is done apart from what is left gives what changing the text gives. -/
theorem withoutDisclosedFrom_eq_blankFrom (fuel : Nat) (done : List (List Char)) (rest : List Char)
    (whole : done.reverse.flatten.getLast?.any isWord = false) :
    withoutDisclosedFrom fuel (.between done.reverse.flatten rest) done =
      blankFrom fuel (done.reverse.flatten ++ rest) done.reverse.flatten.length := by
  induction fuel generalizing done rest with
  | zero => simp [withoutDisclosedFrom, blankFrom]
  | succ fuel ih =>
    generalize passed : done.reverse.flatten = front at whole ih ⊢
    have searched : Text.searchFrom? disclosureSearcher.matchAt? front.getLast? rest front.length =
      (disclosure.search? rest).map (Match.behind front) := searchFrom?_disclosure whole
    rw [withoutDisclosedFrom, blankFrom, Text.placeAt_length]
    dsimp only [Cursor.between]
    rw [searched]
    cases next : disclosure.search? rest with
    | none => simp [passed]
    | some found =>
      obtain ⟨piece, gap, after, first⟩ := exists_firstCall next
      dsimp only [Option.map_some]
      obtain ⟨-, opens⟩ := drop_paren first front
      rw [blockAt?, opens]
      cases closes : Source.blockFrom? ((found.behind front).stop.offset - 1)
        ('(' :: (found.behind front).stop.rest) with
      | none => simp [passed]
      | some block =>
        dsimp only
        generalize startAt : (found.behind front).start.offset = start
        have found? : blockAt? (front ++ rest) ((found.behind front).stop.offset - 1) = some block := by
          rw [blockAt?, opens, closes]
        have place := between_blankedTo first found?
        rw [startAt] at place
        have last : (blankedTo (front ++ rest) start (block.closing + 1)).getLast? = some ' ' :=
          congrArg Cursor.before place
        have length : (blankedTo (front ++ rest) start (block.closing + 1)).length = block.closing + 1 :=
          congrArg Cursor.offset place
        have behind : front.take start = front := List.take_of_length_le (by
          rw [← startAt, Match.behind, Cursor.offset_behind]
          exact Nat.le_add_right _ _)
        have edited : (List.replicate (block.closing + 1 - start) ' ' :: rest.take (start - front.length) ::
            done).reverse.flatten = blankedTo (front ++ rest) start (block.closing + 1) := by
          simp [passed, blankedTo, List.take_append, behind]
        have turn := ih (List.replicate (block.closing + 1 - start) ' ' :: rest.take (start - front.length) :: done)
          ((front ++ rest).drop (block.closing + 1)) (by rw [edited, last]; rfl)
        rw [edited, place, length, blankedTo, List.append_assoc] at turn
        exact turn

end Editing

/-- Blanking is one pass over the text as it is. The calls that are taken from left to right are there, and they
are the only ones; they stand apart, and what is left is the text with exactly their offsets blanked. Changing
the text call by call comes to the same, and both loops end by themselves: once there is a turn for every call
and one to find no further, more of them change nothing. -/
theorem withoutDisclosed_eq_hide_calls (text : List Char) :
    ∃ spans, CallsFrom text 0 spans ∧ (∀ others, CallsFrom text 0 others → others = spans) ∧
      (spans.Pairwise fun first second => first.closing < second.opening) ∧
      (∀ span ∈ spans, span.opening < span.closing ∧ span.closing < text.length) ∧
      (withoutDisclosed text).length = text.length ∧
      (∀ n, (withoutDisclosed text)[n]? =
        if ∃ span ∈ spans, span.opening ≤ n ∧ n ≤ span.closing then some ' ' else text[n]?) ∧
      ∀ fuel, spans.length < fuel →
        withoutDisclosedFrom fuel (.start text) [] = withoutDisclosed text ∧
          blankFrom fuel text 0 = withoutDisclosed text := by
  obtain ⟨spans, calls⟩ := exists_callsFrom (Nat.zero_le text.length)
  have inside := calls.ordered.1
  have loop (fuel : Nat) (enough : spans.length < fuel) :
      withoutDisclosedFrom fuel (.start text) [] = hide spans text :=
    calls.withoutDisclosedFrom_eq (Nat.zero_le _) rfl enough
  have hidden := calls.withoutDisclosed_eq
  refine ⟨spans, calls, fun others there => there.unique calls, calls.ordered.2,
    fun span member => (inside span member).2, ?_, fun n => ?_, fun fuel enough => ⟨?_, ?_⟩⟩
  · rw [hidden, length_hide]
  · rw [hidden, getElem?_hide]
    by_cases covered : ∃ span ∈ spans, span.opening ≤ n ∧ n ≤ span.closing
    · obtain ⟨span, member, opens, closes⟩ := covered
      have within : n < text.length := Nat.lt_of_le_of_lt closes (inside span member).2.2
      rw [if_pos ⟨span, member, opens, closes⟩, hides_iff.mpr ⟨span, member, opens, closes⟩,
        List.getElem?_eq_getElem within]
      rfl
    · rw [if_neg covered, Bool.eq_false_iff.mpr fun hides => covered (hides_iff.mp hides)]
      simp
  · rw [loop fuel enough, hidden]
  · have edits := withoutDisclosedFrom_eq_blankFrom fuel [] text rfl
    rw [hidden, ← loop fuel enough]
    exact edits.symm

/-- A parenthesis in a literal closes no call, and one that stays open ends the search. -/
example : withoutDisclosed "disclose (\")\") disclose(c".toList = "               disclose(c".toList := by
  decide +kernel

end ContractInspector.Issue
