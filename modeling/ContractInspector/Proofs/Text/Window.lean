import ContractInspector.Proofs.Text.Behind
import Mathlib.Data.Nat.Init

/-! What a match depends on. A pattern sees the characters that it passes and those next to them:
`outcomes_agree` says that two texts which agree on a window have the same outcomes within it,
`Undisturbed.matchesIn` and `Undisturbed.search?` that they have the same matches if none leaves what they
agree on, and `search?_before` that a first match does not depend on what stands behind a character that
the pattern does not read. -/
namespace ContractInspector.Text

/-- Two texts have the same characters from one offset up to, not including, another one. -/
def Agree (first second : List Char) (low high : Nat) : Prop :=
  ∀ n, low ≤ n → n < high → first[n]? = second[n]?

/-- A captured part without its surroundings. -/
def Capture.shape (part : Capture) : Nat × Nat × Nat × List Char :=
  (part.slot, part.start, part.stop, part.text)

/-- An outcome without its surroundings. -/
def Outcome.shape (outcome : Outcome) : Nat × List (Nat × Nat × Nat × List Char) :=
  (outcome.1.offset, outcome.2.map Capture.shape)

/-- The outcomes that stop before an offset. -/
def Pattern.outcomesBefore (pattern : Pattern) (cursor : Cursor) (captures : List Capture)
    (high : Nat) : List Outcome :=
  (pattern.outcomes cursor captures).filter (·.1.offset < high)

variable {first second : List Char} {low high n : Nat} {captures captures' : List Capture}

theorem Agree.mono {low' high' : Nat} (agree : Agree first second low high) (above : low ≤ low')
    (below : high' ≤ high) : Agree first second low' high' :=
  fun n le lt => agree n (Nat.le_trans above le) (Nat.lt_of_lt_of_le lt below)

theorem Agree.slice {start stop : Nat} (agree : Agree first second low high) (above : low ≤ start)
    (below : stop ≤ high) : slice first start stop = slice second start stop :=
  slice_congr fun n le lt => agree n (Nat.le_trans above le) (Nat.lt_of_lt_of_le lt below)

theorem Agree.before (agree : Agree first second (n - 1) high) (inside : n < high) :
    (placeAt first n).before = (placeAt second n).before := by
  cases n with
  | zero => rfl
  | succ n => exact agree n (Nat.le_refl n) (Nat.lt_of_succ_lt inside)

theorem Agree.head? (agree : Agree first second (n - 1) high) (inside : n < high) :
    (placeAt first n).rest.head? = (placeAt second n).rest.head? := by
  rw [rest_placeAt, rest_placeAt, List.head?_drop, List.head?_drop]
  exact agree n (Nat.sub_le n 1) inside

section Outcomes

theorem outcomesBefore_nil {pattern : Pattern} {text : List Char} (le : high ≤ n) :
    pattern.outcomesBefore (placeAt text n) captures high = [] := by
  apply List.filter_eq_nil_iff.mpr
  intro outcome member before
  have := (Pattern.reached_of_mem member).le
  have : outcome.1.offset < high := by simpa using before
  omega

/-- The outcomes of a chain are those behind the outcomes of its first link. -/
theorem outcomesBefore_andThen (head tail : Pattern) (text : List Char) (n : Nat)
    (captures : List Capture) (high : Nat) :
    (head.andThen tail).outcomesBefore (placeAt text n) captures high =
      (head.outcomesBefore (placeAt text n) captures high).flatMap fun outcome =>
        tail.outcomesBefore outcome.1 outcome.2 high := by
  rw [Pattern.outcomesBefore, Pattern.outcomes, List.filter_flatMap, Pattern.outcomesBefore]
  have places : ∀ outcome ∈ head.outcomes (placeAt text n) captures,
      outcome.1 = placeAt text outcome.1.offset :=
    fun outcome member => (Pattern.reached_of_mem member).place
  generalize head.outcomes (placeAt text n) captures = outcomes at places
  induction outcomes with
  | nil => rfl
  | cons outcome outcomes ih =>
    have behind := ih fun later member => places later (List.mem_cons_of_mem _ member)
    have place := places outcome List.mem_cons_self
    rw [List.flatMap_cons, behind]
    by_cases before : outcome.1.offset < high
    · rw [List.filter_cons_of_pos (by simpa using before), List.flatMap_cons]
      rfl
    · rw [List.filter_cons_of_neg (by simpa using before)]
      have none : tail.outcomesBefore outcome.1 outcome.2 high = [] := by
        rw [place]
        exact outcomesBefore_nil (Nat.le_of_not_lt before)
      rw [Pattern.outcomesBefore] at none
      simp only [none, List.nil_append]

theorem Agree.cases (agree : Agree first second (n - 1) high) (inside : n < high) :
    (first.drop n = [] ∧ second.drop n = []) ∨ ∃ c rest rest',
      first.drop n = c :: rest ∧ second.drop n = c :: rest' := by
  have heads := agree.head? inside
  rw [rest_placeAt, rest_placeAt] at heads
  cases here : first.drop n with
  | nil => exact .inl ⟨rfl, List.head?_eq_none_iff.mp (by rw [← heads, here]; rfl)⟩
  | cons c rest =>
    obtain ⟨rest', there⟩ := List.head?_eq_some_iff.mp (by rw [← heads, here]; rfl)
    exact .inr ⟨c, rest, rest', rfl, there⟩

theorem Agree.succ (agree : Agree first second (n - 1) high) :
    Agree first second (n + 1 - 1) high :=
  agree.mono (Nat.sub_le_sub_right (Nat.le_succ n) 1) (Nat.le_refl high)

theorem skip?_agree (part : List Char) (agree : Agree first second (n - 1) high) :
    (((placeAt first n).skip? part).toList.map Cursor.offset).filter (· < high) =
      (((placeAt second n).skip? part).toList.map Cursor.offset).filter (· < high) := by
  induction part generalizing n with
  | nil => rfl
  | cons c part ih =>
    by_cases inside : n < high
    · rcases agree.cases inside with ⟨here, there⟩ | ⟨d, rest, rest', here, there⟩
      · simp only [Cursor.skip?, rest_placeAt, here, there]
      · simp only [Cursor.skip?, rest_placeAt, here, there, offset_placeAt]
        split
        · rw [placeAt_succ here, placeAt_succ there]
          exact ih agree.succ
        · rfl
    · have none : ∀ text : List Char,
          (((placeAt text n).skip? (c :: part)).toList.map Cursor.offset).filter (· < high) = [] := by
        intro text
        apply List.filter_eq_nil_iff.mpr
        intro offset member before
        obtain ⟨place, reached, rfl⟩ := List.mem_map.mp member
        have before := of_decide_eq_true before
        rw [(skip?_placeAt (Option.mem_toList.mp reached)).1, offset_placeAt] at before
        omega
      rw [none, none]

theorem stops_agree (holds : Char → Bool) (agree : Agree first second (n - 1) high) :
    (((placeAt first n).stops holds).map Cursor.offset).filter (· < high) =
      (((placeAt second n).stops holds).map Cursor.offset).filter (· < high) := by
  generalize distance : high - n = k
  induction k generalizing n with
  | zero =>
    have none : ∀ text : List Char,
        (((placeAt text n).stops holds).map Cursor.offset).filter (· < high) = [] := by
      intro text
      apply List.filter_eq_nil_iff.mpr
      intro offset member before
      obtain ⟨place, stop, rfl⟩ := List.mem_map.mp member
      obtain ⟨m, le, rfl, -⟩ := mem_stops stop
      have : m < high := of_decide_eq_true before
      omega
    rw [none, none]
  | succ k ih =>
    rcases agree.cases (by omega) with ⟨here, there⟩ | ⟨c, rest, rest', here, there⟩
    · simp [stops_placeAt, here, there]
    · rw [stops_succ here, stops_succ there]
      split
      · simp only [List.map_append, List.filter_append, ih agree.succ (by omega), List.map_cons,
          offset_placeAt, List.map_nil]
      · rfl

theorem shape_places (places : List Cursor) (captures : List Capture) (high : Nat) :
    ((places.map (·, captures)).filter (·.1.offset < high)).map Outcome.shape =
      ((places.map Cursor.offset).filter (· < high)).map (·, captures.map Capture.shape) := by
  rw [List.filter_map, List.filter_map, List.map_map, List.map_map]
  rfl

theorem shape_capture (slot : Nat) (body : Pattern) (text : List Char) (n : Nat)
    (captures : List Capture) (high : Nat) :
    ((Pattern.capture slot body).outcomesBefore (placeAt text n) captures high).map Outcome.shape =
      ((body.outcomesBefore (placeAt text n) captures high).map Outcome.shape).map fun shape =>
        (shape.1, (slot, n, shape.1, slice text n shape.1) :: shape.2) := by
  rw [Pattern.outcomesBefore, Pattern.outcomes, List.filter_map, List.map_map, List.map_map]
  rfl

/-- Texts that agree on a window have the same outcomes within it. -/
theorem outcomes_agree (pattern : Pattern) (agree : Agree first second (n - 1) high)
    (shapes : captures.map Capture.shape = captures'.map Capture.shape) :
    (pattern.outcomesBefore (placeAt first n) captures high).map Outcome.shape =
      (pattern.outcomesBefore (placeAt second n) captures' high).map Outcome.shape := by
  by_cases inside : n < high
  · induction pattern generalizing n captures captures' with
    | empty => simp [Pattern.outcomesBefore, Pattern.outcomes, Outcome.shape, inside, shapes]
    | char holds =>
      simp only [Pattern.outcomesBefore, Pattern.outcomes, rest_placeAt]
      rcases agree.cases inside with ⟨here, there⟩ | ⟨c, rest, rest', here, there⟩
      · simp only [here, there, List.filter_nil, List.map_nil]
      · by_cases held : holds c = true <;> by_cases before : n + 1 < high <;>
          simp [here, there, held, before, Outcome.shape, Cursor.advance, shapes]
    | text part =>
      simp only [Pattern.outcomesBefore, Pattern.outcomes, shape_places, skip?_agree part agree, shapes]
    | andThen head tail head_ih tail_ih =>
      rw [outcomesBefore_andThen, outcomesBefore_andThen, List.map_flatMap, List.map_flatMap]
      refine flatMap_congr_view (head_ih agree shapes inside) ?_
      intro outcome left other right same
      obtain ⟨left, before⟩ := List.mem_filter.mp left
      obtain ⟨right, -⟩ := List.mem_filter.mp right
      have reached := Pattern.reached_of_mem left
      obtain ⟨offsets, captured⟩ := Prod.mk.inj same
      rw [reached.place, (Pattern.reached_of_mem right).place, ← offsets]
      exact tail_ih (agree.mono (Nat.sub_le_sub_right reached.le 1) (Nat.le_refl high)) captured
        (of_decide_eq_true before)
    | orElse left right left_ih right_ih =>
      have lefts := left_ih agree shapes inside
      have rights := right_ih agree shapes inside
      simp only [Pattern.outcomesBefore] at lefts rights
      simp only [Pattern.outcomesBefore, Pattern.outcomes, List.filter_append, List.map_append,
        lefts, rights]
    | optional body ih =>
      have bodies := ih agree shapes inside
      simp only [Pattern.outcomesBefore] at bodies
      simp [Pattern.outcomesBefore, Pattern.outcomes, bodies, inside, Outcome.shape, shapes]
    | many holds =>
      simp only [Pattern.outcomesBefore, Pattern.outcomes, shape_places, stops_agree holds agree, shapes]
    | fewest holds =>
      simp only [Pattern.outcomesBefore, Pattern.outcomes, shape_places, List.map_reverse,
        List.filter_reverse, stops_agree holds agree, shapes]
    | capture slot body ih =>
      rw [shape_capture, shape_capture, ih agree shapes inside]
      apply List.map_congr_left
      intro shape member
      obtain ⟨outcome, before, rfl⟩ := List.mem_map.mp member
      have stops : outcome.1.offset < high := of_decide_eq_true (List.mem_filter.mp before).2
      have same : slice first n outcome.1.offset = slice second n outcome.1.offset :=
        agree.slice (Nat.sub_le n 1) (Nat.le_of_lt stops)
      simp only [Outcome.shape, same]
    | wordBoundary =>
      have same : (placeAt first n).atWordBoundary = (placeAt second n).atWordBoundary := by
        simp only [Cursor.atWordBoundary, Cursor.isAfter, Cursor.isBefore, agree.before inside,
          agree.head? inside]
      cases test : (placeAt second n).atWordBoundary <;>
        simp [Pattern.outcomesBefore, Pattern.outcomes, same, test, inside, Outcome.shape, shapes]
    | notAfter holds =>
      have same : (placeAt first n).isAfter holds = (placeAt second n).isAfter holds := by
        simp only [Cursor.isAfter, agree.before inside]
      cases test : (placeAt second n).isAfter holds <;>
        simp [Pattern.outcomesBefore, Pattern.outcomes, same, test, inside, Outcome.shape, shapes]
    | notBefore holds =>
      have same : (placeAt first n).isBefore holds = (placeAt second n).isBefore holds := by
        simp only [Cursor.isBefore, agree.head? inside]
      cases test : (placeAt second n).isBefore holds <;>
        simp [Pattern.outcomesBefore, Pattern.outcomes, same, test, inside, Outcome.shape, shapes]
  · rw [outcomesBefore_nil (Nat.le_of_not_lt inside), outcomesBefore_nil (Nat.le_of_not_lt inside)]

end Outcomes

section Matches

/-- A match without its surroundings. -/
def Match.shape (found : Match) : Nat × Nat × List (Nat × Nat × Nat × List Char) :=
  (found.start.offset, found.stop.offset, found.captures.map Capture.shape)

/-- No match in either text passes or borders on a character that differs in the other one. -/
def Pattern.Undisturbed (pattern : Pattern) (first second : List Char) : Prop :=
  ∀ n ≤ first.length, ∀ found ∈ (pattern.matchAt? (placeAt first n)).toList ++
    (pattern.matchAt? (placeAt second n)).toList, Agree first second (n - 1) (found.stop.offset + 1)

instance (first second : List Char) (low high : Nat) : Decidable (Agree first second low high) :=
  Nat.decidableLoHi low high fun n => first[n]? = second[n]?

instance (pattern : Pattern) (first second : List Char) :
    Decidable (pattern.Undisturbed first second) :=
  inferInstanceAs (Decidable (∀ n ≤ first.length, ∀ found ∈
    (pattern.matchAt? (placeAt first n)).toList ++ (pattern.matchAt? (placeAt second n)).toList,
    Agree first second (n - 1) (found.stop.offset + 1)))

variable {pattern : Pattern}

theorem Agree.symm (agree : Agree first second low high) : Agree second first low high :=
  fun n le lt => (agree n le lt).symm

theorem head?_outcomesBefore {text : List Char} {found : Match}
    (matched : pattern.matchAt? (placeAt text n) = some found) (before : found.stop.offset < high) :
    (pattern.outcomesBefore (placeAt text n) [] high).head? = some (found.stop, found.captures) := by
  obtain ⟨-, place, head⟩ := Pattern.fits_of_matchAt? matched
  obtain ⟨outcome, head, rfl⟩ := Pattern.matchAt?_eq_some_iff.mp matched
  obtain ⟨rest, outcomes⟩ := List.head?_eq_some_iff.mp head
  rw [Pattern.outcomesBefore, outcomes, List.filter_cons_of_pos (by simpa using before)]
  rfl

theorem exists_matchAt? {found : Match} (matched : pattern.matchAt? (placeAt first n) = some found)
    (agree : Agree first second (n - 1) (found.stop.offset + 1)) :
    ∃ other, pattern.matchAt? (placeAt second n) = some other := by
  have head := head?_outcomesBefore matched (Nat.lt_succ_self _)
  have heads := congrArg List.head? (@outcomes_agree _ _ _ _ [] [] pattern agree rfl)
  rw [List.head?_map, List.head?_map, head, Option.map_some, eq_comm, Option.map_eq_some_iff] at heads
  obtain ⟨outcome, first, -⟩ := heads
  exact Pattern.exists_matchAt?_of_mem (List.mem_filter.mp (List.mem_of_head? first)).1

/-- Texts that agree around their matches at a place have the same match there. -/
theorem Pattern.matchAt?_agree (agrees : ∀ found, pattern.matchAt? (placeAt first n) = some found ∨
      pattern.matchAt? (placeAt second n) = some found →
      Agree first second (n - 1) (found.stop.offset + 1)) :
    (pattern.matchAt? (placeAt first n)).map Match.shape =
      (pattern.matchAt? (placeAt second n)).map Match.shape := by
  cases matched : pattern.matchAt? (placeAt first n) with
  | none =>
    cases other : pattern.matchAt? (placeAt second n) with
    | none => rfl
    | some found =>
      obtain ⟨found, some⟩ := exists_matchAt? other (agrees found (.inr other)).symm
      exact absurd (matched.symm.trans some) (by simp)
  | some found =>
    have left := agrees found (.inl matched)
    obtain ⟨other, matched'⟩ := exists_matchAt? matched left
    have right := agrees other (.inr matched')
    have agree : Agree first second (n - 1) (max found.stop.offset other.stop.offset + 1) := by
      intro k le lt
      rcases Nat.lt_or_ge k (found.stop.offset + 1) with near | far
      · exact left k le near
      · exact right k le (by omega)
    have heads := congrArg List.head? (@outcomes_agree _ _ _ _ [] [] pattern agree rfl)
    rw [List.head?_map, List.head?_map, head?_outcomesBefore matched (by omega),
      head?_outcomesBefore matched' (by omega)] at heads
    obtain ⟨stops, captures⟩ := Prod.mk.inj (Option.some.inj heads)
    have starts : found.start.offset = other.start.offset :=
      (Pattern.fits_of_matchAt? matched).1.trans (Pattern.fits_of_matchAt? matched').1.symm
    rw [matched', Option.map_some, Option.map_some, Match.shape, Match.shape, starts]
    exact congrArg some (Prod.ext rfl (Prod.ext stops captures))

/-- An undisturbed pattern has the same match at the same place of both texts. -/
theorem Pattern.Undisturbed.matchAt? (undisturbed : pattern.Undisturbed first second)
    (le : n ≤ first.length) : (pattern.matchAt? (placeAt first n)).map Match.shape =
      (pattern.matchAt? (placeAt second n)).map Match.shape := by
  apply matchAt?_agree
  intro found either
  refine undisturbed n le found (List.mem_append.mpr (either.imp ?_ ?_)) <;>
    exact Option.mem_toList.mpr

/-- The first match in a text depends on its front alone, if there is one that starts in it. -/
theorem Pattern.search?_agree (left : high ≤ first.length) (right : high ≤ second.length)
    (same : ∀ n < high, (pattern.matchAt? (placeAt first n)).map Match.shape =
      (pattern.matchAt? (placeAt second n)).map Match.shape)
    (starts : ¬ pattern.Passes first 0 high) :
    (pattern.search? first).map Match.shape = (pattern.search? second).map Match.shape := by
  suffices onto : ∀ distance n, high - n = distance → ¬ pattern.Passes first n high →
      (pattern.searchAt first n).map Match.shape = (pattern.searchAt second n).map Match.shape by
    rw [search?_eq_searchAt, search?_eq_searchAt]
    exact onto _ 0 rfl starts
  intro distance
  induction distance with
  | zero =>
    intro n reached starts
    exact absurd (fun m low below => by omega) starts
  | succ distance ih =>
    intro n before starts
    have here := same n (by omega)
    rw [pattern.searchAt_eq first, pattern.searchAt_eq second, if_pos (by omega), if_pos (by omega)]
    cases one : pattern.matchAt? (placeAt first n) with
    | some found =>
      rw [one] at here
      cases two : pattern.matchAt? (placeAt second n) with
      | none => rw [two] at here; contradiction
      | some other => rwa [two] at here
    | none =>
      rw [one, Option.map_none, eq_comm, Option.map_eq_none_iff] at here
      rw [here, Option.none_or, Option.none_or]
      apply ih (n + 1) (by omega)
      intro passes
      apply starts
      intro m low below
      rcases Nat.eq_or_lt_of_le low with rfl | low
      · exact one
      · exact passes m low below

theorem Pattern.Undisturbed.search? (undisturbed : pattern.Undisturbed first second)
    (lengths : first.length = second.length) :
    (pattern.search? first).map Match.shape = (pattern.search? second).map Match.shape := by
  suffices onto : ∀ distance n, n ≤ first.length → first.length - n = distance →
      (pattern.searchAt first n).map Match.shape = (pattern.searchAt second n).map Match.shape by
    rw [Pattern.search?_eq_searchAt, Pattern.search?_eq_searchAt]
    exact onto _ 0 (Nat.zero_le _) rfl
  intro distance
  induction distance using Nat.strongRecOn with
  | ind distance ih =>
    intro n le same
    have here := undisturbed.matchAt? le
    rw [pattern.searchAt_eq first, pattern.searchAt_eq second, ← lengths]
    cases left : pattern.matchAt? (placeAt first n) <;>
      cases right : pattern.matchAt? (placeAt second n) <;>
      rw [left, right] at here
    · by_cases inside : n < first.length
      · simpa only [if_pos inside, Option.none_or] using ih _ (by omega) (n + 1) inside rfl
      · simp only [if_neg inside, Option.none_or]
    · contradiction
    · contradiction
    · exact here

theorem Pattern.Undisturbed.matchesIn (undisturbed : pattern.Undisturbed first second)
    (lengths : first.length = second.length) :
    (pattern.matchesIn first).map Match.shape = (pattern.matchesIn second).map Match.shape := by
  suffices onto : ∀ distance n covered earlier earlier', n ≤ first.length →
      first.length - n = distance →
      earlier.map Match.shape = earlier'.map Match.shape →
      (pattern.matchesAt first n covered earlier).map Match.shape =
        (pattern.matchesAt second n covered earlier').map Match.shape by
    rw [Pattern.matchesIn_eq_matchesAt, Pattern.matchesIn_eq_matchesAt]
    exact onto _ 0 0 [] [] (Nat.zero_le _) rfl rfl
  intro distance
  induction distance using Nat.strongRecOn with
  | ind distance ih =>
    intro n covered earlier earlier' le same shapes
    cases covered with
    | succ covered =>
      rw [Pattern.matchesAt_covered, Pattern.matchesAt_covered, ← lengths]
      by_cases inside : n < first.length
      · rw [if_pos inside, if_pos inside]
        exact ih _ (by omega) (n + 1) covered _ _ inside rfl shapes
      · rw [if_neg inside, if_neg inside, List.map_reverse, List.map_reverse, shapes]
    | zero =>
      have here := undisturbed.matchAt? le
      rw [pattern.matchesAt_zero first, pattern.matchesAt_zero second, ← lengths]
      cases left : pattern.matchAt? (placeAt first n) with
      | none =>
        have right : pattern.matchAt? (placeAt second n) = none := by
          rwa [left, Option.map_none, eq_comm, Option.map_eq_none_iff] at here
        simp only [right, Option.elim]
        by_cases inside : n < first.length
        · rw [if_pos inside, if_pos inside]
          exact ih _ (by omega) (n + 1) 0 _ _ inside rfl shapes
        · rw [if_neg inside, if_neg inside, List.map_reverse, List.map_reverse, shapes]
      | some found =>
        rw [left, Option.map_some, eq_comm, Option.map_eq_some_iff] at here
        obtain ⟨other, right, shape⟩ := here
        have stops : other.stop.offset = found.stop.offset := congrArg (·.2.1) shape
        simp only [right, stops, Option.elim]
        have both : (found :: earlier).map Match.shape = (other :: earlier').map Match.shape := by
          rw [List.map_cons, List.map_cons, shape, shapes]
        by_cases inside : n < first.length
        · rw [if_pos inside, if_pos inside]
          exact ih _ (by omega) (n + 1) _ _ _ inside rfl both
        · rw [if_neg inside, if_neg inside, List.map_reverse, List.map_reverse, both]

theorem Match.text?_shape {found other : Match} (same : found.shape = other.shape) (slot : Nat) :
    found.text? slot = other.text? slot := by
  have shapes : found.captures.map Capture.shape = other.captures.map Capture.shape :=
    congrArg (·.2.2) same
  have texts : ∀ found : Match, found.text? slot =
      ((found.captures.map Capture.shape).find? (·.1 == slot)).map (·.2.2.2) := by
    intro found
    rw [text?, capture?, List.find?_map, Option.map_map]
    rfl
  rw [texts, texts, shapes]

theorem Match.text_shape {found other : Match} (same : found.shape = other.shape) (slot : Nat) :
    found.text slot = other.text slot := by
  rw [text, text, text?_shape same]

theorem map_congr_shape {α : Type} {read : Match → α} {found others : List Match}
    (same : ∀ found other : Match, found.shape = other.shape → read found = read other)
    (shapes : found.map Match.shape = others.map Match.shape) : found.map read = others.map read := by
  induction found generalizing others with
  | nil => rw [List.map_eq_nil_iff.mp shapes.symm]
  | cons head tail ih =>
    obtain ⟨other, others, rfl, first, behind⟩ := List.map_eq_cons_iff.mp shapes.symm
    rw [List.map_cons, List.map_cons, same head other first.symm, ih behind.symm]

theorem option_map_congr_shape {α : Type} {read : Match → α} {found other : Option Match}
    (same : ∀ found other : Match, found.shape = other.shape → read found = read other)
    (shapes : found.map Match.shape = other.map Match.shape) : found.map read = other.map read := by
  cases found <;> cases other <;> simp_all
  exact same _ _ shapes

end Matches

section Unread

variable {pattern : Pattern} {c : Char} {front part text rest other : List Char} {outcome : Outcome}

/-- A match of a pattern may pass a character. -/
def Pattern.reads (pattern : Pattern) (c : Char) : Bool :=
  match pattern with
  | char holds | many holds | fewest holds => holds c
  | .text part => part.contains c
  | andThen first second | orElse first second => first.reads c || second.reads c
  | optional body | capture _ body => body.reads c
  | _ => false

theorem Pattern.reads_append (first second : Pattern) (c : Char) :
    (first ++ second).reads c = (first.reads c || second.reads c) := by
  induction first with
  | andThen head tail _ ih =>
    change (head.reads c || (tail ++ second).reads c) = (head.reads c || tail.reads c || second.reads c)
    rw [ih, Bool.or_assoc]
  | _ => rfl

/-- On the way from one place to another one all characters are read. -/
def Pattern.Passed (pattern : Pattern) (front text : List Char) (reached : Cursor) : Prop :=
  ∃ part rest, text = part ++ rest ∧ reached = .between (front ++ part) rest ∧
    ∀ c ∈ part, pattern.reads c = true

theorem Pattern.passed_nothing (pattern : Pattern) (front text : List Char) :
    pattern.Passed front text (.between front text) :=
  ⟨[], text, rfl, by rw [List.append_nil], nofun⟩

theorem Pattern.passed_of_mem (member : outcome ∈ pattern.outcomes (.between front text) captures) :
    pattern.Passed front text outcome.1 := by
  induction pattern generalizing front text captures outcome with
  | empty =>
    rw [List.mem_singleton.mp member]
    exact passed_nothing empty front text
  | char holds =>
    obtain ⟨c, rest, rfl, held, rfl⟩ := mem_outcomes_char.mp member
    exact ⟨[c], rest, rfl, rfl, by simpa [reads] using held⟩
  | text part =>
    obtain ⟨rest, rfl, rfl⟩ := mem_outcomes_text.mp member
    exact ⟨part, rest, rfl, rfl, fun c inside => List.contains_iff_mem.mpr inside⟩
  | andThen head tail head_ih tail_ih =>
    obtain ⟨⟨middle, between⟩, one, two⟩ := List.mem_flatMap.mp member
    obtain ⟨part, rest, rfl, here, read⟩ := head_ih one
    obtain rfl : middle = .between (front ++ part) rest := here
    obtain ⟨more, rest, rfl, reached, readMore⟩ := tail_ih two
    refine ⟨part ++ more, rest, by simp, by rw [reached, List.append_assoc], ?_⟩
    intro c inside
    rw [reads, Bool.or_eq_true]
    exact (List.mem_append.mp inside).imp (read c) (readMore c)
  | orElse one other one_ih other_ih =>
    rcases List.mem_append.mp member with member | member
    · obtain ⟨part, rest, split, reached, read⟩ := one_ih member
      refine ⟨part, rest, split, reached, fun c inside => ?_⟩
      rw [reads, read c inside, Bool.true_or]
    · obtain ⟨part, rest, split, reached, read⟩ := other_ih member
      refine ⟨part, rest, split, reached, fun c inside => ?_⟩
      rw [reads, read c inside, Bool.or_true]
  | optional body ih =>
    rcases mem_outcomes_optional.mp member with member | rfl
    · exact ih member
    · exact passed_nothing (optional body) front text
  | many holds =>
    obtain ⟨part, rest, rfl, held, rfl⟩ := mem_outcomes_many.mp member
    exact ⟨part, rest, rfl, rfl, held⟩
  | fewest holds =>
    obtain ⟨reached, stop, rfl⟩ := List.mem_map.mp member
    obtain ⟨part, rest, split, held, here⟩ :=
      Cursor.mem_stops_between.mp (List.mem_reverse.mp stop)
    exact ⟨part, rest, split, here, held⟩
  | capture slot body ih =>
    obtain ⟨inner, way, rfl⟩ := List.mem_map.mp member
    have passed := ih way
    exact passed
  | wordBoundary =>
    rw [(mem_outcomes_wordBoundary.mp member).2]
    exact passed_nothing wordBoundary front text
  | notAfter holds =>
    rw [outcomes] at member
    split at member
    · contradiction
    · rw [List.mem_singleton.mp member]
      exact passed_nothing (notAfter holds) front text
  | notBefore holds =>
    rw [outcomes] at member
    split at member
    · contradiction
    · rw [List.mem_singleton.mp member]
      exact passed_nothing (notBefore holds) front text

/-- A pattern stops in front of a character that it does not read. -/
theorem Pattern.stop_le (unread : pattern.reads c = false)
    (member : outcome ∈ pattern.outcomes (.between front (part ++ c :: rest)) captures) :
    outcome.1.offset ≤ front.length + part.length := by
  obtain ⟨passed, left, split, reached, read⟩ := passed_of_mem member
  have absent : c ∉ passed := by
    intro inside
    rw [read c inside] at unread
    contradiction
  obtain ⟨more, rfl, -⟩ := ends_before split absent
  rw [reached, Cursor.offset_between, List.length_append, List.length_append]
  omega

/-- A first match that starts no later than a character which the pattern does not read does not depend
on what stands behind that character. -/
theorem Pattern.search?_before (unread : pattern.reads c = false)
    (starts : ¬ pattern.Passes (part ++ c :: rest) 0 (part.length + 1)) :
    (pattern.search? (part ++ c :: rest)).map Match.shape =
      (pattern.search? (part ++ c :: other)).map Match.shape := by
  have agree : ∀ rest other : List Char, Agree (part ++ c :: rest) (part ++ c :: other) 0
      (part.length + 1) := by
    intro rest other n _ below
    have inside : n < (part ++ [c]).length := by simpa using below
    rw [List.append_cons part c rest, List.append_cons part c other,
      List.getElem?_append_left inside, List.getElem?_append_left inside]
  have stops : ∀ (rest : List Char) (n : Nat) (found : Match), n < part.length + 1 →
      pattern.matchAt? (placeAt (part ++ c :: rest) n) = some found →
      found.stop.offset ≤ part.length := by
    intro rest n found inside matched
    obtain ⟨front, behind, rfl, rfl, -⟩ := exists_between (Nat.le_of_lt_succ inside)
    rw [List.append_assoc, placeAt_length] at matched
    obtain ⟨outcome, way, rfl⟩ := matchAt?_eq_some_iff.mp matched
    rw [List.length_append]
    exact stop_le unread (List.mem_of_mem_head? way)
  refine search?_agree (by simp) (by simp) ?_ starts
  intro n inside
  apply matchAt?_agree
  rintro found (matched | matched)
  · exact (agree rest other).mono (Nat.zero_le _) (Nat.succ_le_succ (stops rest n found inside matched))
  · exact (agree rest other).mono (Nat.zero_le _) (Nat.succ_le_succ (stops other n found inside matched))

end Unread

end ContractInspector.Text
