import ContractInspector.Text.Indexed
import ContractInspector.Text.Skipping

/-! The ways in which a pattern can match, in the order in which they are tried. `run_eq_findSome?` says
that trying a pattern means to ask the continuation at each of them in turn, and `fits_of_mem_matchesIn`
that every match found in a text is one of them. -/
namespace ContractInspector.Text

/-- The place behind a match, and what was captured. -/
abbrev Outcome := Cursor × List Capture

/-- All ways in which a pattern can match at a place, the preferred one first. -/
def Pattern.outcomes : Pattern → Cursor → List Capture → List Outcome
  | empty, cursor, captures => [(cursor, captures)]
  | char holds, cursor, captures =>
    match cursor.rest with
    | [] => []
    | c :: rest => if holds c then [(cursor.advance c rest 1, captures)] else []
  | text part, cursor, captures => (cursor.skip? part).toList.map (·, captures)
  | andThen first second, cursor, captures =>
    (first.outcomes cursor captures).flatMap fun outcome => second.outcomes outcome.1 outcome.2
  | orElse first second, cursor, captures =>
    first.outcomes cursor captures ++ second.outcomes cursor captures
  | optional body, cursor, captures => body.outcomes cursor captures ++ [(cursor, captures)]
  | many holds, cursor, captures => (cursor.stops holds).map (·, captures)
  | fewest holds, cursor, captures => (cursor.stops holds).reverse.map (·, captures)
  | capture slot body, cursor, captures =>
    (body.outcomes cursor captures).map fun outcome =>
      (outcome.1, ⟨slot, cursor.rest, cursor.offset, outcome.1.offset⟩ :: outcome.2)
  | wordBoundary, cursor, captures => if cursor.atWordBoundary then [(cursor, captures)] else []
  | notAfter holds, cursor, captures => if cursor.isAfter holds then [] else [(cursor, captures)]
  | notBefore holds, cursor, captures => if cursor.isBefore holds then [] else [(cursor, captures)]

theorem findSome?_flatMap {α β γ : Type} (parts : List α) (pieces : α → List β)
    (ask : β → Option γ) :
    (parts.flatMap pieces).findSome? ask =
      parts.findSome? fun part => (pieces part).findSome? ask := by
  induction parts with
  | nil => rfl
  | cons part parts ih =>
    rw [List.flatMap_cons, List.findSome?_append, ih, List.findSome?_cons]
    cases (pieces part).findSome? ask <;> rfl

theorem flatMap_congr_view {α β γ : Type} {view : α → β} {items others : List α} {f g : α → List γ}
    (views : items.map view = others.map view)
    (same : ∀ item ∈ items, ∀ other ∈ others, view item = view other → f item = g other) :
    items.flatMap f = others.flatMap g := by
  induction items generalizing others with
  | nil =>
    rw [List.map_eq_nil_iff.mp views.symm]
    rfl
  | cons item items ih =>
    obtain ⟨other, others, rfl, head, tail⟩ := List.map_eq_cons_iff.mp views.symm
    rw [List.flatMap_cons, List.flatMap_cons,
      same item List.mem_cons_self other List.mem_cons_self head.symm,
      ih tail.symm fun item left other right =>
        same item (List.mem_cons_of_mem _ left) other (List.mem_cons_of_mem _ right)]

namespace Pattern

theorem run_eq_findSome? {α : Type} (pattern : Pattern) (cursor : Cursor)
    (captures : List Capture) (next : Cursor → List Capture → Option α) :
    pattern.run cursor captures next =
      (pattern.outcomes cursor captures).findSome? fun outcome => next outcome.1 outcome.2 := by
  induction pattern generalizing cursor captures next with
  | empty => simp [run, outcomes]
  | char holds =>
    rcases cursor with ⟨before, _ | ⟨c, rest⟩, offset⟩
    · rfl
    · by_cases h : holds c <;> simp [run, outcomes, h]
  | text part => cases reached : cursor.skip? part <;> simp [run, outcomes, reached]
  | andThen first second first_ih second_ih =>
    rw [run, outcomes, findSome?_flatMap, first_ih]
    simp only [second_ih]
  | orElse first second first_ih second_ih =>
    simp only [run, outcomes, first_ih, second_ih, List.findSome?_append]
    cases (first.outcomes cursor captures).findSome? fun outcome => next outcome.1 outcome.2 <;>
      rfl
  | optional body ih =>
    simp only [run, outcomes, ih, List.findSome?_append]
    cases (body.outcomes cursor captures).findSome? fun outcome => next outcome.1 outcome.2 <;>
      simp
  | many holds => simp [run, outcomes, List.findSome?_map, Function.comp_def]
  | fewest holds => rw [run, outcomes, List.findSome?_map]; rfl
  | capture slot body ih => simp [run, outcomes, ih, List.findSome?_map, Function.comp_def]
  | wordBoundary => by_cases h : cursor.atWordBoundary <;> simp [run, outcomes, h]
  | notAfter holds => by_cases h : cursor.isAfter holds <;> simp [run, outcomes, h]
  | notBefore holds => by_cases h : cursor.isBefore holds <;> simp [run, outcomes, h]

theorem matchAt?_eq_head? (pattern : Pattern) (cursor : Cursor) :
    pattern.matchAt? cursor =
      (pattern.outcomes cursor []).head?.map fun outcome => ⟨cursor, outcome.1, outcome.2⟩ := by
  rw [matchAt?, run_eq_findSome?]
  cases pattern.outcomes cursor [] <;> rfl

theorem matchAt?_eq_some_iff {pattern : Pattern} {cursor : Cursor} {found : Match} :
    pattern.matchAt? cursor = some found ↔ ∃ outcome,
      (pattern.outcomes cursor []).head? = some outcome ∧ ⟨cursor, outcome.1, outcome.2⟩ = found := by
  rw [matchAt?_eq_head?, Option.map_eq_some_iff]

theorem matchAt?_eq_none_iff {pattern : Pattern} {cursor : Cursor} :
    pattern.matchAt? cursor = none ↔ ∀ outcome, outcome ∉ pattern.outcomes cursor [] := by
  rw [matchAt?_eq_head?, Option.map_eq_none_iff, List.head?_eq_none_iff, List.eq_nil_iff_forall_not_mem]

theorem exists_matchAt?_of_mem {pattern : Pattern} {cursor : Cursor} {outcome : Outcome}
    (member : outcome ∈ pattern.outcomes cursor []) : ∃ found, pattern.matchAt? cursor = some found := by
  apply Option.ne_none_iff_exists'.mp
  intro none
  exact matchAt?_eq_none_iff.mp none outcome member

theorem outcomes_append (first second : Pattern) (cursor : Cursor) (captures : List Capture) :
    (first ++ second).outcomes cursor captures =
      (first.outcomes cursor captures).flatMap fun outcome =>
        second.outcomes outcome.1 outcome.2 := by
  change (first.append second).outcomes cursor captures = _
  induction first generalizing cursor captures with
  | andThen head tail _ ih => simp [append, outcomes, ih, List.flatMap_assoc]
  | _ => rfl

theorem mem_outcomes_append {first second : Pattern} {cursor : Cursor} {captures : List Capture}
    {outcome : Outcome} : outcome ∈ (first ++ second).outcomes cursor captures ↔
      ∃ middle ∈ first.outcomes cursor captures,
        outcome ∈ second.outcomes middle.1 middle.2 := by
  rw [outcomes_append, List.mem_flatMap]

end Pattern

section Places

/-- The place at an offset of a text. -/
def placeAt (text : List Char) (n : Nat) : Cursor :=
  ⟨if n = 0 then none else text[n - 1]?, text.drop n, n⟩

variable {text : List Char} {n : Nat}

@[simp]
theorem offset_placeAt (text : List Char) (n : Nat) : (placeAt text n).offset = n := rfl

@[simp]
theorem rest_placeAt (text : List Char) (n : Nat) : (placeAt text n).rest = text.drop n := rfl

theorem placeAt_succ {c : Char} {rest : List Char} (here : text.drop n = c :: rest) :
    (⟨some c, rest, n + 1⟩ : Cursor) = placeAt text (n + 1) := by
  have found : text[n]? = some c := by rw [← List.head?_drop, here, List.head?_cons]
  have behind : text.drop (n + 1) = rest := by rw [← List.tail_drop, here, List.tail_cons]
  simp [placeAt, found, behind]

theorem cursorAt_eq_placeAt (indexed : Indexed) (n : Nat) :
    indexed.cursorAt n = placeAt indexed.text n := by
  cases n with
  | zero => rfl
  | succ n =>
    rw [Indexed.cursorAt, Indexed.drop_eq]
    cases here : indexed.text.drop n with
    | nil =>
      have ends : indexed.text.length ≤ n := List.drop_eq_nil_iff.mp here
      simp [placeAt, List.drop_eq_nil_of_le (Nat.le_succ_of_le ends), ends]
    | cons c rest => exact placeAt_succ here

theorem skip?_placeAt {part : List Char} {reached : Cursor}
    (skipped : (placeAt text n).skip? part = some reached) :
    reached = placeAt text (n + part.length) ∧ ∃ behind, text.drop n = part ++ behind := by
  induction part generalizing n with
  | nil =>
    obtain rfl : placeAt text n = reached := by simpa [Cursor.skip?] using skipped
    exact ⟨rfl, text.drop n, rfl⟩
  | cons c part ih =>
    simp only [Cursor.skip?, rest_placeAt] at skipped
    cases here : text.drop n with
    | nil => simp [here] at skipped
    | cons d rest =>
      simp only [here] at skipped
      split at skipped
      · next same =>
        rw [offset_placeAt, placeAt_succ here] at skipped
        obtain ⟨rfl, behind, tail⟩ := ih skipped
        have : rest = part ++ behind := by
          rw [← tail, ← List.tail_drop, here, List.tail_cons]
        exact ⟨by rw [List.length_cons, Nat.add_right_comm, Nat.add_assoc], behind,
          by rw [same, this, List.cons_append]⟩
      · contradiction

theorem stops_placeAt (holds : Char → Bool) (text : List Char) (n : Nat) :
    (placeAt text n).stops holds =
      ((List.range' n (((text.drop n).takeWhile holds).length + 1)).map (placeAt text)).reverse := by
  suffices onto : ∀ rest n passed, text.drop n = rest →
      Cursor.stopsOnto holds (placeAt text n).before rest n passed =
        ((List.range' n ((rest.takeWhile holds).length + 1)).map (placeAt text)).reverse ++
          passed by
    rw [Cursor.stops, offset_placeAt, rest_placeAt, onto _ n [] rfl, List.append_nil]
  intro rest
  induction rest with
  | nil =>
    intro n passed here
    have place : (⟨(placeAt text n).before, [], n⟩ : Cursor) = placeAt text n := by
      simp [placeAt, here]
    simp [Cursor.stopsOnto, place]
  | cons c rest ih =>
    intro n passed here
    have place : (⟨(placeAt text n).before, c :: rest, n⟩ : Cursor) = placeAt text n := by
      simp [placeAt, here]
    rw [Cursor.stopsOnto, place]
    by_cases h : holds c
    · have behind : text.drop (n + 1) = rest := by
        rw [← List.tail_drop, here, List.tail_cons]
      have before : some c = (placeAt text (n + 1)).before :=
        congrArg Cursor.before (placeAt_succ here)
      rw [if_pos h, before, ih (n + 1) _ behind, List.takeWhile_cons_of_pos h, List.length_cons,
        List.range'_succ (s := n), List.map_cons, List.reverse_cons, List.append_assoc,
        List.singleton_append]
    · simp [h]

theorem stops_succ {holds : Char → Bool} {c : Char} {rest : List Char}
    (here : text.drop n = c :: rest) : (placeAt text n).stops holds =
      if holds c then (placeAt text (n + 1)).stops holds ++ [placeAt text n]
      else [placeAt text n] := by
  have behind : text.drop (n + 1) = rest := by rw [← List.tail_drop, here, List.tail_cons]
  by_cases h : holds c
  · rw [if_pos h, stops_placeAt, stops_placeAt, here, behind, List.takeWhile_cons_of_pos h,
      List.length_cons, List.range'_succ (s := n), List.map_cons, List.reverse_cons]
  · simp [stops_placeAt, here, h]

/-- What is found at the first of the places behind characters of a class is not found at the place
behind one character more. -/
theorem first_stop {α : Type} {holds : Char → Bool} {find : Cursor → Option α} {value : α}
    (found : ((placeAt text n).stops holds).findSome? find = some value) :
    ∃ m, n ≤ m ∧ find (placeAt text m) = some value ∧
      ∀ c, text[m]? = some c → holds c = true → find (placeAt text (m + 1)) = none := by
  generalize here : text.drop n = rest at found
  induction rest generalizing n with
  | nil =>
    have ends : text[n]? = none := by
      rw [← List.head?_drop, here, List.head?_nil]
    refine ⟨n, Nat.le_refl n, ?_, by simp [ends]⟩
    simpa [stops_placeAt, here] using found
  | cons c rest ih =>
    have next : text[n]? = some c := by rw [← List.head?_drop, here, List.head?_cons]
    have behind : text.drop (n + 1) = rest := by rw [← List.tail_drop, here, List.tail_cons]
    rw [stops_succ here] at found
    by_cases h : holds c = true
    · rw [if_pos h, List.findSome?_append] at found
      cases later : ((placeAt text (n + 1)).stops holds).findSome? find with
      | some other =>
        obtain rfl : other = value := by simpa [later] using found
        obtain ⟨m, le, here, none⟩ := ih later behind
        exact ⟨m, Nat.le_of_succ_le le, here, none⟩
      | none =>
        have self : placeAt text (n + 1) ∈ (placeAt text (n + 1)).stops holds := by
          rw [stops_placeAt, List.mem_reverse]
          exact List.mem_map.mpr ⟨n + 1, by simp, rfl⟩
        refine ⟨n, Nat.le_refl n, by simpa [later] using found, fun _ _ _ => ?_⟩
        exact List.findSome?_eq_none_iff.mp later _ self
    · refine ⟨n, Nat.le_refl n, by simpa [h] using found, fun d same holds => ?_⟩
      cases next.symm.trans same
      contradiction

theorem mem_stops {holds : Char → Bool} {reached : Cursor}
    (member : reached ∈ (placeAt text n).stops holds) :
    ∃ m, n ≤ m ∧ reached = placeAt text m ∧ ∀ c ∈ slice text n m, holds c = true := by
  rw [stops_placeAt, List.mem_reverse, List.mem_map] at member
  obtain ⟨m, range, rfl⟩ := member
  obtain ⟨low, high⟩ := List.mem_range'_1.mp range
  refine ⟨m, low, rfl, fun c inside => ?_⟩
  have prefixed : slice text n m <+: (text.drop n).takeWhile holds := by
    refine List.prefix_of_prefix_length_le (List.take_prefix _ _) (List.takeWhile_prefix _) ?_
    have short : (slice text n m).length ≤ m - n := List.length_take_le _ _
    omega
  exact List.all_eq_true.mp List.all_takeWhile c (prefixed.subset inside)

/-- One or more characters of a class are first taken as far as they go. -/
theorem Pattern.head?_oneOrMore (holds : Char → Bool) (captures : List Capture) :
    ((oneOrMore holds).outcomes (placeAt text n) captures).head? =
      ((text.drop n).head?.filter holds).map fun _ =>
        (placeAt text (n + ((text.drop n).takeWhile holds).length), captures) := by
  change ((Pattern.char holds ++ Pattern.many holds).outcomes _ _).head? = _
  rw [outcomes_append, outcomes, rest_placeAt]
  cases here : text.drop n with
  | nil => rfl
  | cons c rest =>
    have advanced : (placeAt text n).advance c rest 1 = placeAt text (n + 1) := placeAt_succ here
    have behind : text.drop (n + 1) = rest := by rw [← List.tail_drop, here, List.tail_cons]
    by_cases h : holds c
    · simp [h, advanced, outcomes, stops_placeAt, behind, Option.filter]
      refine ⟨n + 1 + (rest.takeWhile holds).length, by simp [List.getLast?_range'], ?_⟩
      rw [Nat.add_right_comm, Nat.add_assoc]
    · simp [h, Option.filter]

end Places

section Matches

/-- The captured part lies between two offsets of a text. -/
structure Capture.Within (text : List Char) (low high : Nat) (part : Capture) : Prop where
  rest_eq : part.rest = text.drop part.start
  low_le : low ≤ part.start
  start_le : part.start ≤ part.stop
  le_high : part.stop ≤ high

theorem Capture.Within.mono {text : List Char} {low high low' high' : Nat} {part : Capture}
    (within : part.Within text low high) (below : low' ≤ low) (above : high ≤ high') :
    part.Within text low' high' :=
  ⟨within.rest_eq, Nat.le_trans below within.low_le, within.start_le,
    Nat.le_trans within.le_high above⟩

variable {text : List Char} {n : Nat} {pattern : Pattern} {captures : List Capture}
  {outcome : Outcome}

/-- The outcome lies in the text at or behind an offset, and so do the parts captured since. -/
structure Reached (text : List Char) (n : Nat) (captures : List Capture) (outcome : Outcome) :
    Prop where
  le : n ≤ outcome.1.offset
  place : outcome.1 = placeAt text outcome.1.offset
  captured : ∃ new, outcome.2 = new ++ captures ∧
    ∀ part ∈ new, Capture.Within text n outcome.1.offset part

theorem Reached.of_le {m : Nat} (le : n ≤ m) : Reached text n captures (placeAt text m, captures) :=
  ⟨le, rfl, [], rfl, by simp⟩

/-- A pattern goes forward in its text, and captures what it passes. -/
theorem Pattern.reached_of_mem (member : outcome ∈ pattern.outcomes (placeAt text n) captures) :
    Reached text n captures outcome := by
  induction pattern generalizing n captures outcome with
  | empty =>
    obtain rfl := List.mem_singleton.mp member
    exact .of_le (Nat.le_refl n)
  | char holds =>
    rw [outcomes, rest_placeAt] at member
    cases here : text.drop n with
    | nil => simp [here] at member
    | cons c rest =>
      simp only [here] at member
      split at member
      · obtain rfl := List.mem_singleton.mp member
        have advanced : (placeAt text n).advance c rest 1 = placeAt text (n + 1) :=
          placeAt_succ here
        exact advanced ▸ Reached.of_le (Nat.le_succ n)
      · contradiction
  | text part =>
    rw [outcomes] at member
    obtain ⟨reached, skipped, rfl⟩ := List.mem_map.mp member
    obtain ⟨rfl, -⟩ := skip?_placeAt (Option.mem_toList.mp skipped)
    exact .of_le (Nat.le_add_right n _)
  | andThen first second first_ih second_ih =>
    obtain ⟨middle, reached, behind⟩ := List.mem_flatMap.mp member
    obtain ⟨low, place, new, captured, within⟩ := first_ih reached
    rw [place] at behind
    obtain ⟨high, stop, more, both, later⟩ := second_ih behind
    refine ⟨Nat.le_trans low high, stop, more ++ new,
      by rw [both, captured, List.append_assoc], fun part member => ?_⟩
    rcases List.mem_append.mp member with member | member
    · exact (later part member).mono low (Nat.le_refl _)
    · exact (within part member).mono (Nat.le_refl _) high
  | orElse first second first_ih second_ih =>
    exact (List.mem_append.mp member).elim first_ih second_ih
  | optional body ih =>
    rcases List.mem_append.mp member with member | member
    · exact ih member
    · obtain rfl := List.mem_singleton.mp member
      exact .of_le (Nat.le_refl n)
  | many holds =>
    obtain ⟨reached, stop, rfl⟩ := List.mem_map.mp member
    obtain ⟨m, low, rfl, -⟩ := mem_stops stop
    exact .of_le low
  | fewest holds =>
    obtain ⟨reached, stop, rfl⟩ := List.mem_map.mp member
    obtain ⟨m, low, rfl, -⟩ := mem_stops (List.mem_reverse.mp stop)
    exact .of_le low
  | capture slot body ih =>
    obtain ⟨inner, reached, rfl⟩ := List.mem_map.mp member
    obtain ⟨low, stop, new, captured, within⟩ := ih reached
    refine ⟨low, stop, _ :: new, by rw [captured]; rfl, fun part member => ?_⟩
    rcases List.mem_cons.mp member with rfl | member
    · exact ⟨rfl, Nat.le_refl n, low, Nat.le_refl _⟩
    · exact within part member
  | wordBoundary =>
    rw [outcomes] at member
    split at member
    · obtain rfl := List.mem_singleton.mp member
      exact .of_le (Nat.le_refl n)
    · contradiction
  | notAfter holds | notBefore holds =>
    rw [outcomes] at member
    split at member
    · contradiction
    · obtain rfl := List.mem_singleton.mp member
      exact .of_le (Nat.le_refl n)

/-- The match of a pattern at a place of a text. -/
structure Pattern.Fits (pattern : Pattern) (text : List Char) (found : Match) : Prop where
  start_eq : found.start = placeAt text found.start.offset
  first : (pattern.outcomes found.start []).head? = some (found.stop, found.captures)

theorem Pattern.Fits.mem_outcomes {found : Match} (fits : pattern.Fits text found) :
    (found.stop, found.captures) ∈ pattern.outcomes (placeAt text found.start.offset) [] :=
  fits.start_eq ▸ List.mem_of_head? fits.first

/-- A last part that is a text stands in front of where the match stops. -/
theorem Pattern.Fits.last_text {front : Pattern} {part : List Char} {found : Match}
    (fits : (front ++ .text part).Fits text found) :
    ∃ n, found.stop.offset = n + part.length ∧ part <+: text.drop n := by
  obtain ⟨⟨middle, _⟩, reached, last⟩ := mem_outcomes_append.mp fits.mem_outcomes
  obtain ⟨-, stop, -⟩ := reached_of_mem reached
  rw [stop, outcomes] at last
  obtain ⟨behind, skipped, same⟩ := List.mem_map.mp last
  obtain ⟨place, rest, here⟩ := skip?_placeAt (Option.mem_toList.mp skipped)
  obtain rfl : behind = found.stop := congrArg Prod.fst same
  exact ⟨middle.offset, by rw [place, offset_placeAt], rest, here.symm⟩

/-- A last part behind optional blanks is not empty, and does not start with a blank unless this is
all that there is of it. -/
theorem Pattern.Fits.last_part {front : Pattern} {slot : Nat} {holds : Char → Bool} {found : Match}
    (fits : (front ++ space ++ capture slot (oneOrMore holds)).Fits text found) :
    ∃ part, found.capture? slot = some part ∧ part.start < part.stop ∧
      ∀ c, text[part.start]? = some c → isBlank c = true → part.stop = part.start + 1 := by
  have first := fits.first
  rw [fits.start_eq, outcomes_append, outcomes_append, List.flatMap_assoc,
    List.head?_flatMap] at first
  obtain ⟨middle, member, first⟩ := List.exists_of_findSome?_eq_some first
  rw [(reached_of_mem member).place, space, outcomes, List.flatMap_map, List.head?_flatMap] at first
  obtain ⟨m, -, here, next⟩ := first_stop first
  simp only [outcomes, List.head?_map, head?_oneOrMore, Option.map_map, rest_placeAt,
    offset_placeAt] at here next
  obtain ⟨c, starts, same⟩ := Option.map_eq_some_iff.mp here
  obtain ⟨starts, isHeld⟩ := Option.filter_eq_some_iff.mp starts
  obtain ⟨rest, drop⟩ := List.head?_eq_some_iff.mp starts
  have behind : text.drop (m + 1) = rest := by rw [← List.tail_drop, drop, List.tail_cons]
  have captured : _ = found.captures := congrArg Prod.snd same
  have length : ((text.drop m).takeWhile holds).length = (rest.takeWhile holds).length + 1 := by
    rw [drop, List.takeWhile_cons_of_pos isHeld, List.length_cons]
  refine ⟨⟨slot, text.drop m, m, m + ((text.drop m).takeWhile holds).length⟩, ?_, ?_, ?_⟩
  · rw [Match.capture?, ← captured]
    simp
  · simp only [length]
    omega
  · intro d same blank
    have none := next d same blank
    rw [Option.map_eq_none_iff, behind] at none
    have short : rest.takeWhile holds = [] := by
      cases rest with
      | nil => rfl
      | cons e rest =>
        have fails : holds e = false := by simpa using none
        simp [fails]
    simp only [length, short, List.length_nil]

theorem Pattern.fits_of_matchAt? {found : Match}
    (matched : pattern.matchAt? (placeAt text n) = some found) :
    found.start.offset = n ∧ pattern.Fits text found := by
  obtain ⟨outcome, first, rfl⟩ := matchAt?_eq_some_iff.mp matched
  exact ⟨rfl, rfl, first⟩

end Matches

namespace Pattern

variable (pattern : Pattern) (text : List Char) (n : Nat)

/-- A search from an offset of a text on. -/
def searchAt : Option Match :=
  searchFrom? (fun before rest offset => pattern.matchAt? ⟨before, rest, offset⟩)
    (placeAt text n).before (text.drop n) n

/-- The matches from an offset of a text on, behind earlier ones. -/
def matchesAt (covered : Nat) (earlier : List Match) : List Match :=
  matchesOnto (fun before rest offset => pattern.matchAt? ⟨before, rest, offset⟩)
    (placeAt text n).before covered (text.drop n) n earlier

theorem search?_eq_searchAt : pattern.search? text = pattern.searchAt text 0 := by
  rw [search?_eq]
  rfl

theorem matchesIn_eq_matchesAt : pattern.matchesIn text = pattern.matchesAt text 0 0 [] := by
  rw [matchesIn_eq]
  rfl

theorem drop_eq_cons_or_nil :
    (n < text.length ∧ ∃ c, text.drop n = c :: text.drop (n + 1) ∧
      (placeAt text (n + 1)).before = some c) ∨ (text.length ≤ n ∧ text.drop n = []) := by
  rcases Nat.lt_or_ge n text.length with inside | outside
  · have here := List.drop_eq_getElem_cons inside
    exact .inl ⟨inside, _, here, (congrArg Cursor.before (placeAt_succ here)).symm⟩
  · exact .inr ⟨outside, List.drop_eq_nil_of_le outside⟩

theorem searchAt_eq : pattern.searchAt text n =
    (pattern.matchAt? (placeAt text n)).or
      (if n < text.length then pattern.searchAt text (n + 1) else none) := by
  rcases drop_eq_cons_or_nil text n with ⟨inside, c, here, before⟩ | ⟨outside, here⟩
  · have place : (⟨(placeAt text n).before, c :: text.drop (n + 1), n⟩ : Cursor) =
        placeAt text n := by simp [placeAt, here]
    rw [searchAt, here, searchFrom?, place, if_pos inside, searchAt, before]
    cases pattern.matchAt? (placeAt text n) <;> rfl
  · have place : (⟨(placeAt text n).before, [], n⟩ : Cursor) = placeAt text n := by
      simp [placeAt, here]
    rw [searchAt, here, searchFrom?, place, if_neg (Nat.not_lt.mpr outside)]
    cases pattern.matchAt? (placeAt text n) <;> rfl

theorem matchesAt_covered (covered : Nat) (earlier : List Match) :
    pattern.matchesAt text n (covered + 1) earlier =
      if n < text.length then pattern.matchesAt text (n + 1) covered earlier
      else earlier.reverse := by
  rcases drop_eq_cons_or_nil text n with ⟨inside, c, here, before⟩ | ⟨outside, here⟩
  · rw [matchesAt, here, matchesOnto, if_pos inside, matchesAt, before]
  · rw [matchesAt, here, matchesOnto, if_neg (Nat.not_lt.mpr outside)]

theorem matchesAt_zero (earlier : List Match) :
    pattern.matchesAt text n 0 earlier =
      (pattern.matchAt? (placeAt text n)).elim
        (if n < text.length then pattern.matchesAt text (n + 1) 0 earlier else earlier.reverse)
        fun here =>
          if n < text.length then
            pattern.matchesAt text (n + 1) (here.stop.offset - n - 1) (here :: earlier)
          else (here :: earlier).reverse := by
  rcases drop_eq_cons_or_nil text n with ⟨inside, c, here, before⟩ | ⟨outside, here⟩
  · have place : (⟨(placeAt text n).before, c :: text.drop (n + 1), n⟩ : Cursor) =
        placeAt text n := by simp [placeAt, here]
    simp only [if_pos inside]
    rw [matchesAt, here]
    simp only [matchesOnto, place, matchesAt, before]
    cases pattern.matchAt? (placeAt text n) <;> rfl
  · have place : (⟨(placeAt text n).before, [], n⟩ : Cursor) = placeAt text n := by
      simp [placeAt, here]
    rw [matchesAt, here, matchesOnto, place]
    simp only [if_neg (Nat.not_lt.mpr outside)]
    cases pattern.matchAt? (placeAt text n) <;> rfl

variable {pattern text n}

/-- Every match found in a text is the match at a place of it. -/
theorem matchAt?_of_mem_matchesIn {found : Match} (member : found ∈ pattern.matchesIn text) :
    ∃ n ≤ text.length, pattern.matchAt? (placeAt text n) = some found := by
  suffices onto : ∀ distance n covered earlier, text.length - n = distance → n ≤ text.length →
      found ∈ pattern.matchesAt text n covered earlier →
      found ∈ earlier ∨ ∃ m ≤ text.length, pattern.matchAt? (placeAt text m) = some found by
    rw [matchesIn_eq_matchesAt] at member
    exact (onto _ 0 0 [] rfl (Nat.zero_le _) member).resolve_left List.not_mem_nil
  intro distance
  induction distance using Nat.strongRecOn with
  | ind distance ih =>
    intro n covered earlier same le member
    cases covered with
    | succ covered =>
      rw [matchesAt_covered] at member
      split at member
      · exact ih _ (by omega) (n + 1) covered earlier rfl (by omega) member
      · exact .inl (List.mem_reverse.mp member)
    | zero =>
      rw [matchesAt_zero] at member
      cases matched : pattern.matchAt? (placeAt text n) with
      | none =>
        simp only [matched, Option.elim] at member
        split at member
        · exact ih _ (by omega) (n + 1) 0 earlier rfl (by omega) member
        · exact .inl (List.mem_reverse.mp member)
      | some here =>
        simp only [matched, Option.elim] at member
        have among : found ∈ here :: earlier ∨
            ∃ m ≤ text.length, pattern.matchAt? (placeAt text m) = some found := by
          split at member
          · exact ih _ (by omega) (n + 1) _ (here :: earlier) rfl (by omega) member
          · exact .inl (List.mem_reverse.mp member)
        rcases among with among | other
        · rcases List.mem_cons.mp among with rfl | among
          · exact .inr ⟨n, le, matched⟩
          · exact .inl among
        · exact .inr other

theorem fits_of_mem_matchesIn {found : Match} (member : found ∈ pattern.matchesIn text) :
    pattern.Fits text found := by
  obtain ⟨n, -, matched⟩ := matchAt?_of_mem_matchesIn member
  exact (fits_of_matchAt? matched).2

theorem matchAt?_of_search? {found : Match} (searched : pattern.search? text = some found) :
    ∃ n ≤ text.length, pattern.matchAt? (placeAt text n) = some found := by
  suffices onto : ∀ distance n, text.length - n = distance → n ≤ text.length →
      pattern.searchAt text n = some found →
      ∃ m ≤ text.length, pattern.matchAt? (placeAt text m) = some found by
    rw [search?_eq_searchAt] at searched
    exact onto _ 0 rfl (Nat.zero_le _) searched
  intro distance
  induction distance using Nat.strongRecOn with
  | ind distance ih =>
    intro n same le searched
    rw [searchAt_eq] at searched
    rcases Option.or_eq_some_iff.mp searched with here | ⟨-, later⟩
    · exact ⟨n, le, here⟩
    · split at later
      · exact ih _ (by omega) (n + 1) rfl (by omega) later
      · contradiction

/-- A search finds nothing exactly if the pattern matches nowhere. -/
theorem search?_eq_none_iff : pattern.search? text = none ↔
    ∀ n ≤ text.length, pattern.matchAt? (placeAt text n) = none := by
  suffices onto : ∀ distance n, text.length - n = distance → n ≤ text.length →
      (pattern.searchAt text n = none ↔
        ∀ m, n ≤ m → m ≤ text.length → pattern.matchAt? (placeAt text m) = none) by
    rw [search?_eq_searchAt, onto _ 0 rfl (Nat.zero_le _)]
    simp only [Nat.zero_le, true_implies]
  intro distance
  induction distance with
  | zero =>
    intro n same le
    obtain rfl : n = text.length := by omega
    rw [searchAt_eq, if_neg (Nat.lt_irrefl _), Option.or_none]
    constructor
    · intro none m low high
      obtain rfl : m = text.length := by omega
      exact none
    · intro none
      exact none _ (Nat.le_refl _) (Nat.le_refl _)
  | succ distance ih =>
    intro n same le
    rw [searchAt_eq, if_pos (by omega), Option.or_eq_none_iff, ih (n + 1) (by omega) (by omega)]
    constructor
    · rintro ⟨here, later⟩ m low high
      rcases Nat.eq_or_lt_of_le low with rfl | lt
      · exact here
      · exact later m lt high
    · intro none
      exact ⟨none n (Nat.le_refl n) le, fun m low high => none m (Nat.le_of_succ_le low) high⟩

end Pattern

end ContractInspector.Text
