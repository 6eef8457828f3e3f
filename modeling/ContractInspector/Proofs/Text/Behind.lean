import Mathlib.Data.List.Basic
import Mathlib.Data.Nat.Find
import ContractInspector.Proofs.Text.Taking

/-! Searching a text that stands behind another one. A pattern that cannot tell the last character in
front from the start of a text has the same outcomes there, moved by what stands in front
(`outcomes_behind`), and a search goes on behind as it starts (`matchesAt_behind`). -/
namespace ContractInspector.Text

/-! Places, outcomes and matches, moved behind a text. -/

def Cursor.behind (front : List Char) (cursor : Cursor) : Cursor :=
  ⟨if cursor.offset = 0 then front.getLast? else cursor.before, cursor.rest,
    front.length + cursor.offset⟩

def Capture.behind (front : List Char) (part : Capture) : Capture :=
  { part with start := front.length + part.start, stop := front.length + part.stop }

def Outcome.behind (front : List Char) (outcome : Outcome) : Outcome :=
  (outcome.1.behind front, outcome.2.map (Capture.behind front))

def Match.behind (front : List Char) (found : Match) : Match :=
  ⟨found.start.behind front, found.stop.behind front, found.captures.map (Capture.behind front)⟩

variable {front text : List Char} {n : Nat}

@[simp]
theorem Cursor.offset_behind (front : List Char) (cursor : Cursor) :
    (cursor.behind front).offset = front.length + cursor.offset := rfl

@[simp]
theorem Cursor.rest_behind (front : List Char) (cursor : Cursor) :
    (cursor.behind front).rest = cursor.rest := rfl

theorem placeAt_append (front text : List Char) (n : Nat) :
    placeAt (front ++ text) (front.length + n) = (placeAt text n).behind front := by
  cases n with
  | zero =>
    rw [Nat.add_zero, placeAt_length]
    rfl
  | succ n => simp [placeAt, Cursor.behind, List.getElem?_append_right, List.drop_length_add_append]

section Captures

theorem Capture.text_behind (front : List Char) (part : Capture) :
    (part.behind front).text = part.text := by
  rw [text, behind, Nat.add_sub_add_left]
  rfl

theorem Match.capture?_behind (front : List Char) (found : Match) (slot : Nat) :
    (found.behind front).capture? slot = (found.capture? slot).map (Capture.behind front) := by
  rw [capture?, behind, List.find?_map]
  rfl

@[simp]
theorem Match.text?_behind (front : List Char) (found : Match) (slot : Nat) :
    (found.behind front).text? slot = found.text? slot := by
  rw [text?, capture?_behind, Option.map_map, text?]
  congr 1
  funext part
  exact Capture.text_behind front part

@[simp]
theorem Match.text_behind (front : List Char) (found : Match) (slot : Nat) :
    (found.behind front).text slot = found.text slot := by
  rw [text, text?_behind, text]

end Captures

namespace Pattern

/-- The classes of characters that a pattern looks back for. -/
def lookbehinds : Pattern → List (Char → Bool)
  | andThen first second | orElse first second => first.lookbehinds ++ second.lookbehinds
  | optional body | capture _ body => body.lookbehinds
  | wordBoundary => [isWord]
  | notAfter holds => [holds]
  | _ => []

theorem lookbehinds_append (first second : Pattern) :
    (first ++ second).lookbehinds = first.lookbehinds ++ second.lookbehinds := by
  change (first.append second).lookbehinds = _
  induction first with
  | andThen head tail _ ih => rw [append, lookbehinds, ih, lookbehinds, List.append_assoc]
  | _ => rfl

theorem lookbehinds_anyCase (word : String) : (anyCase word).lookbehinds = [] := by
  unfold anyCase
  induction word.toList with
  | nil => rfl
  | cons letter letters ih =>
    rw [List.foldr_cons, lookbehinds_append, ih]
    rfl

/-- A pattern cannot tell a character in front from the start of a text. -/
def Blind (pattern : Pattern) (last : Option Char) : Prop :=
  ∀ holds ∈ pattern.lookbehinds, last.any holds = false

theorem Blind.isAfter {pattern : Pattern} {holds : Char → Bool}
    (blind : pattern.Blind front.getLast?) (looks : holds ∈ pattern.lookbehinds) (text : List Char)
    (n : Nat) : ((placeAt text n).behind front).isAfter holds = (placeAt text n).isAfter holds := by
  cases n with
  | zero => exact blind holds looks
  | succ n => rfl

theorem stops_behind (holds : Char → Bool) (front text : List Char) (n : Nat) :
    ((placeAt text n).behind front).stops holds =
      ((placeAt text n).stops holds).map (Cursor.behind front) := by
  rw [← placeAt_append, stops_placeAt, stops_placeAt, List.drop_length_add_append,
    ← List.map_add_range', List.map_map, List.map_reverse, List.map_map]
  congr 2
  funext m
  exact placeAt_append front text m

theorem skip?_behind (part : List Char) (cursor : Cursor) :
    (cursor.behind front).skip? part = (cursor.skip? part).map (Cursor.behind front) := by
  induction part generalizing cursor with
  | nil => rfl
  | cons c part ih =>
    rcases cursor with ⟨before, _ | ⟨d, rest⟩, offset⟩
    · rfl
    · simp only [Cursor.skip?, Cursor.rest_behind]
      split
      · exact ih ⟨some d, rest, offset + 1⟩
      · rfl

/-- Behind a text a pattern has the outcomes that it has without it. -/
theorem outcomes_behind (pattern : Pattern) (blind : pattern.Blind front.getLast?) (n : Nat)
    (captures : List Capture) :
    pattern.outcomes ((placeAt text n).behind front) (captures.map (Capture.behind front)) =
      (pattern.outcomes (placeAt text n) captures).map (Outcome.behind front) := by
  induction pattern generalizing n captures with
  | empty => rfl
  | char holds =>
    simp only [outcomes, Cursor.rest_behind, rest_placeAt]
    cases text.drop n with
    | nil => rfl
    | cons c rest =>
      by_cases held : holds c <;> simp [held]
      rfl
  | text part =>
    rw [outcomes, outcomes, skip?_behind]
    cases (placeAt text n).skip? part <;> rfl
  | andThen first second first_ih second_ih =>
    have one := first_ih (fun holds looks => blind holds (List.mem_append_left _ looks)) n captures
    have two : ∀ outcome ∈ first.outcomes (placeAt text n) captures,
        second.outcomes (outcome.1.behind front) (outcome.2.map (Capture.behind front)) =
          (second.outcomes outcome.1 outcome.2).map (Outcome.behind front) := by
      intro outcome member
      rw [(reached_of_mem member).place]
      exact second_ih (fun holds looks => blind holds (List.mem_append_right _ looks)) _ _
    rw [outcomes, one, outcomes, List.flatMap_map, List.map_flatMap]
    exact List.flatMap_congr two
  | orElse first second first_ih second_ih =>
    have one := first_ih (fun holds looks => blind holds (List.mem_append_left _ looks)) n captures
    have two := second_ih (fun holds looks => blind holds (List.mem_append_right _ looks)) n captures
    rw [outcomes, outcomes, one, two, List.map_append]
  | optional body ih =>
    rw [outcomes, outcomes, ih blind, List.map_append]
    rfl
  | many holds =>
    rw [outcomes, outcomes, stops_behind, List.map_map, List.map_map]
    rfl
  | fewest holds =>
    rw [outcomes, outcomes, stops_behind, ← List.map_reverse, List.map_map, List.map_map]
    rfl
  | capture slot body ih =>
    rw [outcomes, outcomes, ih blind, List.map_map, List.map_map]
    rfl
  | wordBoundary =>
    have same : ((placeAt text n).behind front).atWordBoundary = (placeAt text n).atWordBoundary := by
      rw [Cursor.atWordBoundary, blind.isAfter (by simp [lookbehinds])]
      rfl
    rw [outcomes, outcomes, same]
    split <;> rfl
  | notAfter holds =>
    rw [outcomes, outcomes, blind.isAfter (by simp [lookbehinds])]
    split <;> rfl
  | notBefore holds =>
    have same : ((placeAt text n).behind front).isBefore holds = (placeAt text n).isBefore holds := rfl
    rw [outcomes, outcomes, same]
    split <;> rfl

variable {pattern : Pattern}

theorem matchAt?_behind (blind : pattern.Blind front.getLast?) (n : Nat) :
    pattern.matchAt? (placeAt (front ++ text) (front.length + n)) =
      (pattern.matchAt? (placeAt text n)).map (Match.behind front) := by
  have same := @outcomes_behind front text pattern blind n []
  rw [List.map_nil] at same
  rw [placeAt_append, matchAt?_eq_head?, same, List.head?_map, Option.map_map, matchAt?_eq_head?,
    Option.map_map]
  rfl

theorem matchesAt_behind (blind : pattern.Blind front.getLast?) (n covered : Nat)
    (earlier : List Match) :
    pattern.matchesAt (front ++ text) (front.length + n) covered
        (earlier.map (Match.behind front)) =
      (pattern.matchesAt text n covered earlier).map (Match.behind front) := by
  generalize distance : text.length - n = k
  induction k using Nat.strongRecOn generalizing n covered earlier with
  | ind k ih =>
    have inside : front.length + n < (front ++ text).length ↔ n < text.length := by
      rw [List.length_append, Nat.add_lt_add_iff_left]
    cases covered with
    | succ covered =>
      rw [pattern.matchesAt_covered (front ++ text), pattern.matchesAt_covered text,
        ← List.map_reverse]
      simp only [inside]
      split
      · exact ih _ (by omega) (n + 1) covered earlier rfl
      · rfl
    | zero =>
      rw [pattern.matchesAt_zero (front ++ text), pattern.matchesAt_zero text, matchAt?_behind blind]
      simp only [inside]
      cases pattern.matchAt? (placeAt text n) with
      | none =>
        simp only [Option.map_none, Option.elim_none]
        split
        · exact ih _ (by omega) (n + 1) 0 earlier rfl
        · rw [List.map_reverse]
      | some here =>
        have stops : (here.behind front).stop.offset - (front.length + n) - 1 =
            here.stop.offset - n - 1 := by
          simp only [Match.behind, Cursor.offset_behind]
          omega
        simp only [Option.map_some, Option.elim_some, stops]
        split
        · exact ih _ (by omega) (n + 1) _ (here :: earlier) rfl
        · rw [List.map_reverse]
          rfl

theorem searchAt_behind (blind : pattern.Blind front.getLast?) (n : Nat) :
    pattern.searchAt (front ++ text) (front.length + n) =
      (pattern.searchAt text n).map (Match.behind front) := by
  generalize distance : text.length - n = k
  induction k using Nat.strongRecOn generalizing n with
  | ind k ih =>
    have inside : front.length + n < (front ++ text).length ↔ n < text.length := by
      rw [List.length_append, Nat.add_lt_add_iff_left]
    rw [pattern.searchAt_eq (front ++ text), pattern.searchAt_eq text, matchAt?_behind blind]
    simp only [inside]
    cases pattern.matchAt? (placeAt text n) with
    | some here => rfl
    | none =>
      simp only [Option.map_none, Option.none_or]
      split
      · exact ih _ (by omega) (n + 1) rfl
      · rfl

end Pattern

section Passing

variable {pattern : Pattern}

/-- No match of a pattern starts between two offsets of a text. -/
def Pattern.Passes (pattern : Pattern) (text : List Char) (low high : Nat) : Prop :=
  ∀ n, low ≤ n → n < high → pattern.matchAt? (placeAt text n) = none

theorem Pattern.Passes.succ {low high : Nat} (passes : pattern.Passes text low high) :
    pattern.Passes text (low + 1) high :=
  fun n le lt => passes n (Nat.le_of_succ_le le) lt

theorem Pattern.Passes.trans {low middle high : Nat} (first : pattern.Passes text low middle)
    (second : pattern.Passes text middle high) : pattern.Passes text low high := by
  intro n above below
  rcases Nat.lt_or_ge n middle with before | behind
  · exact first n above before
  · exact second n behind below

/-- A part is passed if no match starts in front of any end of it. -/
theorem Pattern.passes_part {part tail : List Char}
    (absent : ∀ before after, part = before ++ after → after ≠ [] →
      pattern.matchAt? (.between (front ++ before) (after ++ tail)) = none) :
    pattern.Passes (front ++ (part ++ tail)) front.length (front ++ part).length := by
  intro n low high
  rw [List.length_append] at high
  obtain ⟨k, rfl⟩ := Nat.exists_eq_add_of_le low
  obtain ⟨before, after, rfl, rfl, -⟩ := exists_between (show k ≤ part.length by omega)
  have nonempty : after ≠ [] := by
    rintro rfl
    simp at high
  have same : front ++ (before ++ after ++ tail) = (front ++ before) ++ (after ++ tail) := by simp
  rw [same, ← List.length_append, placeAt_length]
  exact absent before after rfl nonempty

/-- A text is passed with a character behind it if no match starts in front of that one. -/
theorem Pattern.passes_through {tail : List Char} {c : Char}
    (absent : ∀ before after, front = before ++ after →
      pattern.matchAt? (.between before (after ++ c :: tail)) = none) :
    pattern.Passes ((front ++ [c]) ++ tail) 0 (front ++ [c]).length := by
  intro n _ inside
  rw [List.length_append, List.length_singleton] at inside
  obtain ⟨before, after, rfl, rfl, -⟩ := exists_between (Nat.le_of_lt_succ inside)
  have same : (before ++ after ++ [c]) ++ tail = before ++ (after ++ c :: tail) := by simp
  rw [same, placeAt_length]
  exact absent before after rfl

theorem Pattern.matchesAt_earlier (covered : Nat) (earlier : List Match) :
    pattern.matchesAt text n covered earlier =
      earlier.reverse ++ pattern.matchesAt text n covered [] := by
  generalize distance : text.length - n = k
  induction k using Nat.strongRecOn generalizing n covered earlier with
  | ind k ih =>
    cases covered with
    | succ covered =>
      rw [pattern.matchesAt_covered text n covered earlier, pattern.matchesAt_covered text n covered []]
      split
      · exact ih _ (by omega) covered earlier rfl
      · simp
    | zero =>
      rw [pattern.matchesAt_zero text n earlier, pattern.matchesAt_zero text n []]
      cases pattern.matchAt? (placeAt text n) with
      | none =>
        simp only [Option.elim_none]
        split
        · exact ih _ (by omega) 0 earlier rfl
        · simp
      | some here =>
        simp only [Option.elim_some]
        split
        · rw [ih _ (by omega) _ (here :: earlier) rfl, ih _ (by omega) _ [here] rfl]
          simp
        · simp

theorem Pattern.matchesAt_covered_all (covered : Nat) (inside : n + covered ≤ text.length)
    (earlier : List Match) : pattern.matchesAt text n covered earlier =
      pattern.matchesAt text (n + covered) 0 earlier := by
  induction covered generalizing n with
  | zero => rfl
  | succ covered ih =>
    rw [matchesAt_covered, if_pos (by omega), ih (by omega), Nat.add_right_comm, Nat.add_assoc]

theorem Pattern.matchesAt_passes {high : Nat} (passes : pattern.Passes text n high) (le : n ≤ high)
    (inside : high ≤ text.length) (earlier : List Match) :
    pattern.matchesAt text n 0 earlier = pattern.matchesAt text high 0 earlier := by
  generalize distance : high - n = k
  induction k generalizing n with
  | zero =>
    obtain rfl : n = high := by omega
    rfl
  | succ k ih =>
    rw [matchesAt_zero, passes n (Nat.le_refl n) (by omega), Option.elim_none, if_pos (by omega)]
    exact ih passes.succ (by omega) (by omega)

theorem Pattern.searchAt_passes {high : Nat} (passes : pattern.Passes text n high) (le : n ≤ high)
    (inside : high ≤ text.length) : pattern.searchAt text n = pattern.searchAt text high := by
  generalize distance : high - n = k
  induction k generalizing n with
  | zero =>
    obtain rfl : n = high := by omega
    rfl
  | succ k ih =>
    rw [searchAt_eq, passes n (Nat.le_refl n) (by omega), Option.none_or, if_pos (by omega)]
    exact ih passes.succ (by omega) (by omega)

/-- Behind a match the search goes on where the match stops. -/
theorem Pattern.matchesAt_found {here : Match}
    (matched : pattern.matchAt? (placeAt text n) = some here) (forward : n < here.stop.offset)
    (inside : here.stop.offset ≤ text.length) : pattern.matchesAt text n 0 [] =
      here :: pattern.matchesAt text here.stop.offset 0 [] := by
  have stop : n + 1 + (here.stop.offset - n - 1) = here.stop.offset := by omega
  rw [matchesAt_zero, matched, Option.elim_some, if_pos (by omega),
    matchesAt_covered_all _ (by omega), stop, matchesAt_earlier]
  rfl

/-- Where a pattern matches, one of the matches found starts, or it reaches beyond that place. -/
theorem Pattern.exists_mem_matchesIn {here : Match} (inside : n ≤ text.length)
    (matched : pattern.matchAt? (placeAt text n) = some here) :
    ∃ found ∈ pattern.matchesIn text,
      found = here ∨ (found.start.offset < n ∧ n < found.stop.offset) := by
  suffices onto : ∀ distance m covered earlier, n - m = distance → m ≤ n →
      (n < m + covered →
        ∃ found ∈ earlier, found.start.offset < n ∧ n < found.stop.offset) →
      ∃ found ∈ pattern.matchesAt text m covered earlier,
        found = here ∨ (found.start.offset < n ∧ n < found.stop.offset) by
    rw [matchesIn_eq_matchesAt]
    exact onto n 0 0 [] rfl (Nat.zero_le n) (by omega)
  intro distance
  induction distance with
  | zero =>
    intro m covered earlier same le within
    obtain rfl : m = n := by omega
    cases covered with
    | succ covered =>
      obtain ⟨found, member, spans⟩ := within (by omega)
      rw [matchesAt_earlier]
      exact ⟨found, List.mem_append_left _ (List.mem_reverse.mpr member), .inr spans⟩
    | zero =>
      rw [matchesAt_zero, matched, Option.elim_some]
      refine ⟨here, ?_, .inl rfl⟩
      split
      · rw [matchesAt_earlier]
        simp
      · simp
  | succ distance ih =>
    intro m covered earlier same le
    have before : m < text.length := by omega
    have next : m + 1 ≤ n := by omega
    have left : n - (m + 1) = distance := by omega
    intro within
    cases covered with
    | succ covered =>
      have covers : n < m + 1 + covered → n < m + (covered + 1) := by
        rw [Nat.add_right_comm, Nat.add_assoc]
        exact id
      rw [matchesAt_covered, if_pos before]
      exact ih (m + 1) covered earlier left next fun lt => within (covers lt)
    | zero =>
      rw [matchesAt_zero]
      cases other : pattern.matchAt? (placeAt text m) with
      | none =>
        rw [Option.elim_none, if_pos before]
        exact ih (m + 1) 0 earlier left next fun lt => absurd lt (by omega)
      | some found =>
        rw [Option.elim_some, if_pos before]
        have start : found.start.offset = m := (fits_of_matchAt? other).1
        refine ih (m + 1) _ (found :: earlier) left next fun lt => ?_
        exact ⟨found, List.mem_cons_self, by omega, by omega⟩

/-- Matches start from left to right, and none of them before the one in front of it stops. -/
theorem Pattern.spaced_matchesAt (covered : Nat) :
    (∀ found ∈ pattern.matchesAt text n covered [], n + covered ≤ found.start.offset) ∧
      (pattern.matchesAt text n covered []).Pairwise fun a b =>
        a.start.offset < b.start.offset ∧ a.stop.offset ≤ b.start.offset := by
  generalize distance : text.length - n = k
  induction k using Nat.strongRecOn generalizing n covered with
  | ind k ih =>
    cases covered with
    | succ covered =>
      rw [matchesAt_covered]
      split
      · have behind := @ih (text.length - (n + 1)) (by omega) (n + 1) covered rfl
        rwa [Nat.add_right_comm, Nat.add_assoc] at behind
      · simp
    | zero =>
      rw [matchesAt_zero]
      cases matched : pattern.matchAt? (placeAt text n) with
      | none =>
        rw [Option.elim_none]
        split
        · obtain ⟨behind, spaced⟩ := @ih (text.length - (n + 1)) (by omega) (n + 1) 0 rfl
          exact ⟨fun found member => Nat.le_of_succ_le (behind found member), spaced⟩
        · simp
      | some here =>
        have start : here.start.offset = n := (fits_of_matchAt? matched).1
        rw [Option.elim_some]
        split
        next inside =>
          obtain ⟨behind, spaced⟩ :=
            @ih (text.length - (n + 1)) (by omega) (n + 1) (here.stop.offset - n - 1) rfl
          have below : ∀ found ∈ pattern.matchesAt text (n + 1) (here.stop.offset - n - 1) [],
              n < found.start.offset ∧ here.stop.offset ≤ found.start.offset := by
            intro found member
            have := behind found member
            omega
          rw [matchesAt_earlier, List.reverse_singleton, List.singleton_append, List.forall_mem_cons,
            List.pairwise_cons, start]
          exact ⟨⟨Nat.le_refl n, fun found member => Nat.le_of_lt (below found member).1⟩, below, spaced⟩
        · simp [start]

theorem Pattern.ordered_matchesIn (pattern : Pattern) (text : List Char) :
    (pattern.matchesIn text).Pairwise fun a b => a.start.offset < b.start.offset := by
  rw [matchesIn_eq_matchesAt]
  exact (spaced_matchesAt 0).2.imp And.left

theorem Pattern.apart_matchesIn (pattern : Pattern) (text : List Char) :
    (pattern.matchesIn text).Pairwise fun a b => a.stop.offset ≤ b.start.offset := by
  rw [matchesIn_eq_matchesAt]
  exact (spaced_matchesAt 0).2.imp And.right

/-- A search finds the first match there is. -/
theorem Pattern.search?_eq_some_iff {found : Match} : pattern.search? text = some found ↔
    ∃ n ≤ text.length, pattern.matchAt? (placeAt text n) = some found ∧ pattern.Passes text 0 n := by
  constructor
  · intro searched
    obtain ⟨n, inside, matched⟩ := matchAt?_of_search? searched
    have starts : ∃ n, (pattern.matchAt? (placeAt text n)).isSome := ⟨n, by rw [matched]; rfl⟩
    obtain ⟨first, isFirst, least⟩ := Nat.findX starts
    have before : first ≤ n := by
      by_contra later
      exact least n (by omega) (by rw [matched]; rfl)
    have passes : pattern.Passes text 0 first := fun m _ below => by simpa using least m below
    obtain ⟨here, matchedHere⟩ := Option.isSome_iff_exists.mp isFirst
    have same : pattern.search? text = some here := by
      rw [search?_eq_searchAt, searchAt_passes passes (Nat.zero_le _) (by omega), searchAt_eq,
        matchedHere, Option.some_or]
    obtain rfl := Option.some.inj (same.symm.trans searched)
    exact ⟨first, by omega, matchedHere, passes⟩
  · rintro ⟨n, inside, matched, passes⟩
    rw [search?_eq_searchAt, searchAt_passes passes (Nat.zero_le _) inside, searchAt_eq, matched,
      Option.some_or]

/-- Where nothing matches in front, the matches are those behind. -/
theorem Pattern.matchesIn_append (blind : pattern.Blind front.getLast?)
    (passes : pattern.Passes (front ++ text) 0 front.length) :
    pattern.matchesIn (front ++ text) = (pattern.matchesIn text).map (Match.behind front) := by
  rw [matchesIn_eq_matchesAt, matchesIn_eq_matchesAt,
    matchesAt_passes passes (Nat.zero_le _) (by simp), ← matchesAt_behind blind]
  rfl

theorem Pattern.search?_append (blind : pattern.Blind front.getLast?)
    (passes : pattern.Passes (front ++ text) 0 front.length) :
    pattern.search? (front ++ text) = (pattern.search? text).map (Match.behind front) := by
  rw [search?_eq_searchAt, search?_eq_searchAt, searchAt_passes passes (Nat.zero_le _) (by simp),
    ← searchAt_behind blind]
  rfl

/-- Where one match starts a text and no other one starts in front, it is the first one. -/
theorem Pattern.matchesIn_append_of_match (blind : pattern.Blind front.getLast?) {here : Match}
    (matched : pattern.matchAt? (placeAt (front ++ text) 0) = some here)
    (forward : 0 < here.stop.offset) (inside : here.stop.offset ≤ front.length)
    (passes : pattern.Passes (front ++ text) here.stop.offset front.length) :
    pattern.matchesIn (front ++ text) =
      here :: (pattern.matchesIn text).map (Match.behind front) := by
  rw [matchesIn_eq_matchesAt, matchesIn_eq_matchesAt,
    matchesAt_found matched forward (by rw [List.length_append]; omega),
    matchesAt_passes passes inside (by simp), ← matchesAt_behind blind]
  rfl

end Passing

section Avoiding

variable {pattern : Pattern}

/-- A pattern neither starts with a character nor looks back for it. -/
def Pattern.Avoids (pattern : Pattern) (c : Char) : Prop :=
  (pattern.starts .anything).allowChar c = false ∧ ∀ holds ∈ pattern.lookbehinds, holds c = false

/-- No match starts with a character that the pattern rules out. -/
theorem Pattern.matchAt?_of_ruledOut (ruledOut : (pattern.starts .anything).allow (text.drop n) = false) :
    pattern.matchAt? (placeAt text n) = none := by
  have refuses : Refuses Starts.anything fun reached captures =>
      some (Match.mk (placeAt text n) reached captures) := by
    intro reached captured none
    rw [Starts.allow_anything] at none
    contradiction
  exact pattern.run_eq_none refuses ruledOut []

theorem Pattern.blind_of_avoids (avoids : ∀ c ∈ front, pattern.Avoids c) :
    pattern.Blind front.getLast? := by
  intro holds looks
  cases last : front.getLast? with
  | none => rfl
  | some c => exact (avoids c (List.mem_of_getLast? last)).2 holds looks

theorem Pattern.passes_of_avoids (avoids : ∀ c ∈ front, pattern.Avoids c) :
    pattern.Passes (front ++ text) 0 front.length := by
  intro n _ inside
  have here : (front ++ text).drop n = front[n] :: (front.drop (n + 1) ++ text) := by
    rw [List.drop_append_of_le_length (Nat.le_of_lt inside), List.drop_eq_getElem_cons inside]
    rfl
  refine matchAt?_of_ruledOut ?_
  rw [here]
  exact (avoids _ (List.getElem_mem inside)).1

/-- In front of a text, characters that a pattern avoids only move its matches. -/
theorem Pattern.matchesIn_behind (avoids : ∀ c ∈ front, pattern.Avoids c) (text : List Char) :
    pattern.matchesIn (front ++ text) = (pattern.matchesIn text).map (Match.behind front) :=
  matchesIn_append (blind_of_avoids avoids) (passes_of_avoids avoids)

theorem Pattern.search?_behind (avoids : ∀ c ∈ front, pattern.Avoids c) (text : List Char) :
    pattern.search? (front ++ text) = (pattern.search? text).map (Match.behind front) :=
  search?_append (blind_of_avoids avoids) (passes_of_avoids avoids)

theorem Pattern.occursIn_behind (avoids : ∀ c ∈ front, pattern.Avoids c) (text : List Char) :
    pattern.occursIn (front ++ text) = pattern.occursIn text := by
  rw [occursIn, search?_behind avoids, Option.isSome_map, occursIn]

end Avoiding

end ContractInspector.Text
