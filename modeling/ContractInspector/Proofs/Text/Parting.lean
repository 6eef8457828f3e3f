import ContractInspector.Proofs.Text.Window

/-! Searching a text that a character parts. The matches of a pattern that runs up to the next such character
are the first ones in each part: where it matches, a match is found exactly unless it matches earlier in the
same part (`mem_matchesIn_iff`). -/
namespace ContractInspector.Text

variable {pattern head body : Pattern} {c : Char} {text : List Char} {n : Nat} {captures : List Capture}
  {outcome : Outcome} {found : Match}

theorem mem_slice_iff {start stop : Nat} :
    c ∈ slice text start stop ↔ ∃ i, start ≤ i ∧ i < stop ∧ text[i]? = some c := by
  rw [slice, List.mem_iff_getElem?]
  constructor
  · rintro ⟨i, here⟩
    rw [List.getElem?_take] at here
    split at here
    · next inside =>
      rw [List.getElem?_drop] at here
      exact ⟨start + i, Nat.le_add_right _ _, by omega, here⟩
    · contradiction
  · rintro ⟨i, above, below, here⟩
    refine ⟨i - start, ?_⟩
    rw [List.getElem?_take, if_pos (by omega), List.getElem?_drop, Nat.add_sub_cancel' above, here]

theorem drop_slice (text : List Char) (low high n : Nat) :
    (slice text low high).drop n = slice text (low + n) high := by
  rw [slice, slice, List.drop_take, List.drop_drop, Nat.sub_sub]

theorem slice_slice {low high m : Nat} (within : low + m ≤ high) :
    slice (slice text low high) n m = slice text (low + n) (low + m) := by
  rw [slice, drop_slice, slice, slice, List.take_take, Nat.add_sub_add_left, Nat.min_eq_left (by omega)]

theorem head?_slice {stop : Nat} (below : n < stop) : (slice text n stop).head? = text[n]? := by
  rw [slice, List.head?_take, if_neg (by omega), List.head?_drop]

/-- Every match of a pattern passes some character. -/
def Pattern.solid : Pattern → Bool
  | char _ => true
  | .text part => !part.isEmpty
  | andThen first second => first.solid || second.solid
  | orElse first second => first.solid && second.solid
  | capture _ body => body.solid
  | _ => false

theorem Pattern.solid_append (first second : Pattern) :
    (first ++ second).solid = (first.solid || second.solid) := by
  induction first with
  | andThen head tail _ ih =>
    change (head.solid || (tail ++ second).solid) = (head.solid || tail.solid || second.solid)
    rw [ih, Bool.or_assoc]
  | _ => rfl

/-- The first way of a pattern ends in front of a character of a kind, or at the end of the text. -/
def Pattern.Stops (pattern : Pattern) (c : Char) : Prop :=
  ∀ front text captures outcome,
    (pattern.outcomes (.between front text) captures).head? = some outcome →
      ∀ d, outcome.1.rest.head? = some d → d = c

/-- Every match of a pattern passes something, up to the next character of a kind. -/
structure Pattern.RunsTo (pattern : Pattern) (c : Char) : Prop where
  solid : pattern.solid = true
  unread : pattern.reads c = false
  stops : pattern.Stops c

theorem Pattern.lt_of_solid (solid : pattern.solid = true)
    (member : outcome ∈ pattern.outcomes (placeAt text n) captures) : n < outcome.1.offset := by
  induction pattern generalizing n captures outcome with
  | char holds =>
    rw [outcomes] at member
    split at member
    · contradiction
    · split at member
      · obtain rfl := List.mem_singleton.mp member
        exact Nat.lt_succ_self n
      · contradiction
  | text part =>
    obtain ⟨reached, skipped, rfl⟩ := List.mem_map.mp member
    obtain ⟨place, -⟩ := skip?_placeAt (Option.mem_toList.mp skipped)
    have nonempty : part ≠ [] := by simpa [Pattern.solid] using solid
    rw [place, offset_placeAt]
    exact Nat.lt_add_of_pos_right (List.length_pos_iff.mpr nonempty)
  | andThen first second first_ih second_ih =>
    obtain ⟨middle, one, two⟩ := List.mem_flatMap.mp member
    have reached := reached_of_mem one
    rw [reached.place] at two
    have le := reached.le
    have le' := (reached_of_mem two).le
    rcases Bool.or_eq_true_iff.mp solid with solid | solid
    · exact Nat.lt_of_lt_of_le (first_ih solid one) le'
    · exact Nat.lt_of_le_of_lt le (second_ih solid two)
  | orElse first second first_ih second_ih =>
    obtain ⟨one, two⟩ := Bool.and_eq_true_iff.mp solid
    rcases List.mem_append.mp member with member | member
    · exact first_ih one member
    · exact second_ih two member
  | capture slot body ih =>
    obtain ⟨inner, way, rfl⟩ := List.mem_map.mp member
    have forward := ih solid way
    exact forward
  | _ => contradiction

theorem Pattern.Stops.append (stops : body.Stops c) (head : Pattern) : (head ++ body).Stops c := by
  intro front text captures outcome way
  obtain ⟨middle, one, two⟩ := head?_outcomes_append way
  obtain ⟨part, rest, -, reached, -⟩ := passed_of_mem one
  rw [reached] at two
  exact stops _ _ _ _ two

theorem Pattern.Stops.capture (stops : body.Stops c) (slot : Nat) : (capture slot body).Stops c := by
  intro front text captures outcome way
  rw [outcomes, List.head?_map] at way
  obtain ⟨inner, taken, rfl⟩ := Option.map_eq_some_iff.mp way
  have ends := stops _ _ _ _ taken
  exact ends

theorem Pattern.stops_many (c : Char) : (many (· != c)).Stops c := by
  intro front text captures outcome way
  obtain ⟨part, rest, rfl, spans⟩ := exists_spans (· != c) text
  have taken : (many (· != c)).Takes front part rest captures captures :=
    takes_many spans.inside spans.ends
  rw [Takes, way] at taken
  obtain rfl := Option.some.inj taken
  exact fun d here => by simpa using spans.ends d here

theorem Pattern.stops_oneOrMore {holds : Char → Bool} (other : ∀ d, holds d = false → d = c) :
    (oneOrMore holds).Stops c := by
  intro front text captures outcome way
  obtain ⟨part, rest, -, -, -, ends, rfl⟩ := head?_outcomes_oneOrMore way
  exact fun d here => other d (ends d here)

namespace Pattern.RunsTo

variable (runs : pattern.RunsTo c)
include runs

/-- What a match passes, and where it stops. -/
theorem passes (inside : n ≤ text.length) (matched : pattern.matchAt? (placeAt text n) = some found) :
    n < found.stop.offset ∧ found.stop.offset ≤ text.length ∧ c ∉ slice text n found.stop.offset ∧
      (found.stop.offset < text.length → text[found.stop.offset]? = some c) := by
  obtain ⟨outcome, head, rfl⟩ := matchAt?_eq_some_iff.mp matched
  have way := List.mem_of_mem_head? head
  have forward := lt_of_solid runs.solid way
  obtain ⟨front, behind, rfl, rfl, place⟩ := exists_between inside
  rw [place] at way head
  have stops := runs.stops _ _ _ _ head
  obtain ⟨part, rest, rfl, reached, read⟩ := passed_of_mem way
  dsimp only
  rw [reached, Cursor.offset_between] at forward ⊢
  rw [reached, Cursor.rest_between] at stops
  refine ⟨forward, by simp, ?_, fun short => ?_⟩
  · rw [List.length_append, slice, List.drop_left, Nat.add_sub_cancel_left, List.take_left]
    intro member
    have unread := runs.unread
    rw [read c member] at unread
    contradiction
  · rw [← List.append_assoc, List.getElem?_append_right (Nat.le_refl _), Nat.sub_self,
      ← List.head?_eq_getElem?]
    cases here : rest.head? with
    | none =>
      rw [List.head?_eq_none_iff] at here
      simp [here] at short
    | some d => rw [stops d here]

/-- A match reaches every place of its part where the pattern matches. -/
theorem reaches {other : Match} {m : Nat} (before : m < n) (inside : n ≤ text.length)
    (matched : pattern.matchAt? (placeAt text n) = some found)
    (earlier : pattern.matchAt? (placeAt text m) = some other) (same : c ∉ slice text m n) :
    n < other.stop.offset := by
  obtain ⟨forward, end_, free, -⟩ := runs.passes inside matched
  obtain ⟨forward', -, -, stops⟩ := runs.passes (Nat.le_trans (Nat.le_of_lt before) inside) earlier
  by_contra short
  have stop : other.stop.offset < text.length := by omega
  have here := stops stop
  rcases Nat.lt_or_ge other.stop.offset n with less | more
  · exact same (mem_slice_iff.mpr ⟨_, Nat.le_of_lt forward', less, here⟩)
  · obtain rfl : n = other.stop.offset := by omega
    exact free (mem_slice_iff.mpr ⟨_, Nat.le_refl _, forward, here⟩)

theorem apart {other : Match} (one : other ∈ pattern.matchesIn text) (two : found ∈ pattern.matchesIn text)
    (before : other.start.offset < found.start.offset) : other.stop.offset ≤ found.start.offset := by
  have apart := List.pairwise_iff_getElem.mp (apart_matchesIn pattern text)
  have forward : ∀ here ∈ pattern.matchesIn text, here.start.offset < here.stop.offset := by
    intro here member
    obtain ⟨n, inside, matched⟩ := matchAt?_of_mem_matchesIn member
    rw [(fits_of_matchAt? matched).1]
    exact (runs.passes inside matched).1
  have first := forward _ two
  obtain ⟨i, within, rfl⟩ := List.getElem_of_mem one
  obtain ⟨j, within', rfl⟩ := List.getElem_of_mem two
  rcases Nat.lt_trichotomy i j with left | rfl | right
  · exact apart i j within within' left
  · exact absurd before (Nat.lt_irrefl _)
  · have := apart j i within' within right
    omega

/-- The matches found are those that come first in their part. -/
theorem mem_matchesIn_iff : found ∈ pattern.matchesIn text ↔
    ∃ n ≤ text.length, pattern.matchAt? (placeAt text n) = some found ∧
      ∀ m < n, (pattern.matchAt? (placeAt text m)).isSome → c ∈ slice text m n := by
  constructor
  · intro member
    obtain ⟨n, inside, matched⟩ := matchAt?_of_mem_matchesIn member
    have start : found.start.offset = n := (fits_of_matchAt? matched).1
    refine ⟨n, inside, matched, fun m before earlier => ?_⟩
    by_contra same
    obtain ⟨here, earlier⟩ := Option.isSome_iff_exists.mp earlier
    obtain ⟨other, among, covers⟩ := exists_mem_matchesIn (by omega) earlier
    have reaches : other.start.offset ≤ m ∧ n < other.stop.offset := by
      rcases covers with rfl | ⟨opens, closes⟩
      · exact ⟨Nat.le_of_eq (fits_of_matchAt? earlier).1, runs.reaches before inside matched earlier same⟩
      · obtain ⟨k, within, matchedThere⟩ := matchAt?_of_mem_matchesIn among
        have startThere : other.start.offset = k := (fits_of_matchAt? matchedThere).1
        refine ⟨Nat.le_of_lt opens, runs.reaches (by omega) inside matched matchedThere fun parted => ?_⟩
        obtain ⟨i, above, below, is⟩ := mem_slice_iff.mp parted
        rcases Nat.lt_or_ge i m with left | right
        · exact (runs.passes within matchedThere).2.2.1
            (mem_slice_iff.mpr ⟨i, above, by omega, is⟩)
        · exact same (mem_slice_iff.mpr ⟨i, right, below, is⟩)
    have apart := runs.apart among member (by omega)
    omega
  · rintro ⟨n, inside, matched, first⟩
    obtain ⟨other, among, rfl | ⟨opens, closes⟩⟩ := exists_mem_matchesIn inside matched
    · exact among
    · obtain ⟨k, within, matchedThere⟩ := matchAt?_of_mem_matchesIn among
      have start : other.start.offset = k := (fits_of_matchAt? matchedThere).1
      have parted := first k (by omega) (by rw [matchedThere]; rfl)
      obtain ⟨i, above, below, here⟩ := mem_slice_iff.mp parted
      exact absurd (mem_slice_iff.mpr ⟨i, above, by omega, here⟩) (runs.passes within matchedThere).2.2.1

end Pattern.RunsTo

end ContractInspector.Text
