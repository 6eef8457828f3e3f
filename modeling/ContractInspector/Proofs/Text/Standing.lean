import ContractInspector.Proofs.Text.Blanks
import ContractInspector.Proofs.Text.Parting

/-! Where a piece of code stands in a text. The opening of what a word names, up to its parenthesis, is found
wherever it stands, since two of them never overlap (`mem_matchesIn_opening`). -/
namespace ContractInspector.Text

variable {holds : Char → Bool} {part front rest text word gap : List Char} {n : Nat} {found : Match}
  {outcome : Outcome}

/-- A part stands at an offset of a text, and what is in front of it does not belong to it. -/
structure StandsAt (holds : Char → Bool) (part text : List Char) (n : Nat) : Prop where
  here : part <+: text.drop n
  whole : (text.take n).getLast?.any holds = false

section Standing

theorem standsAt_iff (nonempty : part ≠ []) : StandsAt holds part text n ↔ ∃ front rest,
    text = front ++ (part ++ rest) ∧ front.length = n ∧ front.getLast?.any holds = false := by
  constructor
  · rintro ⟨⟨rest, split⟩, whole⟩
    refine ⟨text.take n, rest, by rw [split, List.take_append_drop], ?_, whole⟩
    have some := List.length_pos_iff.mpr nonempty
    have longer := congrArg List.length split
    rw [List.length_append, List.length_drop] at longer
    rw [List.length_take]
    omega
  · rintro ⟨front, rest, rfl, rfl, whole⟩
    refine ⟨?_, ?_⟩
    · rw [List.drop_left]
      exact List.prefix_append part rest
    · rwa [List.take_left]

theorem getElem?_of_standing {i : Nat} (here : part <+: text.drop n) (inside : i < part.length) :
    text[n + i]? = some part[i] := by
  obtain ⟨rest, split⟩ := here
  rw [← List.getElem?_drop, ← split, List.getElem?_append_left inside, List.getElem?_eq_getElem inside]

theorem getLast?_take_succ (inside : n < text.length) : (text.take (n + 1)).getLast? = text[n]? := by
  rw [List.take_add_one, List.getElem?_eq_getElem inside, Option.toList_some, List.getLast?_concat]

end Standing

section Opening

theorem atWordBoundary_between (starts : text.head?.any isWord = true) :
    (Cursor.between front text).atWordBoundary = !front.getLast?.any isWord := by
  have before : (Cursor.between front text).isAfter isWord = front.getLast?.any isWord := rfl
  have behind : (Cursor.between front text).isBefore isWord = true := starts
  rw [Cursor.atWordBoundary, before, behind]
  cases front.getLast?.any isWord <;> rfl

/-- A word as a whole and the parenthesis behind it. -/
def Pattern.opening (word : List Char) : Pattern :=
  .wordBoundary ++ .text word ++ .space ++ .text ['(']

theorem Pattern.mem_outcomes_opening (starts : word.head?.any isWord = true) :
    outcome ∈ (opening word).outcomes (.between front text) [] ↔
      ∃ gap rest, text = word ++ (gap ++ '(' :: rest) ∧ front.getLast?.any isWord = false ∧
        (∀ c ∈ gap, isBlank c = true) ∧
        outcome = (.between (front ++ (word ++ (gap ++ ['(']))) rest, []) := by
  have first : ∀ rest : List Char, (word ++ rest).head?.any isWord = true := head_append starts
  constructor
  · intro way
    obtain ⟨_, way, paren⟩ := Pattern.mem_outcomes_append.mp way
    obtain ⟨_, way, spaced⟩ := Pattern.mem_outcomes_append.mp way
    obtain ⟨_, edge, named⟩ := Pattern.mem_outcomes_append.mp way
    obtain ⟨bounded, rfl⟩ := Pattern.mem_outcomes_wordBoundary.mp edge
    obtain ⟨_, rfl, rfl⟩ := Pattern.mem_outcomes_text.mp named
    obtain ⟨gap, _, rfl, blank, rfl⟩ := Pattern.mem_outcomes_many.mp spaced
    obtain ⟨rest, rfl, rfl⟩ := Pattern.mem_outcomes_text.mp paren
    rw [atWordBoundary_between (first _)] at bounded
    exact ⟨gap, rest, by simp, by simpa using bounded, blank, by simp⟩
  · rintro ⟨gap, rest, rfl, whole, blank, rfl⟩
    refine Pattern.mem_outcomes_append.mpr ⟨(.between (front ++ word ++ gap) ('(' :: rest), []), ?_, ?_⟩
    · refine Pattern.mem_outcomes_append.mpr ⟨(.between (front ++ word) (gap ++ '(' :: rest), []), ?_, ?_⟩
      · refine Pattern.mem_outcomes_append.mpr ⟨_, Pattern.mem_outcomes_wordBoundary.mpr ⟨?_, rfl⟩, ?_⟩
        · rw [atWordBoundary_between (first _), whole]
          rfl
        · exact Pattern.mem_outcomes_text.mpr ⟨_, rfl, rfl⟩
      · exact Pattern.mem_outcomes_many.mpr ⟨gap, _, rfl, blank, rfl⟩
    · exact Pattern.mem_outcomes_text.mpr ⟨rest, rfl, by simp⟩

/-- Where an opening is found, it stands. -/
theorem standsAt_of_opening (starts : word.head?.any isWord = true) (inside : n ≤ text.length)
    (matched : (Pattern.opening word).matchAt? (placeAt text n) = some found) :
    ∃ gap, (∀ c ∈ gap, isBlank c = true) ∧ StandsAt isWord (word ++ (gap ++ ['('])) text n ∧
      found.stop.offset = n + (word ++ (gap ++ ['('])).length := by
  obtain ⟨front, behind, outcome, rfl, rfl, way, rfl⟩ := Pattern.exists_way inside matched
  obtain ⟨gap, rest, rfl, whole, blank, rfl⟩ :=
    (Pattern.mem_outcomes_opening starts).mp (List.mem_of_mem_head? way)
  refine ⟨gap, blank, (standsAt_iff (by simp)).mpr ⟨front, rest, by simp, rfl, whole⟩, ?_⟩
  simp only [Cursor.offset_between, List.length_append]

theorem gap_unique {gap' rest' : List Char} (blank : ∀ c ∈ gap, isBlank c = true)
    (blank' : ∀ c ∈ gap', isBlank c = true) (same : gap ++ '(' :: rest = gap' ++ '(' :: rest') :
    gap = gap' ∧ rest = rest' := by
  have opens : isBlank '(' = false := rfl
  obtain ⟨gaps, behind⟩ := (spans_cons blank opens).unique (spans_cons blank' opens) same
  exact ⟨gaps, (List.cons.inj behind).2⟩

/-- Where an opening stands, it is found. -/
theorem exists_opening (starts : word.head?.any isWord = true) (blank : ∀ c ∈ gap, isBlank c = true)
    (stands : StandsAt isWord (word ++ (gap ++ ['('])) text n) :
    ∃ found, (Pattern.opening word).matchAt? (placeAt text n) = some found ∧
      found.stop.offset = n + (word ++ (gap ++ ['('])).length := by
  obtain ⟨front, rest, rfl, rfl, whole⟩ := (standsAt_iff (by simp)).mp stands
  rw [placeAt_length]
  have way : (Cursor.between (front ++ (word ++ (gap ++ ['(']))) rest, []) ∈
      (Pattern.opening word).outcomes (.between front (word ++ (gap ++ ['(']) ++ rest)) [] :=
    (Pattern.mem_outcomes_opening starts).mpr ⟨gap, rest, by simp, whole, blank, rfl⟩
  obtain ⟨found, matched⟩ := Pattern.exists_matchAt?_of_mem way
  refine ⟨found, matched, ?_⟩
  obtain ⟨outcome, way, rfl⟩ := Pattern.matchAt?_eq_some_iff.mp matched
  obtain ⟨gap', rest', same, -, blank', rfl⟩ :=
    (Pattern.mem_outcomes_opening starts).mp (List.mem_of_mem_head? way)
  rw [List.append_assoc, List.append_assoc, List.singleton_append] at same
  obtain ⟨rfl, -⟩ := gap_unique blank blank' (List.append_cancel_left same)
  simp only [Cursor.offset_between, List.length_append]

/-- Every opening that stands in a text is among the matches found. -/
theorem mem_matchesIn_opening (starts : word.head?.any isWord = true) (letters : ∀ c ∈ word, isWord c = true)
    (inside : n ≤ text.length) (matched : (Pattern.opening word).matchAt? (placeAt text n) = some found) :
    found ∈ (Pattern.opening word).matchesIn text := by
  obtain ⟨other, among, rfl | ⟨opens, closes⟩⟩ := Pattern.exists_mem_matchesIn inside matched
  · exact among
  obtain ⟨m, within, matchedThere⟩ := Pattern.matchAt?_of_mem_matchesIn among
  rw [(Pattern.fits_of_matchAt? matchedThere).1] at opens
  obtain ⟨gap, -, stands, -⟩ := standsAt_of_opening starts inside matched
  obtain ⟨gap', blank, stands', stop⟩ := standsAt_of_opening starts within matchedThere
  obtain ⟨k, rfl⟩ := Nat.exists_eq_add_of_lt opens
  rw [stop] at closes
  have longer : k + 1 < (word ++ (gap' ++ ['('])).length := by omega
  have here := getElem?_of_standing stands'.here longer
  rw [← Nat.add_assoc] at here
  have letter : text[m + k + 1]?.any isWord = true := by
    cases word with
    | nil => contradiction
    | cons c word =>
      have first := @getElem?_of_standing _ _ _ 0 stands.here (by simp)
      rw [Nat.add_zero] at first
      rw [first]
      exact starts
  rw [here, Option.any_some] at letter
  -- the other one starts inside of the word or behind it
  rcases Nat.lt_or_ge (k + 1) word.length with inWord | behind
  · have before := getElem?_of_standing stands'.here (show k < _ by omega)
    have whole := stands.whole
    have bound : m + k < text.length := (List.getElem?_eq_some_iff.mp before).1
    rw [getLast?_take_succ bound, before, Option.any_some, List.getElem_append_left (by omega),
      letters _ (List.getElem_mem _)] at whole
    contradiction
  · have bound : k + 1 - word.length < (gap' ++ ['(']).length := by
      rw [List.length_append] at longer
      omega
    rw [List.getElem_append_right behind] at letter
    have member : (gap' ++ ['('])[k + 1 - word.length] ∈ gap' ++ ['('] := List.getElem_mem _
    rcases List.mem_append.mp member with inGap | paren
    · rw [isWord_of_isBlank (blank _ inGap)] at letter
      contradiction
    · rw [List.mem_singleton.mp paren] at letter
      contradiction

end Opening

end ContractInspector.Text
