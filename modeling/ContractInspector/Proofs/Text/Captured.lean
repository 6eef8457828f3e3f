import ContractInspector.Proofs.Text.Taking

/-! What a pattern captures is taken by one of the patterns inside its captures. -/
namespace ContractInspector.Text

variable {pattern : Pattern} {text : List Char} {n : Nat} {captures : List Capture}
  {outcome : Outcome} {part : Capture}

/-- The patterns whose parts a pattern captures, each behind its number. -/
def Pattern.captured : Pattern → List (Nat × Pattern)
  | .andThen first second | .orElse first second => first.captured ++ second.captured
  | .optional body => body.captured
  | .capture slot body => (slot, body) :: body.captured
  | _ => []

/-- A part that one of some patterns takes. -/
def Capture.TakenBy (patterns : List (Nat × Pattern)) (text : List Char) (part : Capture) : Prop :=
  ∃ body, (part.slot, body) ∈ patterns ∧ ∃ n captures outcome,
    outcome ∈ body.outcomes (placeAt text n) captures ∧ part.rest = text.drop n ∧ part.start = n ∧
      part.stop = outcome.1.offset

theorem Capture.TakenBy.mono {patterns others : List (Nat × Pattern)}
    (taken : part.TakenBy patterns text) (among : patterns ⊆ others) : part.TakenBy others text := by
  obtain ⟨body, member, way⟩ := taken
  exact ⟨body, among member, way⟩

theorem Pattern.takenBy_of_mem (member : outcome ∈ pattern.outcomes (placeAt text n) captures)
    (among : part ∈ outcome.2) : part ∈ captures ∨ part.TakenBy pattern.captured text := by
  induction pattern generalizing n captures outcome with
  | andThen first second first_ih second_ih =>
    obtain ⟨middle, one, two⟩ := List.mem_flatMap.mp member
    rw [(reached_of_mem one).place] at two
    rcases second_ih two among with earlier | taken
    · rcases first_ih one earlier with before | taken
      · exact .inl before
      · exact .inr (taken.mono (List.subset_append_left _ _))
    · exact .inr (taken.mono (List.subset_append_right _ _))
  | orElse first second first_ih second_ih =>
    rcases List.mem_append.mp member with one | two
    · exact (first_ih one among).imp_right (·.mono (List.subset_append_left _ _))
    · exact (second_ih two among).imp_right (·.mono (List.subset_append_right _ _))
  | optional body ih =>
    rcases List.mem_append.mp member with inside | passed
    · exact ih inside among
    · obtain rfl := List.mem_singleton.mp passed
      exact .inl among
  | capture slot body ih =>
    obtain ⟨inner, way, rfl⟩ := List.mem_map.mp member
    rcases List.mem_cons.mp among with rfl | earlier
    · exact .inr ⟨body, List.mem_cons_self, n, captures, inner, way, rfl, rfl, rfl⟩
    · exact (ih way earlier).imp_right (·.mono (List.subset_cons_self _ _))
  | empty =>
    obtain rfl := List.mem_singleton.mp member
    exact .inl among
  | char holds =>
    rw [outcomes] at member
    split at member
    · contradiction
    · split at member
      · obtain rfl := List.mem_singleton.mp member
        exact .inl among
      · contradiction
  | text _ | many _ | fewest _ =>
    obtain ⟨reached, -, rfl⟩ := List.mem_map.mp member
    exact .inl among
  | wordBoundary =>
    rw [outcomes] at member
    split at member
    · obtain rfl := List.mem_singleton.mp member
      exact .inl among
    · contradiction
  | notAfter _ | notBefore _ =>
    rw [outcomes] at member
    split at member
    · contradiction
    · obtain rfl := List.mem_singleton.mp member
      exact .inl among

/-- A part that the characters of a class make up. -/
theorem Capture.TakenBy.text_of_oneOrMore {patterns : List (Nat × Pattern)} {holds : Char → Bool}
    (taken : part.TakenBy patterns text)
    (bodies : ∀ body, (part.slot, body) ∈ patterns → body = .oneOrMore holds) :
    part.text ≠ [] ∧ (∀ c ∈ part.text, holds c = true) ∧ part.text <:+: text := by
  obtain ⟨body, member, n, captures, outcome, way, rest, start, stop⟩ := taken
  obtain rfl := bodies body member
  have inside : n ≤ text.length := by
    by_contra outside
    have none : text.drop n = [] := List.drop_eq_nil_of_le (by omega)
    obtain ⟨middle, one, -⟩ := Pattern.mem_outcomes_append.mp way
    simp [Pattern.outcomes, none] at one
  obtain ⟨front, behind, rfl, rfl, place⟩ := exists_between inside
  rw [place] at way
  obtain ⟨taken, others, rfl, nonempty, held, rfl⟩ := Pattern.mem_outcomes_oneOrMore.mp way
  have same : part.text = taken := by
    rw [Capture.text, rest, start, stop, List.drop_left, Cursor.offset_between, List.length_append,
      Nat.add_sub_cancel_left, List.take_left]
  rw [same]
  exact ⟨nonempty, held, front, others, by rw [List.append_assoc]⟩

/-- A part that a pattern always captures. -/
theorem Pattern.exists_capture {front body back : Pattern} {slot : Nat}
    (member : outcome ∈ (front ++ .capture slot body ++ back).outcomes (placeAt text n) captures) :
    ∃ part ∈ outcome.2, part.slot = slot := by
  obtain ⟨last, way, ending⟩ := mem_outcomes_append.mp member
  obtain ⟨middle, first, inner⟩ := mem_outcomes_append.mp way
  have place := (reached_of_mem way).place
  obtain ⟨result, -, rfl⟩ := List.mem_map.mp inner
  rw [place] at ending
  obtain ⟨new, same, -⟩ := (reached_of_mem ending).captured
  rw [same]
  exact ⟨_, List.mem_append_right _ List.mem_cons_self, rfl⟩

/-- What a pattern always captures is made up of the characters of a class, if only such are captured. -/
theorem Pattern.text_of_mem_matchesIn {form before behind : Pattern} {holds : Char → Bool} {slot : Nat}
    {found : Match} (split : form = before ++ .capture slot (.oneOrMore holds) ++ behind)
    (bodies : ∀ body, (slot, body) ∈ form.captured → body = .oneOrMore holds)
    (member : found ∈ form.matchesIn text) :
    found.text slot ≠ [] ∧ ∀ c ∈ found.text slot, holds c = true := by
  have way := (fits_of_mem_matchesIn member).mem_outcomes
  have exists_part := way
  rw [split] at exists_part
  obtain ⟨part, among, here⟩ := exists_capture exists_part
  cases first : found.capture? slot with
  | none =>
    have absent := List.find?_eq_none.mp first part among
    simp [here] at absent
  | some last =>
    have same : last.slot = slot := by simpa using List.find?_some first
    have text_eq : found.text slot = last.text := by
      rw [Match.text, Match.text?, first]
      rfl
    rcases takenBy_of_mem way (List.mem_of_find?_eq_some first) with none | taken
    · contradiction
    · obtain ⟨nonempty, held, -⟩ := taken.text_of_oneOrMore (same ▸ bodies)
      rw [text_eq]
      exact ⟨nonempty, held⟩

end ContractInspector.Text
