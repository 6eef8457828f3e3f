import ContractInspector.Proofs.Issue.Blanking

/-! Uses outside of `disclose` calls. The calls of a balanced text are taken from left to right, each up to
its matching parenthesis; blanking them hides what they wrap (`exists_calls`), and neither creates nor
hides any other use of a name (`occursAt_hide_iff`). -/
namespace ContractInspector.Issue

open Source (Balanced Shut Span maskAll shut_of_balanced)
open Text (Cursor Match Pattern isBlank isWord placeAt)

variable {text front gap inner rest name : List Char} {spans : List Span} {n : Nat}

/-- A call of `disclose`, with the blanks in front of its parentheses and what stands between them. -/
def callOf (gap inner : List Char) : List Char :=
  "disclose".toList ++ (gap ++ '(' :: (inner ++ [')']))

/-- The span behind a text of some length. -/
def behindBy (length : Nat) (span : Span) : Span :=
  ⟨length + span.opening, length + span.closing⟩

/-- The calls of `disclose` in a text, taken from left to right, each from its first letter up to its
matching parenthesis. -/
inductive Calls : List Char → List Span → Prop where
  | none {text : List Char} : (∀ n, ¬OpensAt text n) → Calls text []
  | call {front gap inner rest : List Char} {spans : List Span} :
      (∀ n < front.length, ¬OpensAt (front ++ callOf gap inner ++ rest) n) →
      front.getLast?.any isWord = false → (∀ c ∈ gap, isBlank c = true) → Balanced '(' ')' inner →
      Calls rest spans →
      Calls (front ++ callOf gap inner ++ rest)
        (⟨front.length, (front ++ callOf gap inner).length - 1⟩ ::
          spans.map (behindBy (front ++ callOf gap inner).length))

/-- A name stands at an offset of a text as a whole identifier that is not a member of something. -/
structure OccursAt (name text : List Char) (n : Nat) : Prop where
  here : name <+: text.drop n
  whole : (text.take n).getLast?.any joins = false
  ends : (text.drop (n + name.length)).head?.any isWord = false

/-- A part of a text lies outside of some spans. -/
def Outside (spans : List Span) (n length : Nat) : Prop :=
  ∀ span ∈ spans, n + length ≤ span.opening ∨ span.closing < n

section Opening

theorem callOf_eq (gap inner : List Char) : ∃ call, callOf gap inner = call ++ [')'] := by
  unfold callOf
  exact ⟨"disclose".toList ++ (gap ++ '(' :: inner), by simp⟩

theorem getLast?_callOf (front gap inner : List Char) : (front ++ callOf gap inner).getLast? = some ')' := by
  obtain ⟨call, shape⟩ := callOf_eq gap inner
  rw [shape, ← List.append_assoc, List.getLast?_concat]

theorem length_callOf (gap inner : List Char) :
    (callOf gap inner).length = ("disclose".toList ++ gap).length + inner.length + 2 := by
  unfold callOf
  generalize "disclose".toList = word
  simp only [List.length_append, List.length_cons, List.length_nil]
  omega

theorem callOf_append (gap inner rest : List Char) :
    callOf gap inner ++ rest = "disclose".toList ++ (gap ++ '(' :: (inner ++ ')' :: rest)) := by
  unfold callOf
  simp

theorem OpensAt.longer (opens : OpensAt text n) : "disclose".toList.length < text.length := by
  obtain ⟨front, gap, rest, rfl, -⟩ := opens
  generalize "disclose".toList = word
  simp only [List.length_append, List.length_cons]
  omega

end Opening

section Hiding

/-- How a span stands in a text: it starts with no part of a word in front and ends with a parenthesis. -/
structure Wraps (text : List Char) (span : Span) : Prop where
  ordered : span.opening ≤ span.closing
  closes : text[span.closing]? = some ')'
  apart : (text.take span.opening).getLast?.any isWord = false

theorem Calls.wraps (calls : Calls text spans) : ∀ span ∈ spans, Wraps text span := by
  induction calls with
  | none => simp
  | @call front gap inner rest spans _ whole _ _ _ ih =>
    obtain ⟨call, shape⟩ := callOf_eq gap inner
    rw [shape]
    have closes : (front ++ (call ++ [')'])).getLast? = some ')' := by simp
    have longer : front.length < (front ++ (call ++ [')'])).length := by simp
    rw [List.forall_mem_cons, List.forall_mem_map]
    refine ⟨⟨Nat.le_sub_one_of_lt longer, ?_, ?_⟩, fun span member => ?_⟩
    · rw [List.getElem?_append_left (Nat.sub_one_lt_of_lt longer), ← List.getLast?_eq_getElem?, closes]
    · rw [List.append_assoc, List.take_left]
      exact whole
    · have wraps := ih span member
      refine ⟨Nat.add_le_add_left wraps.ordered _, ?_, ?_⟩
      · rw [behindBy, List.getElem?_append_right (Nat.le_add_right _ _), Nat.add_sub_cancel_left]
        exact wraps.closes
      · rw [behindBy, List.take_length_add_append, List.getLast?_append, closes]
        cases last : (rest.take span.opening).getLast? with
        | none => rfl
        | some c =>
          have apart := wraps.apart
          rwa [last] at apart

theorem getElem?_hide_of_shown (shown : hides spans n = false) : (hide spans text)[n]? = text[n]? := by
  rw [getElem?_hide, shown]
  simp

/-- A blanked text shows letters only where it shows the text. -/
theorem shown_of_word {c : Char} (here : (hide spans text)[n]? = some c) (word : isWord c = true) :
    hides spans n = false ∧ text[n]? = some c := by
  rw [getElem?_hide] at here
  obtain ⟨d, original, same⟩ := Option.map_eq_some_iff.mp here
  cases hidden : hides spans n with
  | false =>
    rw [hidden] at same
    exact ⟨rfl, original.trans (congrArg some same)⟩
  | true =>
    rw [hidden] at same
    obtain rfl : ' ' = c := same
    contradiction

/-- In front of what is shown stands what is shown, or the end of a span. -/
theorem closes_of_shown (wraps : ∀ span ∈ spans, Wraps text span) (shown : hides spans (n + 1) = false)
    (hidden : hides spans n = true) : text[n]? = some ')' := by
  obtain ⟨span, member, opens, closes⟩ := hides_iff.mp hidden
  have outside : ¬n + 1 ≤ span.closing := fun within =>
    Bool.eq_false_iff.mp shown (hides_iff.mpr ⟨span, member, Nat.le_succ_of_le opens, within⟩)
  obtain rfl : n = span.closing := by omega
  exact (wraps span member).closes

/-- Behind a part of a word that is shown, the text is shown. -/
theorem shown_behind (wraps : ∀ span ∈ spans, Wraps text span) (shown : hides spans n = false)
    {c : Char} (here : text[n]? = some c) (word : isWord c = true) : hides spans (n + 1) = false := by
  rw [Bool.eq_false_iff, ne_eq, hides_iff]
  rintro ⟨span, member, opens, closes⟩
  have outside : ¬span.opening ≤ n := fun before =>
    Bool.eq_false_iff.mp shown (hides_iff.mpr ⟨span, member, before, Nat.le_of_succ_le closes⟩)
  have apart := (wraps span member).apart
  obtain ⟨inside, -⟩ := List.getElem?_eq_some_iff.mp here
  rw [show span.opening = n + 1 by omega, Text.getLast?_take_succ inside, here] at apart
  exact nomatch word.symm.trans apart

theorem outside_iff (ordered : ∀ span ∈ spans, span.opening ≤ span.closing) {length : Nat}
    (positive : 0 < length) : Outside spans n length ↔ ∀ i < length, hides spans (n + i) = false := by
  constructor
  · intro outside i inside
    rw [Bool.eq_false_iff, ne_eq, hides_iff]
    rintro ⟨span, member, opens, closes⟩
    have := outside span member
    omega
  · intro shown span member
    by_contra crossing
    -- the first offset that they have in common
    have common := shown (max n span.opening - n) (by omega)
    rw [Bool.eq_false_iff, ne_eq, hides_iff] at common
    have := ordered span member
    exact common ⟨span, member, by omega, by omega⟩

theorem prefix_drop_iff : name <+: text.drop n ↔
    ∀ (i : Nat) (inside : i < name.length), text[n + i]? = some name[i] := by
  simp only [List.prefix_iff_getElem?, List.getElem?_drop]

theorem prefix_hide_iff (nonempty : name ≠ []) (word : ∀ c ∈ name, isWord c = true)
    (wraps : ∀ span ∈ spans, Wraps text span) : name <+: (hide spans text).drop n ↔
    name <+: text.drop n ∧ Outside spans n name.length := by
  rw [outside_iff (fun span member => (wraps span member).ordered) (List.length_pos_iff.mpr nonempty),
    prefix_drop_iff, prefix_drop_iff]
  constructor
  · intro here
    exact ⟨fun i inside => (shown_of_word (here i inside) (word _ (List.getElem_mem inside))).2,
      fun i inside => (shown_of_word (here i inside) (word _ (List.getElem_mem inside))).1⟩
  · rintro ⟨here, shown⟩ i inside
    rw [getElem?_hide_of_shown (shown i inside), here i inside]

theorem joins_before_hide (wraps : ∀ span ∈ spans, Wraps text span) (shown : hides spans n = false)
    (inside : n < text.length) : ((hide spans text).take n).getLast?.any joins = (text.take n).getLast?.any joins := by
  cases n with
  | zero => rfl
  | succ n =>
    have before : n < text.length := by omega
    rw [Text.getLast?_take_succ before, Text.getLast?_take_succ (by rwa [length_hide]), getElem?_hide]
    cases hidden : hides spans n with
    | false => simp
    | true =>
      rw [closes_of_shown wraps shown hidden]
      rfl

/-- A name is found in a blanked text exactly where it is found outside of what is blanked. -/
theorem occursAt_hide_iff (nonempty : name ≠ []) (word : ∀ c ∈ name, isWord c = true)
    (wraps : ∀ span ∈ spans, Wraps text span) :
    OccursAt name (hide spans text) n ↔ OccursAt name text n ∧ Outside spans n name.length := by
  have positive := List.length_pos_iff.mpr nonempty
  -- around a name that is shown, a blanked text reads as the text does
  have around (here : name <+: text.drop n) (outside : Outside spans n name.length) :
      ((hide spans text).take n).getLast?.any joins = (text.take n).getLast?.any joins ∧
        (((hide spans text).drop (n + name.length)).head?.any isWord =
          (text.drop (n + name.length)).head?.any isWord) := by
    have ordered : ∀ span ∈ spans, span.opening ≤ span.closing := fun span member =>
      (wraps span member).ordered
    have shown := (outside_iff ordered positive).mp outside
    have spelled := prefix_drop_iff.mp here
    obtain ⟨inside, -⟩ := List.getElem?_eq_some_iff.mp (spelled 0 positive)
    have last := shown_behind wraps (shown (name.length - 1) (by omega)) (spelled (name.length - 1) (by omega))
      (word _ (List.getElem_mem _))
    refine ⟨joins_before_hide wraps (shown 0 positive) inside, ?_⟩
    rw [Nat.add_assoc, Nat.sub_add_cancel positive] at last
    rw [List.head?_drop, List.head?_drop, getElem?_hide_of_shown last]
  constructor
  · intro occurs
    obtain ⟨here, outside⟩ := (prefix_hide_iff nonempty word wraps).mp occurs.here
    obtain ⟨before, behind⟩ := around here outside
    exact ⟨⟨here, before ▸ occurs.whole, behind ▸ occurs.ends⟩, outside⟩
  · rintro ⟨occurs, outside⟩
    obtain ⟨before, behind⟩ := around occurs.here outside
    exact ⟨(prefix_hide_iff nonempty word wraps).mpr ⟨occurs.here, outside⟩, before.trans occurs.whole,
      behind.trans occurs.ends⟩

end Hiding

section Finding

theorem mem_outcomes_identifier (nonempty : name ≠ []) (word : ∀ c ∈ name, isWord c = true)
    {behind : List Char} {outcome : Text.Outcome} :
    outcome ∈ (identifier name).outcomes (.between front behind) [] ↔
      ∃ rest, behind = name ++ rest ∧ front.getLast?.any joins = false ∧
        rest.head?.any isWord = false ∧ outcome = (.between (front ++ name) rest, []) := by
  have boundary (rest : List Char) : (Cursor.between (front ++ name) rest).atWordBoundary =
      !rest.head?.any isWord := by
    have last : (front ++ name).getLast?.any isWord = true := by
      rw [List.getLast?_append_of_ne_nil _ nonempty, List.getLast?_eq_some_getLast nonempty]
      exact word _ (List.getLast_mem nonempty)
    have before : (Cursor.between (front ++ name) rest).isAfter isWord = true := last
    have behind : (Cursor.between (front ++ name) rest).isBefore isWord = rest.head?.any isWord := rfl
    rw [Cursor.atWordBoundary, before, behind]
    cases rest.head?.any isWord <;> rfl
  constructor
  · intro way
    obtain ⟨_, way, ends⟩ := Pattern.mem_outcomes_append.mp way
    obtain ⟨_, fresh, named⟩ := Pattern.mem_outcomes_append.mp way
    obtain ⟨whole, rfl⟩ := Pattern.mem_outcomes_notAfter.mp fresh
    obtain ⟨rest, rfl, rfl⟩ := Pattern.mem_outcomes_text.mp named
    obtain ⟨bounded, rfl⟩ := Pattern.mem_outcomes_wordBoundary.mp ends
    rw [boundary] at bounded
    exact ⟨rest, rfl, whole, by simpa using bounded, rfl⟩
  · rintro ⟨rest, rfl, whole, ends, rfl⟩
    refine Pattern.mem_outcomes_append.mpr ⟨(.between (front ++ name) rest, []), ?_, ?_⟩
    · exact Pattern.mem_outcomes_append.mpr ⟨_, Pattern.mem_outcomes_notAfter.mpr ⟨whole, rfl⟩,
        Pattern.mem_outcomes_text.mpr ⟨rest, rfl, rfl⟩⟩
    · refine Pattern.mem_outcomes_wordBoundary.mpr ⟨?_, rfl⟩
      rw [boundary, ends]
      rfl

/-- A text uses a name if the name stands somewhere in it as a whole identifier. -/
theorem occursIn_identifier_iff (nonempty : name ≠ []) (word : ∀ c ∈ name, isWord c = true) :
    (identifier name).occursIn text = true ↔ ∃ n, OccursAt name text n := by
  rw [← not_iff_not, Bool.not_eq_true, Pattern.occursIn_eq_false_iff]
  constructor
  · rintro nowhere ⟨n, ⟨rest, here⟩, whole, ends⟩
    have split : text = text.take n ++ (name ++ rest) := by rw [here, List.take_append_drop]
    have behind : text.drop (n + name.length) = rest := by
      rw [← List.drop_drop, ← here, List.drop_left]
    have way := (mem_outcomes_identifier nonempty word).mpr
      ⟨rest, rfl, whole, behind ▸ ends, rfl⟩
    exact nomatch nowhere _ _ split ▸ way
  · rintro nowhere front behind rfl
    rw [List.eq_nil_iff_forall_not_mem]
    intro outcome way
    obtain ⟨rest, rfl, whole, ends, -⟩ := (mem_outcomes_identifier nonempty word).mp way
    refine nowhere ⟨front.length, ?_, ?_, ?_⟩
    · rw [List.drop_left]
      exact List.prefix_append name rest
    · rwa [List.take_left]
    · rwa [List.drop_length_add_append, List.drop_left]

end Finding

section Reading

/-- Behind a delimiter, a text is masked if it is masked as a whole. -/
theorem maskAll_behind {c : Char} (codeOnly : Source.CodeOnly c)
    (masked : maskAll (front ++ c :: rest) = front ++ c :: rest) : maskAll rest = rest := by
  have kept : (maskAll (front ++ c :: rest))[front.length]? = some c := by
    rw [masked, List.getElem?_append_right (Nat.le_refl _), Nat.sub_self]
    rfl
  have behind := (Source.seam_behind kept codeOnly).mask_drop true
  change maskAll _ = (maskAll _).drop _ at behind
  rwa [masked, List.drop_length_add_append, List.drop_one, List.tail_cons] at behind

theorem maskAll_behind_callOf (masked : maskAll (front ++ callOf gap inner ++ rest) = front ++ callOf gap inner ++ rest) :
    maskAll rest = rest := by
  obtain ⟨call, shape⟩ := callOf_eq gap inner
  rw [shape, ← List.append_assoc, List.append_assoc (front ++ call)] at masked
  exact maskAll_behind (c := ')') (by decide) masked

/-- A parenthesis of a text that leaves none open is closed behind a balanced piece. -/
theorem exists_closer (masked : maskAll rest = rest) (shut : Shut ('(' :: rest)) (offset : Nat) :
    ∃ inner after, rest = inner ++ ')' :: after ∧ Balanced '(' ')' inner ∧
      Source.closingFrom '(' ')' 0 offset rest = some (offset + inner.length) := by
  have different : '(' ≠ ')' := by decide
  have total := shut 0
  rw [List.drop_zero, List.count_cons_self, List.count_cons_of_ne (by decide)] at total
  obtain ⟨stop, stops⟩ := Source.exists_counterStop 0 offset rest (by omega)
  obtain ⟨k, rfl, here, above, back⟩ := Source.levels_of_counterStop different stops
  obtain ⟨inside, closer⟩ := List.getElem?_eq_some_iff.mp here
  have last := Source.level_closer different here
  have short : (rest.take k).length = k := List.length_take_of_le (Nat.le_of_lt inside)
  refine ⟨rest.take k, rest.drop (k + 1), ?_, ⟨fun n => ?_, ?_⟩, ?_⟩
  · rw [← closer, ← List.drop_eq_getElem_cons, List.take_append_drop]
  · have level := above (min n k) (Nat.min_le_right n k)
    rw [Source.level, ← List.take_take] at level
    omega
  · rw [Source.level, Source.level] at last
    rw [Source.level] at back
    omega
  · rw [Source.closingFrom_eq rfl, masked, short]
    exact stops

theorem OpensAt.behind (opens : OpensAt rest n) (whole : front.getLast?.any isWord = false) :
    OpensAt (front ++ rest) (front.length + n) := by
  obtain ⟨piece, gap, behind, rfl, rfl, apart, blank⟩ := opens
  refine ⟨front ++ piece, gap, behind, (List.append_assoc front piece _).symm, List.length_append, ?_, blank⟩
  rw [List.getLast?_append]
  cases last : piece.getLast? with
  | none => exact whole
  | some c =>
    rw [last] at apart
    exact apart

/-- The next call behind a front stands in what follows. -/
theorem NextCall.exists_split {m paren : Nat} (next : NextCall (front ++ rest) front.length m paren)
    (whole : front.getLast?.any isWord = false) :
    ∃ piece gap behind, rest = piece ++ ("disclose".toList ++ (gap ++ '(' :: behind)) ∧
      m = front.length + piece.length ∧ paren = front.length + (piece ++ ("disclose".toList ++ gap)).length ∧
      piece.getLast?.any isWord = false ∧ (∀ c ∈ gap, isBlank c = true) ∧ ∀ k < piece.length, ¬OpensAt rest k := by
  obtain ⟨gap, blank, stands, ends⟩ := next.opens
  obtain ⟨long, behind, split, rfl, apart⟩ := (Text.standsAt_iff (by simp)).mp stands
  obtain ⟨piece, rfl⟩ : front <+: long :=
    List.prefix_of_prefix_length_le (List.prefix_append front rest) (split ▸ List.prefix_append long _) next.behind
  rw [List.append_assoc front] at split
  obtain rfl := List.append_cancel_left split
  refine ⟨piece, gap, behind, by simp, List.length_append, ?_, ?_, blank, fun k below opens => ?_⟩
  · simp only [List.length_append, List.length_cons, List.length_nil] at ends ⊢
    omega
  · rw [List.getLast?_append] at apart
    cases last : piece.getLast? with
    | none => rfl
    | some c =>
      rw [last] at apart
      exact apart
  · refine next.first _ (Nat.le_add_right _ k) ?_ (opens.behind whole)
    rw [List.length_append]
    omega

theorem behindBy_zero (spans : List Span) : spans.map (behindBy 0) = spans := by
  refine (List.map_congr_left fun span _ => ?_).trans (List.map_id spans)
  simp only [behindBy, Nat.zero_add, id_eq]

theorem behindBy_add (n m : Nat) (spans : List Span) :
    (spans.map (behindBy m)).map (behindBy n) = spans.map (behindBy (n + m)) := by
  rw [List.map_map]
  refine List.map_congr_left fun span _ => ?_
  simp only [Function.comp_apply, behindBy, Nat.add_assoc]

/-- A parenthesis is closed if all are. -/
theorem exists_block (masked : maskAll (front ++ '(' :: rest) = front ++ '(' :: rest)
    (shut : Shut (front ++ '(' :: rest)) (passed : List Char) :
    ∃ inner after, rest = inner ++ ')' :: after ∧ Balanced '(' ')' inner ∧
      Source.blockAt? (passed ++ (front ++ '(' :: rest)) (passed ++ front).length =
        some ⟨(passed ++ front).length, (passed ++ front).length + 1 + inner.length, inner⟩ := by
  obtain ⟨inner, after, rfl, balanced, closes⟩ :=
    exists_closer (maskAll_behind (by decide) masked) shut.behind ((passed ++ front).length + 1)
  refine ⟨inner, after, rfl, balanced, ?_⟩
  rw [Source.blockAt?, ← List.append_assoc, List.drop_left, Source.blockFrom?]
  simp only [Source.closerOf?, closes, Option.map_some, Nat.add_sub_cancel_left, List.take_left]

/-- In a text that leaves no parenthesis open, the calls that are found are closed. -/
theorem CallsFrom.exists_calls (calls : CallsFrom text n spans) (split : text = front ++ rest)
    (length : front.length = n) (masked : maskAll rest = rest) (shut : Shut rest)
    (whole : front.getLast?.any isWord = false) :
    ∃ others, Calls rest others ∧ spans = others.map (behindBy front.length) := by
  induction calls generalizing front rest with
  | none nowhere =>
    subst split length
    exact ⟨[], .none fun k opens => nowhere _ (Nat.le_add_right _ k) (opens.behind whole), rfl⟩
  | unclosed next endless =>
    subst split length
    obtain ⟨piece, gap, behind, cut, rfl, rfl, -⟩ := next.exists_split whole
    rw [← List.append_assoc _ gap, ← List.append_assoc] at cut
    subst cut
    obtain ⟨inner, after, -, -, closes⟩ := exists_block masked shut front
    rw [List.length_append] at closes
    exact nomatch endless.symm.trans closes
  | call next found later ih =>
    subst split length
    obtain ⟨piece, gap, behind, cut, rfl, rfl, apart, blank, first⟩ := next.exists_split whole
    rw [← List.append_assoc _ gap, ← List.append_assoc] at cut
    subst cut
    obtain ⟨inner, after, rfl, balanced, closes⟩ := exists_block masked shut front
    rw [List.length_append] at closes
    obtain rfl := Option.some.inj (found.symm.trans closes)
    have call : piece ++ ("disclose".toList ++ gap) ++ '(' :: (inner ++ ')' :: after) =
        piece ++ callOf gap inner ++ after := by
      rw [List.append_assoc _ (callOf gap inner), callOf_append]
      simp only [List.append_assoc]
    have total : (front ++ (piece ++ callOf gap inner)).length =
        front.length + (piece ++ ("disclose".toList ++ gap)).length + 1 + inner.length + 1 := by
      rw [List.length_append, List.length_append, length_callOf, @List.length_append _ piece]
      omega
    have last : (front ++ (piece ++ callOf gap inner)).getLast? = some ')' := by
      rw [← List.append_assoc, getLast?_callOf]
    rw [call] at masked shut first ⊢
    obtain ⟨others, calls, same⟩ := @ih (front ++ (piece ++ callOf gap inner)) after
      (by rw [call, List.append_assoc front]) total (maskAll_behind_callOf masked) shut.behind (by rw [last]; rfl)
    refine ⟨_, .call first apart blank balanced calls, ?_⟩
    have ends : front.length + (piece ++ ("disclose".toList ++ gap)).length + 1 + inner.length =
        front.length + ((piece ++ callOf gap inner).length - 1) := by
      rw [List.length_append] at total
      omega
    rw [List.map_cons, behindBy_add, same, @List.length_append _ front, behindBy, ← ends]

/-- In a balanced text every call of `disclose` is closed, and all of them are blanked. -/
theorem exists_calls (masked : maskAll text = text) (balanced : Balanced '(' ')' text) :
    ∃ spans, Calls text spans ∧ withoutDisclosed text = hide spans text := by
  obtain ⟨spans, found⟩ := exists_callsFrom (Nat.zero_le text.length)
  obtain ⟨others, calls, rfl⟩ := found.exists_calls (List.nil_append text).symm rfl masked (shut_of_balanced balanced) rfl
  rw [List.length_nil, behindBy_zero] at found
  exact ⟨others, calls, found.withoutDisclosed_eq⟩

/-- Blanking the calls of a balanced text hides the uses that they wrap, and neither hides nor makes any
other one. -/
theorem exists_uses (masked : maskAll text = text) (balanced : Balanced '(' ')' text) :
    ∃ spans, Calls text spans ∧ ∀ name, name ≠ [] → (∀ c ∈ name, isWord c = true) →
      ((identifier name).occursIn (withoutDisclosed text) = true ↔
        ∃ n, OccursAt name text n ∧ Outside spans n name.length) := by
  obtain ⟨spans, calls, hidden⟩ := exists_calls masked balanced
  refine ⟨spans, calls, fun name nonempty word => ?_⟩
  simp only [hidden, occursIn_identifier_iff nonempty word, occursAt_hide_iff nonempty word calls.wraps]

end Reading

section Unique

variable {gap' inner' rest' : List Char} {spans' : List Span}

theorem opensAt_callOf (whole : front.getLast?.any isWord = false) (blank : ∀ c ∈ gap, isBlank c = true) :
    OpensAt (front ++ callOf gap inner ++ rest) front.length :=
  ⟨front, gap, inner ++ ')' :: rest, by rw [List.append_assoc, callOf_append], rfl, whole, blank⟩

theorem not_balanced_beyond (balanced : Balanced '(' ')' inner) :
    ¬Balanced '(' ')' (inner ++ ')' :: rest) := by
  intro longer
  have front := longer.1 (inner.length + 1)
  have one : (')' :: rest).take 1 = [')'] := rfl
  have closer : [')'].count ')' = 1 := rfl
  have opener : [')'].count '(' = 0 := rfl
  rw [List.take_length_add_append, List.count_append, List.count_append, one, closer, opener, balanced.2] at front
  omega

theorem balanced_unique (first : Balanced '(' ')' inner) (second : Balanced '(' ')' inner')
    (same : inner ++ ')' :: rest = inner' ++ ')' :: rest') : inner = inner' ∧ rest = rest' := by
  rcases List.append_eq_append_iff.mp same with ⟨more, rfl, behind⟩ | ⟨more, rfl, behind⟩
  · cases more with
    | nil => simpa using behind
    | cons c more =>
      obtain ⟨rfl, -⟩ := List.cons.inj behind
      exact absurd second (not_balanced_beyond first)
  · cases more with
    | nil => simpa using behind.symm
    | cons c more =>
      obtain ⟨rfl, -⟩ := List.cons.inj behind
      exact absurd first (not_balanced_beyond second)

theorem callOf_unique (blank : ∀ c ∈ gap, isBlank c = true) (blank' : ∀ c ∈ gap', isBlank c = true)
    (first : Balanced '(' ')' inner) (second : Balanced '(' ')' inner')
    (same : callOf gap inner ++ rest = callOf gap' inner' ++ rest') :
    gap = gap' ∧ inner = inner' ∧ rest = rest' := by
  rw [callOf_append, callOf_append] at same
  obtain ⟨gaps, behind⟩ := Text.gap_unique blank blank' (List.append_cancel_left same)
  exact ⟨gaps, balanced_unique first second behind⟩

/-- There is one way to take the calls of a text from left to right. -/
theorem Calls.unique (first : Calls text spans) (second : Calls text spans') : spans = spans' := by
  induction first generalizing spans' with
  | @none text nowhere =>
    cases second with
    | none => rfl
    | call _ whole blank => exact absurd (opensAt_callOf whole blank) (nowhere _)
  | @call front gap inner rest spans passed whole blank balanced _ ih =>
    generalize same : front ++ callOf gap inner ++ rest = text at second
    cases second with
    | none nowhere => exact absurd (same ▸ opensAt_callOf whole blank) (nowhere _)
    | @call front' gap' inner' rest' spans' passed' whole' blank' balanced' later =>
      have opens : ¬front.length < front'.length := fun before =>
        passed' _ before (same ▸ opensAt_callOf whole blank)
      have opens' : ¬front'.length < front.length := fun before =>
        passed _ before (same ▸ opensAt_callOf whole' blank')
      rw [List.append_assoc, List.append_assoc] at same
      obtain ⟨rfl, calls⟩ := List.append_inj same (by omega)
      obtain ⟨rfl, rfl, rfl⟩ := callOf_unique blank blank' balanced balanced' calls
      rw [ih later]

end Unique

end ContractInspector.Issue
