import ContractInspector.Proofs.Text.Blanks

/-! The words of a text, and patterns that look for a keyword. Such a pattern has no match in a part of
a text that ends with a mark and does not have the keyword among its words (`passes_of_seeks`). -/
namespace ContractInspector.Text

variable {front text part rest : List Char} {c : Char}

/-- What stands between the characters that belong to no word. -/
def words (text : List Char) : List (List Char) :=
  text.splitOnP (!isWord ·)

theorem words_append_cons (other : isWord c = false) (front rest : List Char) :
    words (front ++ c :: rest) = words front ++ words rest :=
  List.splitOnP_append_cons _ _ (by simpa using other)

theorem words_of_isWord (word : ∀ c ∈ part, isWord c = true) : words part = [part] :=
  List.splitOnP_eq_singleton fun c member => by simpa using word c member

theorem mem_words (word : ∀ c ∈ part, isWord c = true) (starts : front.getLast?.any isWord = false)
    (ends : isWord c = false) (rest : List Char) : part ∈ words (front ++ (part ++ c :: rest)) := by
  have here : part ∈ words (part ++ c :: rest) := by
    rw [words_append_cons ends, words_of_isWord word]
    exact List.mem_cons_self
  rcases List.eq_nil_or_concat front with rfl | ⟨init, d, rfl⟩
  · exact here
  · rw [List.concat_eq_append, List.getLast?_concat] at starts
    rw [List.concat_eq_append, List.append_assoc, List.singleton_append, words_append_cons starts]
    exact List.mem_append_right _ here

theorem subset_of_mem_words {word : List Char} (member : word ∈ words text) : word ⊆ text := by
  induction text generalizing word with
  | nil =>
    obtain rfl := List.mem_singleton.mp member
    exact List.nil_subset _
  | cons c text ih =>
    rw [words, List.splitOnP_cons_eq_if_modifyHead] at member
    split at member
    · rcases List.mem_cons.mp member with rfl | behind
      · exact List.nil_subset _
      · exact List.subset_cons_of_subset c (ih behind)
    · obtain ⟨first, others, (split : words text = first :: others)⟩ :=
        List.exists_cons_of_ne_nil (List.splitOnP_ne_nil (!isWord ·) text)
      change word ∈ (words text).modifyHead (List.cons c) at member
      rw [split, List.modifyHead_cons] at member
      rcases List.mem_cons.mp member with rfl | behind
      · exact List.cons_subset_cons c (ih (split ▸ List.mem_cons_self))
      · exact List.subset_cons_of_subset c (ih (split ▸ List.mem_cons_of_mem _ behind))

/-- One of some keywords stands in a text, behind words and blanks only and in front of a character of
a class. -/
def Heads (keywords : List String) (ends : Char → Bool) (front text : List Char) : Prop :=
  ∃ keyword ∈ keywords, ∃ lead c rest, text = lead ++ (keyword.toList ++ c :: rest) ∧
    (∀ d ∈ lead, isWord d = true ∨ isBlank d = true) ∧
    (front ++ lead).getLast?.any isWord = false ∧ ends c = true

namespace Pattern

/-- A pattern matches only where one of some keywords comes first. -/
def Seeks (pattern : Pattern) (keywords : List String) (ends : Char → Bool) : Prop :=
  ∀ front text outcome, outcome ∈ pattern.outcomes (.between front text) [] →
    Heads keywords ends front text

/-- A part ends with a character that is neither blank nor a letter of a word. -/
def Marked (part : List Char) : Prop :=
  ∃ mark, part.getLast? = some mark ∧ isWord mark = false ∧ isBlank mark = false

theorem marked_append (front : List Char) (marked : Marked part) : Marked (front ++ part) := by
  obtain ⟨mark, last, others⟩ := marked
  exact ⟨mark, by rw [List.getLast?_append, last, Option.some_or], others⟩

section Passing

variable {pattern : Pattern} {keywords : List String} {ends : Char → Bool}

/-- A keyword that is sought behind a place of a marked part stands in the part. -/
theorem exists_keyword {after tail : List Char} (marked : Marked after)
    (letters : ∀ keyword ∈ keywords, ∀ d ∈ keyword.toList, isWord d = true)
    (heads : Heads keywords ends front (after ++ tail)) :
    ∃ keyword ∈ keywords, ∃ lead c rest, after = lead ++ (keyword.toList ++ c :: rest) ∧
      (front ++ lead).getLast?.any isWord = false ∧ ends c = true := by
  obtain ⟨keyword, member, lead, c, rest, split, plain, starts, isEnd⟩ := heads
  obtain ⟨mark, last, noWord, visible⟩ := marked
  obtain ⟨init, rfl⟩ := List.getLast?_eq_some_iff.mp last
  have absent : mark ∉ lead ++ keyword.toList := by
    intro within
    have : isWord mark = true ∨ isBlank mark = true := by
      rcases List.mem_append.mp within with inLead | inWord
      · exact plain mark inLead
      · exact .inl (letters keyword member mark inWord)
    simp [noWord, visible] at this
  have grouped : init ++ mark :: tail = (lead ++ keyword.toList) ++ c :: rest := by
    simpa using split
  obtain ⟨left, rfl, behind⟩ := ends_before grouped absent
  obtain ⟨d, others, same, -⟩ : ∃ d others, left ++ [mark] = d :: others ∧ d :: others ++ tail = c :: rest := by
    cases left with
    | nil => exact ⟨mark, [], rfl, behind.symm⟩
    | cons d left => exact ⟨d, left ++ [mark], rfl, by simpa using behind.symm⟩
  obtain ⟨rfl, -⟩ : d = c ∧ others ++ tail = rest := by
    have both : (left ++ [mark]) ++ tail = c :: rest := by simpa using behind.symm
    rw [same] at both
    exact List.cons.inj both
  exact ⟨keyword, member, lead, d, others, by simp [same], starts, isEnd⟩

theorem passes_of_seeks (seeks : pattern.Seeks keywords ends) (marked : Marked part)
    (letters : ∀ keyword ∈ keywords, ∀ d ∈ keyword.toList, isWord d = true)
    (absent : ∀ keyword ∈ keywords, ∀ before c after, part = before ++ (keyword.toList ++ c :: after) →
      before.getLast?.any isWord = false → ends c = true → False)
    (front tail : List Char) :
    pattern.Passes (front ++ (part ++ tail)) front.length (front ++ part).length := by
  apply passes_part
  rintro before after rfl nonempty
  have ended : Marked after := by
    obtain ⟨mark, last, others⟩ := marked
    rw [List.getLast?_append_of_ne_nil _ nonempty] at last
    exact ⟨mark, last, others⟩
  rw [matchAt?_eq_head?, Option.map_eq_none_iff, List.head?_eq_none_iff, List.eq_nil_iff_forall_not_mem]
  intro outcome way
  obtain ⟨keyword, member, lead, c, rest, rfl, starts, isEnd⟩ :=
    exists_keyword ended letters (seeks _ _ outcome way)
  refine absent keyword member (before ++ lead) c rest (by simp) ?_ isEnd
  by_cases none : before ++ lead = []
  · rw [none]
    rfl
  · rwa [List.append_assoc, List.getLast?_append_of_ne_nil _ none] at starts

/-- No match of a pattern starts in a marked part without the keywords among its words. -/
theorem passes_of_words (seeks : pattern.Seeks keywords ends) (marked : Marked part)
    (letters : ∀ keyword ∈ keywords, ∀ d ∈ keyword.toList, isWord d = true)
    (others : ∀ c, ends c = true → isWord c = false)
    (absent : ∀ keyword ∈ keywords, keyword.toList ∉ words part) (front tail : List Char) :
    pattern.Passes (front ++ (part ++ tail)) front.length (front ++ part).length := by
  refine passes_of_seeks seeks marked letters ?_ front tail
  rintro keyword member before c after rfl starts isEnd
  exact absent keyword member (mem_words (letters keyword member) starts (others c isEnd) after)

end Passing

section Seeking

/-- A pattern takes words and blanks, and ends behind a blank if it takes something. -/
def Leads (pattern : Pattern) : Prop :=
  ∀ front text captures outcome, outcome ∈ pattern.outcomes (.between front text) captures →
    ∃ lead rest, text = lead ++ rest ∧ outcome.1 = .between (front ++ lead) rest ∧
      (∀ d ∈ lead, isWord d = true ∨ isBlank d = true) ∧
      (lead = [] ∨ lead.getLast?.any isBlank = true)

/-- A pattern starts with a character of a class. -/
def StartsWith (pattern : Pattern) (ends : Char → Bool) : Prop :=
  ∀ front text captures outcome, outcome ∈ pattern.outcomes (.between front text) captures →
    ∃ c rest, text = c :: rest ∧ ends c = true

variable {opening next first second : Pattern} {ends : Char → Bool} {keywords : List String}

theorem leads_empty : empty.Leads := by
  intro front text captures outcome way
  obtain rfl := List.mem_singleton.mp way
  exact ⟨[], text, rfl, by simp, by simp, .inl rfl⟩

theorem leads_append (one : first.Leads) (two : second.Leads) : (first ++ second).Leads := by
  intro front text captures outcome way
  obtain ⟨⟨_, captured⟩, way, later⟩ := mem_outcomes_append.mp way
  obtain ⟨lead, rest, rfl, rfl, plain, ending⟩ := one _ _ _ _ way
  obtain ⟨more, rest, rfl, reached, others, last⟩ := two _ _ _ _ later
  refine ⟨lead ++ more, rest, by simp, by simpa using reached, ?_, ?_⟩
  · exact List.forall_mem_append.mpr ⟨plain, others⟩
  · rcases last with rfl | blank
    · simpa using ending
    · refine .inr ?_
      have nonempty : more ≠ [] := by
        rintro rfl
        contradiction
      rwa [List.getLast?_append_of_ne_nil _ nonempty]

theorem leads_optional (word : String) (letters : ∀ d ∈ word.toList, isWord d = true) (slot : Nat) :
    (optional (capture slot (.word word) ++ gap)).Leads := by
  intro front text captures outcome way
  rcases mem_outcomes_optional.mp way with taken | rfl
  · obtain ⟨⟨_, captured⟩, way, behind⟩ := mem_outcomes_append.mp taken
    obtain ⟨⟨_, inner⟩, spelled, same⟩ := List.mem_map.mp way
    obtain ⟨rest, rfl, reached⟩ := mem_outcomes_text.mp spelled
    obtain ⟨rfl, -⟩ := Prod.mk.inj reached
    obtain ⟨rfl, -⟩ := Prod.mk.inj same
    obtain ⟨blanks, rest, rfl, some, blank, rfl⟩ := mem_outcomes_oneOrMore.mp behind
    refine ⟨word.toList ++ blanks, rest, by simp, by simp, ?_, .inr ?_⟩
    · refine List.forall_mem_append.mpr ⟨fun d member => .inl (letters d member), ?_⟩
      exact fun d member => .inr (blank d member)
    · rw [List.getLast?_append_of_ne_nil _ some, List.getLast?_eq_some_getLast some]
      exact blank _ (List.getLast_mem some)
  · exact ⟨[], text, rfl, by simp, by simp, .inl rfl⟩

theorem startsWith_gap (next : Pattern) : (gap ++ next).StartsWith isBlank := by
  intro front text captures outcome way
  obtain ⟨⟨_, captured⟩, way, -⟩ := mem_outcomes_append.mp way
  obtain ⟨blanks, rest, rfl, some, blank, -⟩ := mem_outcomes_oneOrMore.mp way
  obtain ⟨c, blanks, rfl⟩ := List.exists_cons_of_ne_nil some
  exact ⟨c, blanks ++ rest, rfl, blank c List.mem_cons_self⟩

theorem seeks_keyword {keyword : String} (leads : opening.Leads) (starts : next.StartsWith ends)
    (letters : ∀ d ∈ keyword.toList, isWord d = true) (nonempty : keyword.toList ≠ []) :
    (wordBoundary ++ opening ++ .word keyword ++ next).Seeks [keyword] ends := by
  intro front text outcome way
  obtain ⟨⟨_, captured⟩, way, behind⟩ := mem_outcomes_append.mp way
  obtain ⟨⟨_, captured⟩, way, spelled⟩ := mem_outcomes_append.mp way
  obtain ⟨⟨_, captured⟩, bounded, opened⟩ := mem_outcomes_append.mp way
  obtain ⟨boundary, same⟩ := mem_outcomes_wordBoundary.mp bounded
  obtain ⟨rfl, -⟩ := Prod.mk.inj same
  obtain ⟨lead, rest, rfl, rfl, plain, ending⟩ := leads _ _ _ _ opened
  obtain ⟨rest, rfl, reached⟩ := mem_outcomes_text.mp spelled
  obtain ⟨rfl, -⟩ := Prod.mk.inj reached
  obtain ⟨c, rest, rfl, isEnd⟩ := starts _ _ _ _ behind
  refine ⟨keyword, List.mem_singleton_self keyword, lead, c, rest, rfl, plain, ?_, isEnd⟩
  rcases ending with rfl | blank
  · obtain ⟨k, others, letter⟩ := List.exists_cons_of_ne_nil nonempty
    have first : isWord k = true := letters k (letter ▸ List.mem_cons_self)
    simpa [Cursor.atWordBoundary, Cursor.isAfter, Cursor.isBefore, Cursor.between, letter, first]
      using boundary
  · have some : lead ≠ [] := by
      rintro rfl
      contradiction
    rw [List.getLast?_append_of_ne_nil _ some]
    cases last : lead.getLast? with
    | none => rfl
    | some d =>
      rw [last] at blank
      exact isWord_of_isBlank blank

theorem seeks_orElse {others : List String} (one : first.Seeks keywords ends)
    (two : second.Seeks others ends) : (orElse first second).Seeks (keywords ++ others) ends := by
  intro front text outcome way
  rcases List.mem_append.mp way with way | way
  · obtain ⟨keyword, member, headed⟩ := one _ _ _ way
    exact ⟨keyword, List.mem_append_left _ member, headed⟩
  · obtain ⟨keyword, member, headed⟩ := two _ _ _ way
    exact ⟨keyword, List.mem_append_right _ member, headed⟩

end Seeking

end Pattern

end ContractInspector.Text
