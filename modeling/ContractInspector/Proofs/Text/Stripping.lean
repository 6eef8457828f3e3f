import Mathlib.Data.List.DropRight
import ContractInspector.Proofs.Text.Spans
import ContractInspector.Text.Basic

/-! Stripping texts that are put together. Blanks at an end do not count, and what stands in front of a
visible character is stripped apart from what stands behind it. -/
namespace ContractInspector.Text

variable {front text part : List Char}

theorem strip_eq (text : List Char) :
    strip text = (text.dropWhile isBlank).rdropWhile isBlank := rfl

theorem strip_append_left (blank : ∀ c ∈ front, isBlank c = true) (text : List Char) :
    strip (front ++ text) = strip text := by
  rw [strip, List.dropWhile_append_of_pos blank, ← strip]

theorem exists_visible_dropWhile (shown : ∃ c ∈ text, isBlank c = false) :
    ∃ c rest, text.dropWhile isBlank = c :: rest ∧ isBlank c = false := by
  obtain ⟨c, member, isVisible⟩ := shown
  cases dropped : text.dropWhile isBlank with
  | nil =>
    have := List.dropWhile_eq_nil_iff.mp dropped c member
    simp [isVisible] at this
  | cons d rest => exact ⟨d, rest, rfl, (spans_takeWhile isBlank text).ends d (by rw [dropped]; rfl)⟩

/-- A text with something visible in it, split in front of its first visible character. -/
theorem exists_visible (shown : ∃ c ∈ text, isBlank c = false) :
    ∃ gap c rest, text = gap ++ c :: rest ∧ (∀ c ∈ gap, isBlank c = true) ∧ isBlank c = false := by
  obtain ⟨c, rest, dropped, isVisible⟩ := exists_visible_dropWhile shown
  refine ⟨text.takeWhile isBlank, c, rest, ?_, (spans_takeWhile isBlank text).inside, isVisible⟩
  rw [← dropped, List.takeWhile_append_dropWhile]

theorem rdropWhile_append (shown : ∃ c ∈ text, isBlank c = false) (front : List Char) :
    (front ++ text).rdropWhile isBlank = front ++ text.rdropWhile isBlank := by
  have turned : ∃ c ∈ text.reverse, isBlank c = false := by simpa using shown
  obtain ⟨c, rest, dropped, -⟩ := exists_visible_dropWhile turned
  rw [List.rdropWhile, List.reverse_append, List.dropWhile_append, dropped, List.rdropWhile, dropped]
  simp

/-- What is stripped behind other text is an end of what is stripped together with it. -/
theorem strip_suffix (shown : ∃ c ∈ text, isBlank c = false) (front : List Char) :
    strip text <:+ strip (front ++ text) := by
  obtain ⟨c, rest, dropped, isVisible⟩ := exists_visible_dropWhile shown
  have blanks : text = text.takeWhile isBlank ++ c :: rest := by
    rw [← dropped, List.takeWhile_append_dropWhile]
  have visible : ∃ d ∈ c :: rest, isBlank d = false := ⟨c, List.mem_cons_self, isVisible⟩
  rw [strip_eq, strip_eq, dropped]
  by_cases blank : ∀ d ∈ front, isBlank d = true
  · have same : (front ++ text).dropWhile isBlank = c :: rest := by
      rw [List.dropWhile_append_of_pos blank, dropped]
    exact same ▸ List.suffix_rfl
  · have some : ∃ d ∈ front, isBlank d = false := by simpa using blank
    obtain ⟨d, others, kept, -⟩ := exists_visible_dropWhile some
    rw [List.dropWhile_append, kept]
    simp only [List.isEmpty_cons, Bool.false_eq_true, if_false]
    rw [blanks, ← List.append_assoc, rdropWhile_append visible]
    exact List.suffix_append _ _

theorem strip_append_right {back : List Char} (blank : ∀ c ∈ back, isBlank c = true)
    (first : text.head?.any isBlank = false) : strip (text ++ back) = strip text := by
  have ended : back.reverse.dropWhile isBlank = [] := by simpa using blank
  cases text with
  | nil =>
    have all : back.dropWhile isBlank = [] := by simpa using blank
    rw [List.nil_append, strip_eq, all]
    rfl
  | cons c text =>
    have visible : isBlank c = false := first
    have kept (rest : List Char) : (c :: rest).dropWhile isBlank = c :: rest := by simp [visible]
    rw [strip_eq, strip_eq, List.cons_append, kept, kept, ← List.cons_append, List.rdropWhile,
      List.reverse_append, List.dropWhile_append, ended]
    rfl

theorem strip_append_blanks {back : List Char} (blank : ∀ c ∈ back, isBlank c = true)
    (text : List Char) : strip (text ++ back) = strip text := by
  obtain ⟨leading, rest, rfl, spans⟩ := exists_spans isBlank text
  have first : rest.head?.any isBlank = false := by
    cases first : rest.head? with
    | none => rfl
    | some c => exact spans.ends c first
  rw [List.append_assoc, strip_append_left spans.inside, strip_append_right blank first,
    strip_append_left spans.inside]

/-- A stripped text with the blanks that stood around it. -/
theorem exists_blanks (text : List Char) : ∃ front back, (∀ c ∈ front, isBlank c = true) ∧
    (∀ c ∈ back, isBlank c = true) ∧ text = front ++ (strip text ++ back) := by
  refine ⟨text.takeWhile isBlank, (text.dropWhile isBlank).rtakeWhile isBlank,
    List.all_eq_true.mp List.all_takeWhile, fun c => List.mem_rtakeWhile_imp, ?_⟩
  rw [strip_eq, List.rdropWhile_append_rtakeWhile, List.takeWhile_append_dropWhile]

theorem head?_strip (text : List Char) : (strip text).head?.any isBlank = false := by
  cases stripped : strip text with
  | nil => rfl
  | cons c rest =>
    obtain ⟨back, split⟩ := List.rdropWhile_prefix isBlank (text.dropWhile isBlank)
    rw [← strip_eq, stripped] at split
    have stops := List.head?_dropWhile_not isBlank text
    rw [← split] at stops
    exact stops

theorem getLast?_strip (text : List Char) : (strip text).getLast?.any isBlank = false := by
  by_cases blank : strip text = []
  · rw [blank]
    rfl
  · rw [List.getLast?_eq_some_getLast blank]
    exact eq_false_of_ne_true (List.rdropWhile_last_not isBlank (text.dropWhile isBlank) blank)

/-- A text that neither starts nor ends with a blank stays as it is. -/
theorem strip_eq_self (first : text.head?.any isBlank = false)
    (last : text.getLast?.any isBlank = false) : strip text = text := by
  have kept : text.dropWhile isBlank = text := by
    cases text with
    | nil => rfl
    | cons c rest => simpa using first
  rw [strip_eq, kept]
  rcases List.eq_nil_or_concat text with rfl | ⟨init, c, rfl⟩
  · rfl
  · rw [List.concat_eq_append] at last ⊢
    rw [List.rdropWhile_concat_neg _ _ _ (by simpa using last)]

end ContractInspector.Text
