import ContractInspector.Text.Basic

/-! The lines of a text. They are the pieces that `List.splitOn` makes, and lines next to each other are
a part of the text (`intercalate_lines_within`). -/
namespace ContractInspector.Text

variable {text line : List Char} {separator : Char}

theorem contains_iff (part text : List Char) : contains part text = true ↔ part <:+: text := by
  induction text with
  | nil => rw [contains, List.isEmpty_iff, List.infix_nil]
  | cons c rest ih =>
    rw [contains, Bool.or_eq_true, List.isPrefixOf_iff_prefix, ih, List.infix_cons_iff]

theorem splitOnto_eq (text piece : List Char) (done : List (List Char)) :
    splitOnto separator text piece done =
      done.reverse ++ (text.splitOn separator).modifyHead (piece.reverse ++ ·) := by
  induction text generalizing piece done with
  | nil => simp [splitOnto]
  | cons c rest ih =>
    rw [splitOnto, List.splitOn_cons_eq_if_modifyHead]
    by_cases same : c = separator
    · rw [if_pos same, if_pos (beq_iff_eq.mpr same), ih]
      cases rest.splitOn separator <;> simp
    · rw [if_neg same, if_neg (mt beq_iff_eq.mp same), ih, List.modifyHead_modifyHead]
      simp [Function.comp_def]

theorem splitAt_eq (separator : Char) (text : List Char) :
    splitAt separator text = text.splitOn separator := by
  rw [splitAt, splitOnto_eq]
  cases text.splitOn separator <;> simp

theorem not_mem_of_mem_splitOn {α : Type} [DecidableEq α] {separator : α} {items piece : List α}
    (member : piece ∈ items.splitOn separator) : separator ∉ piece := by
  induction items generalizing piece with
  | nil =>
    rw [List.splitOn_nil, List.mem_singleton] at member
    rw [member]
    exact List.not_mem_nil
  | cons c rest ih =>
    obtain ⟨first, others, split⟩ := List.exists_cons_of_ne_nil (List.splitOn_ne_nil separator rest)
    rw [List.splitOn_cons_eq_if_modifyHead, split] at member
    rw [split] at ih
    split at member
    · rcases List.mem_cons.mp member with rfl | member
      · exact List.not_mem_nil
      · exact ih member
    · next differs =>
      rcases List.mem_cons.mp member with rfl | member
      · rw [List.mem_cons, not_or]
        exact ⟨fun same => differs (beq_iff_eq.mpr same.symm), ih List.mem_cons_self⟩
      · exact ih (List.mem_cons_of_mem first member)

theorem not_mem_of_mem_splitAt {piece : List Char} (member : piece ∈ splitAt separator text) :
    separator ∉ piece :=
  not_mem_of_mem_splitOn (splitAt_eq separator text ▸ member)

theorem splitAt_intercalate {pieces : List (List Char)} (inPiece : ∀ piece ∈ pieces, separator ∉ piece)
    (nonempty : pieces ≠ []) : splitAt separator ([separator].intercalate pieces) = pieces := by
  rw [splitAt_eq, List.splitOn_intercalate separator inPiece nonempty]

theorem lines_eq (text : List Char) : lines text = text.splitOn '\n' :=
  splitAt_eq '\n' text

theorem lines_of_not_mem (inLine : '\n' ∉ line) : lines line = [line] := by
  rw [lines_eq, List.splitOn_eq_singleton inLine]

theorem lines_cons (inLine : '\n' ∉ line) (text : List Char) :
    lines (line ++ '\n' :: text) = line :: lines text := by
  rw [lines_eq, List.splitOn_append_cons_self_of_not_mem inLine, lines_eq]

/-- Induction on the lines of a text, from the last one on. -/
theorem lines_induction {motive : List Char → Prop} (last : ∀ line, '\n' ∉ line → motive line)
    (cons : ∀ line text, '\n' ∉ line → motive text → motive (line ++ '\n' :: text))
    (text : List Char) : motive text := by
  by_cases inLine : '\n' ∈ text
  · obtain ⟨line, rest, rfl, free⟩ := List.eq_append_cons_of_mem inLine
    exact cons line rest free (lines_induction last cons rest)
  · exact last text inLine
termination_by text.length

/-- An offset of a text lies on the line with some row. -/
structure LiesOn (text line : List Char) (row offset : Nat) : Prop where
  here : (lines text)[row]? = some line
  split : ∃ above below, text = above ++ (line ++ below) ∧ above.count '\n' = row ∧
    above.length ≤ offset ∧ offset ≤ above.length + line.length

/-- An offset lies on the line that is numbered by the newlines in front of it. -/
theorem exists_liesOn {offset : Nat} (inside : offset ≤ text.length) :
    ∃ line, LiesOn text line ((text.take offset).count '\n') offset := by
  induction text using lines_induction generalizing offset with
  | last line inLine =>
    have none : (line.take offset).count '\n' = 0 :=
      List.count_eq_zero.mpr fun member => inLine (List.mem_of_mem_take member)
    refine ⟨line, ?_, [], [], by simp, by simp [none], Nat.zero_le _, by simpa using inside⟩
    rw [none, lines_of_not_mem inLine]
    rfl
  | cons line text inLine ih =>
    rcases Nat.lt_or_ge line.length offset with below | here
    · obtain ⟨further, rfl⟩ := Nat.exists_eq_add_of_le (Nat.succ_le_of_lt below)
      have within : further ≤ text.length := by
        simp at inside
        omega
      have passed : line ++ '\n' :: text = (line ++ ['\n']) ++ text := by simp
      have length : line.length.succ + further = (line ++ ['\n']).length + further := by simp
      have count : (line ++ ['\n']).count '\n' = 1 := by
        rw [List.count_append, List.count_eq_zero.mpr inLine]
        rfl
      obtain ⟨found, same, above, behind, split, counted, low, high⟩ := ih within
      have rows : ((line ++ '\n' :: text).take (line.length.succ + further)).count '\n' =
          (text.take further).count '\n' + 1 := by
        rw [passed, length, List.take_length_add_append, List.count_append, count, Nat.add_comm]
      refine ⟨found, ?_, line ++ ['\n'] ++ above, behind, by rw [passed, split]; simp, ?_, ?_, ?_⟩
      · rw [rows, lines_cons inLine, List.getElem?_cons_succ, same]
      · rw [rows, List.count_append, count, counted, Nat.add_comm]
      · simp
        omega
      · simp
        omega
    · have none : ((line ++ '\n' :: text).take offset).count '\n' = 0 := by
        rw [List.take_append_of_le_length here]
        exact List.count_eq_zero.mpr fun member => inLine (List.mem_of_mem_take member)
      refine ⟨line, ?_, [], '\n' :: text, rfl, by simp [none], Nat.zero_le _, by simpa using here⟩
      rw [none, lines_cons inLine]
      rfl

/-- A part without newlines stands on one line, the one that is numbered by the newlines in front of it. -/
theorem exists_line {part : List Char} (inLine : '\n' ∉ part) (front rest : List Char) :
    ∃ before after, (lines (front ++ (part ++ rest)))[front.count '\n']? = some (before ++ (part ++ after)) ∧
      before <:+ front := by
  induction front using lines_induction with
  | last front free =>
    have none : front.count '\n' = 0 := List.count_eq_zero.mpr free
    by_cases ends : '\n' ∈ rest
    · obtain ⟨after, below, rfl, free'⟩ := List.eq_append_cons_of_mem ends
      have row : '\n' ∉ front ++ (part ++ after) := by simp [free, inLine, free']
      have split : front ++ (part ++ (after ++ '\n' :: below)) = front ++ (part ++ after) ++ '\n' :: below := by simp
      refine ⟨front, after, ?_, List.suffix_refl front⟩
      rw [none, split, lines_cons row]
      rfl
    · have row : '\n' ∉ front ++ (part ++ rest) := by simp [free, inLine, ends]
      refine ⟨front, rest, ?_, List.suffix_refl front⟩
      rw [none, lines_of_not_mem row]
      rfl
  | cons line front free ih =>
    obtain ⟨before, after, here, above⟩ := ih
    have passed : (line ++ '\n' :: front).count '\n' = front.count '\n' + 1 := by
      rw [List.count_append, List.count_cons_self, List.count_eq_zero.mpr free, Nat.zero_add]
    refine ⟨before, after, ?_, above.trans ⟨line ++ ['\n'], by simp⟩⟩
    rw [passed, List.append_assoc, List.cons_append, lines_cons free, List.getElem?_cons_succ, here]

theorem intercalate_append {front back : List (List Char)} (some : front ≠ []) (others : back ≠ [])
    (separator : List Char) : separator.intercalate (front ++ back) =
      separator.intercalate front ++ separator ++ separator.intercalate back := by
  induction front with
  | nil => contradiction
  | cons first front ih =>
    rcases List.eq_nil_or_concat front with rfl | ⟨init, last, rfl⟩
    · rw [List.singleton_append, List.intercalate_cons_of_ne_nil others, List.intercalate_singleton]
    · rw [List.cons_append, List.intercalate_cons_of_ne_nil (by simp), ih (by simp),
        List.intercalate_cons_of_ne_nil (by simp)]
      simp only [List.append_assoc]

/-- Pieces next to each other, joined, are a part of all pieces, joined. -/
theorem intercalate_within {part whole : List (List Char)} (within : part <:+: whole)
    (separator : List Char) : separator.intercalate part <:+: separator.intercalate whole := by
  obtain ⟨front, back, rfl⟩ := within
  by_cases none : part = []
  · subst none
    exact List.nil_infix
  · have prefixed : separator.intercalate (front ++ part) <+:
        separator.intercalate (front ++ part ++ back) := by
      by_cases nothing : back = []
      · subst nothing
        simp
      · rw [intercalate_append (by simp [none]) nothing, List.append_assoc]
        exact List.prefix_append _ _
    have suffixed : separator.intercalate part <:+ separator.intercalate (front ++ part) := by
      by_cases nothing : front = []
      · subst nothing
        simp
      · rw [intercalate_append nothing none]
        exact List.suffix_append _ _
    exact suffixed.isInfix.trans prefixed.isInfix

/-- Pieces next to each other, joined again, are a part of the text. -/
theorem intercalate_pieces_within {part : List (List Char)} (within : part <:+: splitAt separator text) :
    [separator].intercalate part <:+: text := by
  have joined := intercalate_within within [separator]
  rwa [splitAt_eq, List.intercalate_splitOn] at joined

theorem intercalate_lines_within {part : List (List Char)} (within : part <:+: lines text) :
    ['\n'].intercalate part <:+: text :=
  intercalate_pieces_within within

theorem piece_within {piece : List Char} (member : piece ∈ splitAt separator text) :
    piece <:+: text := by
  obtain ⟨front, back, split⟩ := List.append_of_mem member
  have within : [piece] <:+: splitAt separator text := ⟨front, back, by rw [split]; simp⟩
  have joined := intercalate_pieces_within within
  rwa [List.intercalate_singleton] at joined

theorem line_within (member : line ∈ lines text) : line <:+: text :=
  piece_within member

/-- A part of two texts with a separator between them stands in one of them, or over the separator. -/
theorem infix_separated_iff {part front back : List Char} :
    part <:+: front ++ separator :: back ↔ part <:+: front ∨ part <:+: back ∨
      ∃ ending beginning, part = ending ++ separator :: beginning ∧ ending <:+ front ∧
        beginning <+: back := by
  constructor
  · rintro ⟨before, after, split⟩
    rcases List.append_eq_append_iff.mp split with ⟨more, rfl, -⟩ | ⟨more, same, rest⟩
    · exact .inl ⟨before, more, rfl⟩
    cases more with
    | nil =>
      rw [List.append_nil] at same
      exact .inl ⟨before, [], by rw [same, List.append_nil]⟩
    | cons c more =>
      obtain ⟨rfl, rfl⟩ := List.cons.inj rest
      rcases List.append_eq_append_iff.mp same with ⟨ending, rfl, rfl⟩ | ⟨gap, rfl, rest⟩
      · exact .inr (.inr ⟨ending, more, rfl, ⟨before, rfl⟩, ⟨after, rfl⟩⟩)
      · cases gap with
        | nil =>
          obtain rfl := rest
          exact .inr (.inr ⟨[], more, rfl, ⟨front, List.append_nil _⟩, ⟨after, rfl⟩⟩)
        | cons d gap =>
          obtain ⟨-, rfl⟩ := List.cons.inj rest
          exact .inr (.inl ⟨gap, after, by simp⟩)
  · rintro (⟨before, after, rfl⟩ | ⟨before, after, rfl⟩ |
      ⟨ending, beginning, rfl, ⟨before, rfl⟩, ⟨after, rfl⟩⟩)
    · exact ⟨before, after ++ separator :: back, by simp⟩
    · exact ⟨front ++ separator :: before, after, by simp⟩
    · exact ⟨before, after, by simp⟩

/-- A text reaches over the border of two pieces with a separator between them. -/
def Bridges (separator : Char) (part front back : List Char) : Prop :=
  ∃ ending beginning, part = ending ++ separator :: beginning ∧ ending <:+ front ∧ beginning <+: back

/-- Behind the separator, only the first piece is reached. -/
theorem bridges_intercalate_iff {part front back : List Char} (once : part.count separator ≤ 1)
    (others : List (List Char)) :
    Bridges separator part front ([separator].intercalate (back :: others)) ↔
      Bridges separator part front back := by
  have first : back <+: [separator].intercalate (back :: others) := by
    cases others with
    | nil =>
      exact ⟨[], by rw [List.intercalate_singleton, List.append_nil]⟩
    | cons second others =>
      rw [List.intercalate_cons_cons, List.append_assoc]
      exact List.prefix_append _ _
  constructor
  · rintro ⟨ending, beginning, rfl, suffixed, prefixed⟩
    refine ⟨ending, beginning, rfl, suffixed, ?_⟩
    have absent : separator ∉ beginning := by
      rw [List.count_append, List.count_cons_self] at once
      exact List.count_eq_zero.mp (by omega)
    rcases List.prefix_or_prefix_of_prefix prefixed first with shorter | ⟨more, same⟩
    · exact shorter
    cases others with
    | nil => rwa [List.intercalate_singleton] at prefixed
    | cons second others =>
      obtain ⟨rest, split⟩ := prefixed
      rw [← same, List.intercalate_cons_cons, List.append_assoc, List.append_assoc,
        List.append_cancel_left_eq] at split
      cases more with
      | nil =>
        exact ⟨[], by rw [List.append_nil, ← same, List.append_nil]⟩
      | cons c more =>
        obtain ⟨rfl, -⟩ := List.cons.inj split
        exact absurd (same ▸ List.mem_append_right back List.mem_cons_self) absent
  · rintro ⟨ending, beginning, rfl, suffixed, prefixed⟩
    exact ⟨ending, beginning, rfl, suffixed, prefixed.trans first⟩

/-- A text that has the separator at most once stands in joined pieces if it stands in one of them or
reaches over a border. -/
theorem infix_intercalate_iff {part : List Char} (nonempty : part ≠ [])
    (once : part.count separator ≤ 1) (pieces : List (List Char)) :
    part <:+: [separator].intercalate pieces ↔ (∃ piece ∈ pieces, part <:+: piece) ∨
      ∃ front back, [front, back] <:+: pieces ∧ Bridges separator part front back := by
  induction pieces with
  | nil => simp [nonempty]
  | cons first others ih =>
    cases others with
    | nil =>
      have alone {front back : List Char} : ¬[front, back] <:+: [first] := fun within => by
        simpa using within.length_le
      simp [alone]
    | cons second others =>
      have among : (∃ piece ∈ first :: second :: others, part <:+: piece) ↔
          part <:+: first ∨ ∃ piece ∈ second :: others, part <:+: piece := by
        simp only [List.mem_cons, or_and_right, exists_or, exists_eq_left]
      have pairs {front back : List Char} : [front, back] <:+: first :: second :: others ↔
          (front = first ∧ back = second) ∨ [front, back] <:+: second :: others := by
        rw [List.infix_cons_iff, List.cons_prefix_cons, List.cons_prefix_cons]
        simp
      have border : Bridges separator part first ([separator].intercalate (second :: others)) ↔
          Bridges separator part first second := bridges_intercalate_iff once others
      rw [Bridges] at border
      rw [List.intercalate_cons_cons, List.append_assoc, List.singleton_append, infix_separated_iff,
        border, ih, among]
      simp only [pairs, or_and_right, exists_or]
      constructor
      · rintro (inFirst | (inOthers | later) | between)
        · exact .inl (.inl inFirst)
        · exact .inl (.inr inOthers)
        · exact .inr (.inr later)
        · exact .inr (.inl ⟨first, second, ⟨rfl, rfl⟩, between⟩)
      · rintro ((inFirst | inOthers) | (⟨_, _, ⟨rfl, rfl⟩, between⟩ | later))
        · exact .inl inFirst
        · exact .inr (.inl (.inl inOthers))
        · exact .inr (.inr between)
        · exact .inr (.inl (.inr later))

theorem mem_intercalate {pieces : List (List Char)} {c : Char}
    (member : c ∈ [separator].intercalate pieces) : c = separator ∨ ∃ piece ∈ pieces, c ∈ piece := by
  induction pieces with
  | nil =>
    rw [List.intercalate_nil] at member
    contradiction
  | cons first others ih =>
    by_cases nothing : others = []
    · rw [nothing, List.intercalate_singleton] at member
      exact Or.inr ⟨first, List.mem_cons_self, member⟩
    · rw [List.intercalate_cons_of_ne_nil nothing, List.append_assoc] at member
      rcases List.mem_append.mp member with inFirst | member
      · exact Or.inr ⟨first, List.mem_cons_self, inFirst⟩
      · rcases List.mem_cons.mp member with same | inOthers
        · exact Or.inl same
        · exact (ih inOthers).imp_right fun ⟨piece, other, inPiece⟩ =>
            ⟨piece, List.mem_cons_of_mem first other, inPiece⟩

/-- What is no separator stands in a piece. -/
theorem exists_mem_splitAt {c : Char} (member : c ∈ text) (differs : c ≠ separator) :
    ∃ piece ∈ splitAt separator text, c ∈ piece := by
  apply (mem_intercalate _).resolve_left differs
  rwa [splitAt_eq, List.intercalate_splitOn]

end ContractInspector.Text
