import Mathlib.Data.List.Infix
import ContractInspector.Language.Catalogue
import ContractInspector.Proofs.Diagnostic.Locating
import ContractInspector.Proofs.Text.Window

/-! Locations behind a path. A directory without locations is passed over (`silent_directory`). The name of
a contract is passed over if it has no location itself, and otherwise its first location is found
whatever stands behind it (`locationText?_name`): none reaches over the dot of the extension. -/
namespace ContractInspector.Diagnostic

open Text (Capture Cursor Match Pattern Spells isBlank isDigit)

variable {front part rest tail text line column name : List Char} {c : Char}

section Reaching

/-- A character that no location has. -/
structure Stops (c : Char) : Prop where
  letter : ∀ letter ∈ "line".toList, Text.sameLetter letter c = false
  blank : isBlank c = false
  digit : isDigit c = false
  ne_colon : c ≠ ':'

theorem stops_slash : Stops '/' :=
  ⟨by decide, by decide, by decide, by decide⟩

theorem stops_dot : Stops '.' :=
  ⟨by decide, by decide, by decide, by decide⟩

theorem exists_opening {word : List Char} (spells : Spells "line" word) :
    ∃ c d letters, word = c :: d :: letters ∧ Text.sameLetter 'l' c = true := by
  rcases spells with _ | ⟨held, _ | ⟨_, _⟩⟩
  exact ⟨_, _, _, rfl, held⟩

theorem line_ne_nil {word : List Char} (spells : Spells "line" word) : word ≠ [] := by
  obtain ⟨c, d, letters, rfl, -⟩ := exists_opening spells
  exact List.cons_ne_nil c _

theorem LocatedAt.append (located : LocatedAt front text) (tail : List Char) :
    LocatedAt front (text ++ tail) := by
  rcases located with ⟨boundary, word, gap, line, rest, rfl, spells, blank, digits⟩ |
    ⟨line, column, rest, rfl, line_digits, column_digits⟩
  · rw [atWordBoundary_append (line_ne_nil spells) front _ (gap ++ (line ++ (rest ++ tail)))] at boundary
    exact .inl ⟨by simpa using boundary, word, gap, line, rest ++ tail, by simp, spells, blank, digits⟩
  · exact .inr ⟨line, column, rest ++ tail, by simp, line_digits, column_digits⟩

theorem LocatedAt.of_stops (stops : Stops c) (located : LocatedAt front (rest ++ c :: tail)) :
    LocatedAt front rest := by
  rcases located with ⟨boundary, word, gap, line, more, same, spells, blank, digits⟩ |
    ⟨line, column, more, same, line_digits, column_digits⟩
  · have absent : c ∉ word ++ (gap ++ line) := by
      have inWord : c ∉ word := spells.not_mem stops.letter
      have inGap : c ∉ gap := fun member => by simpa [stops.blank] using blank c member
      have inLine : c ∉ line := digits.not_mem stops.digit
      simp [inWord, inGap, inLine]
    have grouped : rest ++ c :: tail = (word ++ (gap ++ line)) ++ more := by simpa using same
    obtain ⟨left, rfl, -⟩ := Text.ends_before grouped absent
    rw [same, atWordBoundary_append (line_ne_nil spells) front _ (gap ++ (line ++ left))] at boundary
    exact .inl ⟨by simpa using boundary, word, gap, line, left, by simp, spells, blank, digits⟩
  · have absent : c ∉ ':' :: (line ++ ':' :: column) := by
      have inLine : c ∉ line := line_digits.not_mem stops.digit
      have inColumn : c ∉ column := column_digits.not_mem stops.digit
      simp [stops.ne_colon, inLine, inColumn]
    have grouped : rest ++ c :: tail = (':' :: (line ++ ':' :: column)) ++ more := by simpa using same
    obtain ⟨left, rfl, -⟩ := Text.ends_before grouped absent
    exact .inr ⟨line, column, left, by simp, line_digits, column_digits⟩

/-- A text starts as a location does, as far as two characters tell. -/
def opens : List Char → Bool
  | [] => false
  | [c] => Text.sameLetter 'l' c || c == ':'
  | c :: d :: _ => Text.sameLetter 'l' c || (c == ':' && isDigit d)

theorem opens_of_append (nonempty : part ≠ []) (opened : opens (part ++ tail) = true) :
    opens part = true := by
  match part, tail with
  | [c], [] => exact opened
  | [c], d :: tail =>
    simp only [List.singleton_append, opens, Bool.or_eq_true, Bool.and_eq_true] at opened ⊢
    exact opened.imp_right And.left
  | c :: d :: part, tail => exact opened

theorem LocatedAt.opens (located : LocatedAt front text) : opens text = true := by
  rcases located with ⟨-, word, gap, line, rest, rfl, spells, -, -⟩ |
    ⟨line, column, rest, rfl, ⟨some, digits⟩, -⟩
  · obtain ⟨c, d, letters, rfl, held⟩ := exists_opening spells
    simp [Diagnostic.opens, held]
  · obtain ⟨d, line, rfl⟩ := List.exists_cons_of_ne_nil some
    simp [Diagnostic.opens, digits d List.mem_cons_self]

end Reaching

section Silence

/-- Nothing in a text opens a location. -/
def Shut (part : List Char) : Prop :=
  ∀ after ∈ part.tails, opens after = false

instance (part : List Char) : Decidable (Shut part) :=
  inferInstanceAs (Decidable (∀ after ∈ part.tails, opens after = false))

theorem Shut.passes (shut : Shut part) (front tail : List Char) :
    locationPattern.Passes (front ++ (part ++ tail)) front.length (front ++ part).length := by
  apply Pattern.passes_part
  rintro before after rfl nonempty
  apply matchAt?_eq_none_iff.mpr
  intro located
  have closed := shut after ((List.mem_tails _ _).mpr (List.suffix_append before after))
  rw [opens_of_append nonempty located.opens] at closed
  contradiction

theorem passes_of_stops (unlocated : locationPattern.occursIn part = false) (stops : Stops c)
    (tail : List Char) :
    locationPattern.Passes ((part ++ [c]) ++ tail) 0 (part ++ [c]).length := by
  apply Pattern.passes_through
  rintro before after rfl
  apply matchAt?_eq_none_iff.mpr
  intro located
  exact occursIn_location_iff.mp unlocated before after rfl (located.of_stops stops)

/-- A text behind which locations are found as at the start of a text: whatever stands behind it, none
starts in it, and it ends with a word boundary. -/
structure Silent (front : List Char) : Prop where
  boundary : front.getLast?.any Text.isWord = false
  passes : ∀ text, locationPattern.Passes (front ++ text) 0 front.length

theorem silent_directory (unlocated : locationPattern.occursIn part = false) :
    Silent (part ++ ['/']) where
  boundary := by
    rw [List.getLast?_concat]
    decide
  passes := passes_of_stops unlocated stops_slash

theorem Shut.silent (shut : Shut part) (boundary : part.getLast?.any Text.isWord = false) :
    Silent part :=
  ⟨boundary, shut.passes []⟩

theorem Silent.search? (silent : Silent front) (text : List Char) :
    locationPattern.search? (front ++ text) =
      (locationPattern.search? text).map (Match.behind front) := by
  have looks : locationPattern.lookbehinds = [Text.isWord] := rfl
  have blind : locationPattern.Blind front.getLast? := by
    intro holds member
    rw [looks] at member
    rw [List.mem_singleton.mp member]
    exact silent.boundary
  exact Pattern.search?_append blind (silent.passes text)

theorem Silent.occursIn (silent : Silent front) (text : List Char) :
    locationPattern.occursIn (front ++ text) = locationPattern.occursIn text := by
  rw [Pattern.occursIn, silent.search?, Option.isSome_map, Pattern.occursIn]

theorem Silent.locationText? (silent : Silent front) (text : List Char) :
    locationText? (front ++ text) = locationText? text := by
  rw [Diagnostic.locationText?, silent.search?, Diagnostic.locationText?]
  cases locationPattern.search? text with
  | none => rfl
  | some found => simp

end Silence

section Name

theorem unlocated_of_append (unlocated : locationPattern.occursIn (part ++ tail) = false) :
    locationPattern.occursIn part = false := by
  apply occursIn_location_iff.mpr
  rintro before after rfl located
  exact occursIn_location_iff.mp unlocated before (after ++ tail) (by simp) (located.append tail)

theorem unlocated_of_passes (passes : locationPattern.Passes (text ++ tail) 0 text.length) :
    locationPattern.occursIn text = false := by
  apply occursIn_location_iff.mpr
  rintro before after rfl located
  have nonempty : after ≠ [] := by
    rintro rfl
    exact absurd located.opens (by decide)
  have inside : before.length < (before ++ after).length := by
    simpa [List.length_pos_iff] using nonempty
  have none := passes before.length (Nat.zero_le _) inside
  rw [List.append_assoc, Text.placeAt_length] at none
  exact matchAt?_eq_none_iff.mp none (located.append tail)

theorem shut_extension : Shut "compact".toList := by decide

theorem fileExtension_eq : Language.fileExtension.toList = '.' :: "compact".toList := by decide

theorem passes_name (contract : Language.fileExtension.toList <:+ name)
    (unlocated : locationPattern.occursIn name = false) (tail : List Char) :
    locationPattern.Passes (name ++ tail) 0 name.length := by
  obtain ⟨stem, rfl⟩ := contract
  have upToDot := passes_of_stops (unlocated_of_append unlocated) stops_dot ("compact".toList ++ tail)
  have extension := shut_extension.passes (stem ++ ['.']) tail
  have whole := upToDot.trans extension
  rwa [← List.append_assoc, List.append_assoc stem, List.singleton_append, ← fileExtension_eq] at whole

theorem locationText?_congr {first second : List Char}
    (shapes : (locationPattern.search? first).map Match.shape =
      (locationPattern.search? second).map Match.shape) :
    locationText? first = locationText? second := by
  rw [locationText?, locationText?]
  cases one : locationPattern.search? first with
  | none =>
    rw [one, Option.map_none, eq_comm, Option.map_eq_none_iff] at shapes
    rw [shapes]
  | some found =>
    rw [one, Option.map_some, eq_comm, Option.map_eq_some_iff] at shapes
    obtain ⟨other, two, shape⟩ := shapes
    simp only [two, Option.bind_eq_bind, Option.bind_some, Match.text?_shape shape]

/-- A location in the name of a contract is found first, and nothing behind the name changes it. -/
theorem locationText?_name (contract : Language.fileExtension.toList <:+ name)
    (located : locationPattern.occursIn name = true) (tail : List Char) :
    locationText? (name ++ tail) = locationText? name := by
  obtain ⟨stem, rfl⟩ := contract
  have unread : locationPattern.reads '.' = false := by decide
  have starts : ¬locationPattern.Passes (stem ++ '.' :: ("compact".toList ++ tail)) 0
      (stem.length + 1) := by
    intro passes
    have extension := shut_extension.passes (stem ++ ['.']) tail
    rw [List.append_assoc, List.singleton_append, List.length_append] at extension
    have whole : locationPattern.Passes (((stem ++ ['.']) ++ "compact".toList) ++ tail) 0
        ((stem ++ ['.']) ++ "compact".toList).length := by
      simpa using passes.trans extension
    have unlocated := unlocated_of_passes whole
    rw [List.append_assoc, List.singleton_append, ← fileExtension_eq, located] at unlocated
    contradiction
  rw [fileExtension_eq, List.append_assoc, List.cons_append]
  exact locationText?_congr (Pattern.search?_before unread starts)

end Name

section Colons

/-- A location between colons is taken as it is written. -/
theorem takes_colons (line_digits : Digits line) (column_digits : Digits column)
    (ends : ∀ c, rest.head? = some c → isDigit c = false) :
    ∃ captured, locationPattern.Takes front ([':'] ++ line ++ [':'] ++ column) rest [] captured ∧
      captured.map (fun part => (part.slot, part.text)) = [(4, column), (3, line)] := by
  have opened : (Pattern.word ":").Takes front [':'] (line ++ ([':'] ++ (column ++ rest))) [] [] :=
    Pattern.takes_text [':']
  have numbered := Pattern.takes_append opened (takes_number 3 line_digits (ends_colon _))
  have divided := Pattern.takes_append numbered (Pattern.takes_text [':'])
  have whole := Pattern.takes_append divided (takes_number 4 column_digits ends)
  refine ⟨_, Pattern.takes_orElse_right ?_ whole, by simp⟩
  apply List.eq_nil_iff_forall_not_mem.mpr
  intro outcome way
  obtain ⟨_, way, -⟩ := Pattern.mem_outcomes_append.mp way
  obtain ⟨_, way, -⟩ := Pattern.mem_outcomes_append.mp way
  obtain ⟨_, way, -⟩ := Pattern.mem_outcomes_append.mp way
  obtain ⟨_, bounded, spelled⟩ := Pattern.mem_outcomes_append.mp way
  obtain ⟨-, rfl⟩ := Pattern.mem_outcomes_wordBoundary.mp bounded
  obtain ⟨word, _, same, spells, -⟩ := Pattern.mem_outcomes_anyCase.mp spelled
  obtain ⟨c, d, letters, rfl, held⟩ := exists_opening spells
  obtain ⟨rfl, -⟩ := List.cons.inj same
  exact absurd held (by decide)

theorem locationText?_colons (contract : Language.fileExtension.toList <:+ name)
    (unlocated : locationPattern.occursIn name = false) (line_digits : Digits line)
    (column_digits : Digits column) (ends : ∀ c, rest.head? = some c → isDigit c = false) :
    locationText? (name ++ (([':'] ++ line ++ [':'] ++ column) ++ rest)) = some (line, some column) := by
  obtain ⟨captured, taken, shown⟩ := takes_colons line_digits column_digits ends
  exact locationText?_of_takes (passes_name contract unlocated _) taken shown

end Colons

end ContractInspector.Diagnostic
