import ContractInspector.Diagnostic.Location
import ContractInspector.Proofs.Text.Behind
import ContractInspector.Proofs.Text.Blanks
import ContractInspector.Proofs.Text.Captured
import ContractInspector.Proofs.Text.Numerals

/-! Where locations stand in a text (`locatedAt_iff`), and the numbers that are read from them. -/
namespace ContractInspector.Diagnostic

open Text (Capture Cursor Match Pattern Spells isBlank isDigit placeAt)

variable {front text digits : List Char}

def Digits (digits : List Char) : Prop :=
  digits ≠ [] ∧ ∀ c ∈ digits, isDigit c = true

section Numbers

theorem digits_of_takenBy {part : Capture} (taken : part.TakenBy locationPattern.captured text) :
    Digits part.text ∧ part.text <:+: text := by
  have bodies : ∀ body, (part.slot, body) ∈ locationPattern.captured → body = .oneOrMore isDigit := by
    intro body member
    have all : locationPattern.captured.map Prod.snd = List.replicate 4 (.oneOrMore isDigit) := rfl
    have here : body ∈ locationPattern.captured.map Prod.snd := List.mem_map.mpr ⟨_, member, rfl⟩
    rw [all] at here
    exact List.eq_of_mem_replicate here
  obtain ⟨nonempty, held, within⟩ := taken.text_of_oneOrMore bodies
  exact ⟨⟨nonempty, held⟩, within⟩

theorem digits_of_search {found : Match} {slot : Nat}
    (searched : locationPattern.search? text = some found) (captured : found.text? slot = some digits) :
    Digits digits ∧ digits <:+: text := by
  obtain ⟨n, -, matched⟩ := Pattern.matchAt?_of_search? searched
  obtain ⟨outcome, way, rfl⟩ := Pattern.matchAt?_eq_some_iff.mp matched
  obtain ⟨part, here, rfl⟩ := Option.map_eq_some_iff.mp captured
  have among : part ∈ outcome.2 := List.mem_of_find?_eq_some here
  rcases Pattern.takenBy_of_mem (List.mem_of_mem_head? way) among with none | taken
  · contradiction
  · exact digits_of_takenBy taken

/-- The numbers of a location are parts of the text. -/
theorem digits_of_locationText? {line : List Char} {column : Option (List Char)}
    (located : locationText? text = some (line, column)) :
    (Digits line ∧ line <:+: text) ∧ ∀ digits ∈ column, Digits digits ∧ digits <:+: text := by
  rw [locationText?] at located
  obtain ⟨found, searched, located⟩ := Option.bind_eq_some_iff.mp located
  obtain ⟨first, one, located⟩ := Option.bind_eq_some_iff.mp located
  obtain ⟨rfl, rfl⟩ := Prod.mk.inj (Option.some.inj located)
  constructor
  · rw [Option.orElse_eq_orElse, Option.orElse_eq_or] at one
    rcases Option.or_eq_some_iff.mp one with here | ⟨-, here⟩
    · exact digits_of_search searched here
    · exact digits_of_search searched here
  · intro digits member
    rw [Option.orElse_eq_orElse, Option.orElse_eq_or] at member
    rcases Option.or_eq_some_iff.mp member with here | ⟨-, here⟩
    · exact digits_of_search searched here
    · exact digits_of_search searched here

/-- A text without long numbers can be searched for a location. -/
theorem exists_locate? (short : ∀ digits, Digits digits → digits <:+: text →
    digits.length ≤ Text.maxDigits) : ∃ location, locate? text = .ok location := by
  have read : ∀ {digits}, Digits digits ∧ digits <:+: text → ∃ n, Text.readDecimal digits = .ok n := by
    rintro digits ⟨some, within⟩
    rw [Text.readDecimal, if_neg (Nat.not_lt.mpr (short digits some within))]
    exact ⟨_, rfl⟩
  rw [locate?]
  cases located : locationText? text with
  | none => exact ⟨none, rfl⟩
  | some numbers =>
    obtain ⟨line, column⟩ := numbers
    obtain ⟨first, second⟩ := digits_of_locationText? located
    obtain ⟨n, readLine⟩ := read first
    cases column with
    | none =>
      simp only [readLine]
      exact ⟨_, rfl⟩
    | some column =>
      obtain ⟨m, readColumn⟩ := read (second column rfl)
      simp only [readLine, readColumn]
      exact ⟨_, rfl⟩

theorem exists_locateIn? {texts : List (List Char)}
    (short : ∀ text ∈ texts, ∀ digits, Digits digits → digits <:+: text →
      digits.length ≤ Text.maxDigits) : ∃ location, locateIn? texts = .ok location := by
  induction texts with
  | nil => exact ⟨none, rfl⟩
  | cons text texts ih =>
    obtain ⟨first, others⟩ := List.forall_mem_cons.mp short
    obtain ⟨location, located⟩ := exists_locate? first
    rw [locateIn?, located]
    cases location with
    | none => exact ih others
    | some place => exact ⟨some place, rfl⟩

end Numbers

/-- A location starts behind a text: a line in words, or two numbers behind colons. -/
def LocatedAt (front text : List Char) : Prop :=
  ((Cursor.between front text).atWordBoundary = true ∧ ∃ word gap line rest,
    text = word ++ (gap ++ (line ++ rest)) ∧ Spells "line" word ∧
      (∀ c ∈ gap, isBlank c = true) ∧ Digits line) ∨
  ∃ line column rest, text = ':' :: (line ++ ':' :: (column ++ rest)) ∧ Digits line ∧ Digits column

/-- A line in words, up to its number. -/
def lineWords : Pattern :=
  .wordBoundary ++ .anyCase "line" ++ .space ++ number 1

/-- Two numbers behind colons. -/
def colonNumbers : Pattern :=
  .word ":" ++ number 3 ++ .word ":" ++ number 4

theorem exists_lineWords_iff : (∃ outcome, outcome ∈ lineWords.outcomes (.between front text) []) ↔
    (Cursor.between front text).atWordBoundary = true ∧ ∃ word gap line rest,
      text = word ++ (gap ++ (line ++ rest)) ∧ Spells "line" word ∧ (∀ c ∈ gap, isBlank c = true) ∧
        Digits line := by
  constructor
  · rintro ⟨outcome, way⟩
    obtain ⟨_, way, numbered⟩ := Pattern.mem_outcomes_append.mp way
    obtain ⟨_, way, spaced⟩ := Pattern.mem_outcomes_append.mp way
    obtain ⟨_, bounded, spelled⟩ := Pattern.mem_outcomes_append.mp way
    obtain ⟨boundary, rfl⟩ := Pattern.mem_outcomes_wordBoundary.mp bounded
    obtain ⟨word, _, rfl, spells, rfl⟩ := Pattern.mem_outcomes_anyCase.mp spelled
    obtain ⟨gap, _, rfl, blank, rfl⟩ := Pattern.mem_outcomes_many.mp spaced
    obtain ⟨line, rest, rfl, nonempty, digits, -⟩ := Pattern.mem_outcomes_capture.mp numbered
    exact ⟨boundary, word, gap, line, rest, rfl, spells, blank, nonempty, digits⟩
  · rintro ⟨boundary, word, gap, line, rest, rfl, spells, blank, nonempty, digits⟩
    refine ⟨(.between (front ++ word ++ gap ++ line) rest,
      [Pattern.captureOf 1 (front ++ word ++ gap) line rest]), ?_⟩
    refine Pattern.mem_outcomes_append.mpr ⟨(.between (front ++ word ++ gap) (line ++ rest), []), ?_, ?_⟩
    · refine Pattern.mem_outcomes_append.mpr
        ⟨(.between (front ++ word) (gap ++ (line ++ rest)), []), ?_, ?_⟩
      · refine Pattern.mem_outcomes_append.mpr
          ⟨(.between front (word ++ (gap ++ (line ++ rest))), []), ?_, ?_⟩
        · exact Pattern.mem_outcomes_wordBoundary.mpr ⟨boundary, rfl⟩
        · exact Pattern.mem_outcomes_anyCase.mpr ⟨word, _, rfl, spells, rfl⟩
      · exact Pattern.mem_outcomes_many.mpr ⟨gap, _, rfl, blank, rfl⟩
    · exact Pattern.mem_outcomes_capture.mpr ⟨line, rest, rfl, nonempty, digits, rfl⟩

theorem exists_colonNumbers_iff :
    (∃ outcome, outcome ∈ colonNumbers.outcomes (.between front text) []) ↔ ∃ line column rest,
      text = ':' :: (line ++ ':' :: (column ++ rest)) ∧ Digits line ∧ Digits column := by
  constructor
  · rintro ⟨outcome, way⟩
    obtain ⟨_, way, second⟩ := Pattern.mem_outcomes_append.mp way
    obtain ⟨_, way, colon⟩ := Pattern.mem_outcomes_append.mp way
    obtain ⟨_, opening, first⟩ := Pattern.mem_outcomes_append.mp way
    obtain ⟨_, rfl, rfl⟩ := Pattern.mem_outcomes_text.mp opening
    obtain ⟨line, _, rfl, someLine, line_digits, rfl⟩ := Pattern.mem_outcomes_capture.mp first
    obtain ⟨_, rfl, rfl⟩ := Pattern.mem_outcomes_text.mp colon
    obtain ⟨column, rest, rfl, someColumn, column_digits, -⟩ := Pattern.mem_outcomes_capture.mp second
    exact ⟨line, column, rest, rfl, ⟨someLine, line_digits⟩, someColumn, column_digits⟩
  · rintro ⟨line, column, rest, rfl, ⟨someLine, line_digits⟩, someColumn, column_digits⟩
    let numbered : Text.Outcome :=
      (.between (front ++ [':'] ++ line) (':' :: (column ++ rest)),
        [Pattern.captureOf 3 (front ++ [':']) line (':' :: (column ++ rest))])
    let divided : Text.Outcome :=
      (.between (front ++ [':'] ++ line ++ [':']) (column ++ rest), numbered.2)
    refine ⟨(.between (front ++ [':'] ++ line ++ [':'] ++ column) rest,
      Pattern.captureOf 4 (front ++ [':'] ++ line ++ [':']) column rest :: numbered.2), ?_⟩
    refine Pattern.mem_outcomes_append.mpr ⟨divided, ?_, ?_⟩
    · refine Pattern.mem_outcomes_append.mpr ⟨numbered, ?_, ?_⟩
      · refine Pattern.mem_outcomes_append.mpr
          ⟨(.between (front ++ [':']) (line ++ ':' :: (column ++ rest)), []), ?_, ?_⟩
        · exact Pattern.mem_outcomes_text.mpr ⟨_, rfl, rfl⟩
        · exact Pattern.mem_outcomes_capture.mpr ⟨line, _, rfl, someLine, line_digits, rfl⟩
      · exact Pattern.mem_outcomes_text.mpr ⟨_, rfl, rfl⟩
    · exact Pattern.mem_outcomes_capture.mpr ⟨column, rest, rfl, someColumn, column_digits, rfl⟩

theorem locatedAt_iff :
    LocatedAt front text ↔ ∃ outcome, outcome ∈ locationPattern.outcomes (.between front text) [] := by
  constructor
  · rintro (inWords | colons)
    · obtain ⟨outcome, way⟩ := exists_lineWords_iff.mpr inWords
      refine ⟨outcome, List.mem_append_left _ (Pattern.mem_outcomes_append.mpr ⟨outcome, way, ?_⟩)⟩
      exact Pattern.mem_outcomes_optional.mpr (.inr rfl)
    · obtain ⟨outcome, way⟩ := exists_colonNumbers_iff.mpr colons
      exact ⟨outcome, List.mem_append_right _ way⟩
  · rintro ⟨outcome, way⟩
    rcases List.mem_append.mp way with inWords | colons
    · obtain ⟨middle, way, -⟩ := Pattern.mem_outcomes_append.mp inWords
      exact .inl (exists_lineWords_iff.mp ⟨middle, way⟩)
    · exact .inr (exists_colonNumbers_iff.mp ⟨outcome, colons⟩)

theorem occursIn_location_iff : locationPattern.occursIn text = false ↔
    ∀ front rest, text = front ++ rest → ¬LocatedAt front rest := by
  rw [Pattern.occursIn_eq_false_iff]
  simp only [locatedAt_iff, not_exists, List.eq_nil_iff_forall_not_mem]

theorem locate?_of_unlocated (unlocated : locationPattern.occursIn text = false) :
    locate? text = .ok none := by
  have none : locationPattern.search? text = none := by
    simpa [Pattern.occursIn] using unlocated
  rw [locate?, locationText?, none]
  rfl

section Across

variable {part more rest tail : List Char} {c : Char}

theorem Digits.not_mem (digits : Digits part) (other : isDigit c = false) : c ∉ part := by
  intro member
  rw [digits.2 c member] at other
  contradiction

/-- Blanks and digits that start in front of a space with a visible character behind end before it. -/
theorem gap_ends_before {gap line : List Char} (blank : ∀ c ∈ gap, isBlank c = true)
    (digits : Digits line) (visible : isBlank c = false) (other : isDigit c = false)
    (same : rest ++ ' ' :: c :: tail = gap ++ (line ++ more)) :
    ∃ left, rest = gap ++ (line ++ left) := by
  obtain ⟨d, others, rfl⟩ := List.exists_cons_of_ne_nil digits.1
  have digit : isDigit d = true := digits.2 d List.mem_cons_self
  rcases List.append_eq_append_iff.mp same with ⟨surplus, rfl, beyond⟩ | ⟨within, rfl, behind⟩
  · match surplus, beyond with
    | [], beyond =>
      obtain ⟨rfl, -⟩ := List.cons.inj beyond
      exact absurd digit (by decide)
    | [_], beyond =>
      obtain ⟨-, beyond⟩ := List.cons.inj beyond
      obtain ⟨rfl, -⟩ := List.cons.inj beyond
      rw [other] at digit
      contradiction
    | _ :: e :: surplus, beyond =>
      obtain ⟨-, beyond⟩ := List.cons.inj beyond
      obtain ⟨rfl, -⟩ := List.cons.inj beyond
      have := blank c (by simp)
      rw [visible] at this
      contradiction
  · obtain ⟨left, rfl, -⟩ := Text.ends_before behind.symm (digits.not_mem (by decide))
    exact ⟨left, rfl⟩

theorem atWordBoundary_append {word : List Char} (nonempty : word ≠ []) (before more others : List Char) :
    (Cursor.between before (word ++ more)).atWordBoundary =
      (Cursor.between before (word ++ others)).atWordBoundary := by
  obtain ⟨d, word, rfl⟩ := List.exists_cons_of_ne_nil nonempty
  rfl

/-- No location that starts in front of a space reaches beyond it, if a visible character that is no
digit stands behind. -/
theorem not_locatedAt_across (alone : ¬LocatedAt front rest) (visible : isBlank c = false)
    (other : isDigit c = false) : ¬LocatedAt front (rest ++ ' ' :: c :: tail) := by
  rintro (⟨boundary, word, gap, line, more, same, spells, blank, digits⟩ |
    ⟨line, column, more, same, line_digits, column_digits⟩)
  · have spaceless : ' ' ∉ word := spells.not_mem (by decide)
    have nonempty : word ≠ [] := by
      rintro rfl
      cases spells
    obtain ⟨left, rfl, behind⟩ := Text.ends_before same spaceless
    obtain ⟨left, rfl⟩ := gap_ends_before blank digits visible other behind.symm
    rw [same, atWordBoundary_append nonempty front _ (gap ++ (line ++ left))] at boundary
    exact alone (.inl ⟨boundary, word, gap, line, left, rfl, spells, blank, digits⟩)
  · cases rest with
    | nil => exact absurd (List.cons.inj same).1 (by decide)
    | cons d rest =>
      obtain ⟨rfl, numbers⟩ := List.cons.inj same
      obtain ⟨left, rfl, behind⟩ := Text.ends_before numbers (line_digits.not_mem (by decide))
      cases left with
      | nil => exact absurd (List.cons.inj behind).1 (by decide)
      | cons d left =>
        obtain ⟨rfl, second⟩ := List.cons.inj behind
        obtain ⟨left, rfl, -⟩ :=
          Text.ends_before second.symm (column_digits.not_mem (by decide))
        exact alone (.inr ⟨line, column, left, rfl, line_digits, column_digits⟩)

end Across

section Words

variable {line column front rest : List Char} {captures : List Capture}

theorem head_digits (digits : Digits line) (rest : List Char) :
    ∀ c, (line ++ rest).head? = some c → isBlank c = false := by
  intro c first
  obtain ⟨d, others, rfl⟩ := List.exists_cons_of_ne_nil digits.1
  obtain rfl : d = c := Option.some.inj first
  exact Text.isBlank_of_isDigit (digits.2 d List.mem_cons_self)

/-- Digits end in front of a colon. -/
theorem ends_colon (rest : List Char) : ∀ c, (':' :: rest).head? = some c → isDigit c = false := by
  intro c first
  obtain rfl : ':' = c := Option.some.inj first
  decide

theorem takes_number (slot : Nat) (digits : Digits line)
    (ends : ∀ c, rest.head? = some c → isDigit c = false) :
    (number slot).Takes front line rest captures (Pattern.captureOf slot front line rest :: captures) :=
  Pattern.takes_capture (Pattern.takes_oneOrMore digits.1 digits.2 ends)

/-- The column of a location in words. -/
def columnPattern : Pattern :=
  .space ++ .optional (.word "," ++ .space) ++
    .orElse (.anyCase "char") (.anyCase "col" ++ .optional (.anyCase "umn")) ++ .space ++ number 2

theorem takes_column (digits : Digits column) (ends : ∀ c, rest.head? = some c → isDigit c = false) :
    columnPattern.Takes front ([' '] ++ [] ++ "char".toList ++ [' '] ++ column) rest captures
      (Pattern.captureOf 2 (front ++ ([' '] ++ [] ++ "char".toList ++ [' '])) column rest :: captures) := by
  have blank : ∀ c ∈ [' '], isBlank c = true := by decide
  have spaced : Pattern.space.Takes front [' '] ([] ++ ("char".toList ++ ([' '] ++ (column ++ rest))))
      captures captures := by
    refine Pattern.takes_many blank fun c first => ?_
    obtain rfl : 'c' = c := Option.some.inj first
    decide
  have comma : (Pattern.word "," ++ Pattern.space).outcomes
      (.between (front ++ [' ']) ("char".toList ++ ([' '] ++ (column ++ rest)))) captures = [] := rfl
  have joined := Pattern.takes_append spaced (Pattern.takes_optional_nil comma)
  have unit : (Pattern.orElse (.anyCase "char") (.anyCase "col" ++ .optional (.anyCase "umn"))).Takes
      (front ++ ([' '] ++ [])) "char".toList ([' '] ++ (column ++ rest)) captures captures :=
    Pattern.takes_orElse_left (Pattern.takes_anyCase (Text.spells_self "char"))
  have spelled := Pattern.takes_append joined unit
  have parted := Pattern.takes_append spelled (Pattern.takes_many blank (head_digits digits rest))
  exact Pattern.takes_append parted (takes_number 2 digits ends)

/-- A location in words is taken as it is written. -/
theorem takes_location (boundary : front.getLast?.any Text.isWord = false) (line_digits : Digits line)
    (column_digits : Digits column) (ends : ∀ c, rest.head? = some c → isDigit c = false) :
    ∃ captured, locationPattern.Takes front
        ([] ++ "line".toList ++ [' '] ++ line ++ ([' '] ++ [] ++ "char".toList ++ [' '] ++ column)) rest []
        captured ∧
      captured.map (fun part => (part.slot, part.text)) = [(2, column), (1, line)] := by
  have opened : Pattern.wordBoundary.Takes front [] ("line".toList ++ ([' '] ++ (line ++
      ([' '] ++ [] ++ "char".toList ++ [' '] ++ column ++ rest)))) [] [] := by
    refine Pattern.takes_wordBoundary ?_
    have here : (Cursor.between front ("line".toList ++ ([' '] ++ (line ++
      ([' '] ++ [] ++ "char".toList ++ [' '] ++ column ++ rest))))).isBefore Text.isWord = true := by
      change Text.isWord 'l' = true
      decide
    rw [Cursor.atWordBoundary, here, Cursor.isAfter, Cursor.between, boundary]
    rfl
  have blank : ∀ c ∈ [' '], isBlank c = true := by decide
  have spelled := Pattern.takes_append opened (Pattern.takes_anyCase (Text.spells_self "line"))
  have spaced := Pattern.takes_append spelled (Pattern.takes_many blank (head_digits line_digits _))
  obtain ⟨captured, one, shown⟩ : ∃ captured, (number 1).Takes
      (front ++ ([] ++ "line".toList ++ [' '])) line
      ([' '] ++ [] ++ "char".toList ++ [' '] ++ column ++ rest) [] captured ∧
      captured.map (fun part => (part.slot, part.text)) = [(1, line)] := by
    refine ⟨_, takes_number 1 line_digits ?_, by simp⟩
    intro c first
    obtain rfl : ' ' = c := Option.some.inj first
    decide
  have numbered := Pattern.takes_append spaced one
  have whole := Pattern.takes_append numbered
    (Pattern.takes_optional (takes_column column_digits ends))
  exact ⟨_, Pattern.takes_orElse_left whole, by simp [shown]⟩

/-- Words and numbers with a space between them. -/
def spaced (word number unit other : List Char) : List Char :=
  word ++ ' ' :: number ++ ' ' :: unit ++ ' ' :: other

theorem spaced_eq (word number unit other : List Char) :
    [] ++ word ++ [' '] ++ number ++ ([' '] ++ [] ++ unit ++ [' '] ++ other) =
      spaced word number unit other := by
  simp [spaced]

/-- A location in words, with a column. -/
def inWords (line column : List Char) : List Char :=
  spaced "line".toList line "char".toList column

theorem matchAt?_eq_none_iff : locationPattern.matchAt? (.between front text) = none ↔
    ¬LocatedAt front text := by
  rw [Pattern.matchAt?_eq_none_iff, locatedAt_iff, not_exists]

/-- Where a location is taken, and none starts in front, its numbers are those that are found. -/
theorem locationText?_of_takes {part : List Char} {captured : List Capture}
    (passes : locationPattern.Passes (front ++ (part ++ rest)) 0 front.length)
    (taken : locationPattern.Takes front part rest [] captured) {numbers : List (Nat × List Char)}
    (shown : captured.map (fun part => (part.slot, part.text)) = numbers) :
    locationText? (front ++ (part ++ rest)) = ((numbers.lookup 1).or (numbers.lookup 3)).map fun line =>
      (line, (numbers.lookup 2).or (numbers.lookup 4)) := by
  have matched := Pattern.matchAt?_of_takes taken
  have searched : locationPattern.search? (front ++ (part ++ rest)) =
      some ⟨.between front (part ++ rest), .between (front ++ part) rest, captured⟩ := by
    rw [Pattern.search?_eq_searchAt, Pattern.searchAt_passes passes (Nat.zero_le _) (by simp),
      Pattern.searchAt_eq, Text.placeAt_length, matched, Option.some_or]
  rw [locationText?, searched]
  simp only [Match.text?_eq_lookup, shown, Option.bind_eq_bind, Option.bind_some,
    Option.orElse_eq_orElse, Option.orElse_eq_or]
  cases (numbers.lookup 1).or (numbers.lookup 3) <;> rfl

/-- Behind a text without locations and a space, the first location is the one that starts there. -/
theorem locationText?_behind (unlocated : locationPattern.occursIn front = false)
    (line_digits : Digits line) (column_digits : Digits column)
    (ends : ∀ c, rest.head? = some c → isDigit c = false) :
    locationText? (front ++ ' ' :: (inWords line column ++ rest)) = some (line, some column) := by
  have passes : locationPattern.Passes ((front ++ [' ']) ++ (inWords line column ++ rest)) 0
      (front ++ [' ']).length := by
    obtain ⟨tail, words⟩ : ∃ tail, inWords line column = 'l' :: tail := ⟨_, rfl⟩
    rw [words, List.cons_append]
    apply Pattern.passes_through
    intro before part split
    have alone := occursIn_location_iff.mp unlocated before part split
    exact matchAt?_eq_none_iff.mpr (not_locatedAt_across alone (by decide) (by decide))
  have boundary : (front ++ [' ']).getLast?.any Text.isWord = false := by
    rw [List.getLast?_concat]
    decide
  obtain ⟨captured, taken, shown⟩ := takes_location boundary line_digits column_digits ends
  rw [spaced_eq] at taken
  rw [List.append_cons]
  exact locationText?_of_takes passes taken shown

end Words

end ContractInspector.Diagnostic
