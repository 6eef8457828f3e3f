import ContractInspector.Diagnostic.Parse
import ContractInspector.Proofs.Text.Behind
import ContractInspector.Proofs.Text.Blanks
import ContractInspector.Proofs.Text.Stripping

/-! Where error markers stand in compiler output. A match of a marker takes the rest of its line
(`said_of_mem`), so every marker that says something is the one matched or stands in what the matched
one says (`exists_message`). -/
namespace ContractInspector.Diagnostic

open Text (Cursor Match Pattern Spells isBlank strip placeAt)

variable {word : String} {text front written gap message rest said : List Char} {found : Match}

/-- A line ends in front of a text. -/
def EndsLine (rest : List Char) : Prop :=
  ∀ c, rest.head? = some c → c = '\n'

/-- A text says something on the rest of a line, behind a marker. -/
def Announces (word : String) (text said : List Char) : Prop :=
  ∃ front written rest, text = front ++ (written ++ ':' :: (said ++ rest)) ∧
    Spells word written ∧ '\n' ∉ said ∧ EndsLine rest

theorem takes_marker (spells : Spells word written) (blank : ∀ c ∈ gap, isBlank c = true)
    (visible : ∀ c, message.head? = some c → isBlank c = false) (nonempty : message ≠ [])
    (inLine : '\n' ∉ message) (ends : EndsLine rest) :
    (marker word).Takes front (written ++ [':'] ++ gap ++ message) rest []
      [Pattern.captureOf 1 (front ++ (written ++ [':'] ++ gap)) message rest] := by
  have head : ∀ c, (message ++ rest).head? = some c → isBlank c = false := by
    intro c first
    obtain ⟨d, message, rfl⟩ := List.exists_cons_of_ne_nil nonempty
    exact visible c first
  have inside : ∀ c ∈ message, (c != '\n') = true := by
    intro c member
    exact bne_iff_ne.mpr fun same => inLine (same ▸ member)
  have stop : ∀ c, rest.head? = some c → (c != '\n') = false := by
    intro c first
    rw [ends c first]
    rfl
  have spelled : (Pattern.anyCase word ++ Pattern.word ":").Takes front (written ++ [':'])
      (gap ++ (message ++ rest)) [] [] :=
    Pattern.takes_append (Pattern.takes_anyCase spells) (Pattern.takes_text [':'])
  have spaced := Pattern.takes_append spelled (Pattern.takes_many blank head)
  exact Pattern.takes_append spaced (Pattern.takes_capture (Pattern.takes_oneOrMore nonempty inside stop))

/-- A marker matches where anything at all stands behind it on its line. -/
theorem exists_matchAt?_marker (spells : Spells word written) (nonempty : said ≠ [])
    (inLine : '\n' ∉ said) (front rest : List Char) :
    ∃ found, (marker word).matchAt? (.between front (written ++ ':' :: (said ++ rest))) = some found := by
  have inside : ∀ c ∈ said, (c != '\n') = true := by
    intro c member
    exact bne_iff_ne.mpr fun same => inLine (same ▸ member)
  let colon : Text.Outcome := (.between (front ++ written ++ [':']) (said ++ rest), [])
  let reached : Text.Outcome := (.between (front ++ written ++ [':'] ++ said) rest,
    [Pattern.captureOf 1 (front ++ written ++ [':']) said rest])
  have way : reached ∈ (marker word).outcomes (.between front (written ++ ':' :: (said ++ rest))) [] := by
    refine Pattern.mem_outcomes_append.mpr ⟨colon, ?_, ?_⟩
    · refine Pattern.mem_outcomes_append.mpr ⟨colon, ?_, ?_⟩
      · refine Pattern.mem_outcomes_append.mpr
          ⟨(.between (front ++ written) (':' :: (said ++ rest)), []), ?_, ?_⟩
        · exact Pattern.mem_outcomes_anyCase.mpr ⟨written, _, rfl, spells, rfl⟩
        · exact Pattern.mem_outcomes_text.mpr ⟨said ++ rest, rfl, rfl⟩
      · exact Pattern.mem_outcomes_many.mpr ⟨[], said ++ rest, rfl, nofun, by simp [colon]⟩
    · exact Pattern.mem_outcomes_capture.mpr ⟨said, rest, rfl, nonempty, inside, rfl⟩
  exact Pattern.exists_matchAt?_of_mem way

/-- Where the word of a marker is not spelled in front of a colon, the marker has no match. -/
theorem matchAt?_of_unspelled
    (absent : ∀ written rest, text = written ++ ':' :: rest → ¬Spells word written) :
    (marker word).matchAt? (.between front text) = none := by
  apply Pattern.matchAt?_eq_none_iff.mpr
  intro outcome way
  obtain ⟨_, ways, -⟩ := Pattern.mem_outcomes_append.mp way
  obtain ⟨_, ways, -⟩ := Pattern.mem_outcomes_append.mp ways
  obtain ⟨_, spelled, colon⟩ := Pattern.mem_outcomes_append.mp ways
  obtain ⟨written, _, rfl, spells, rfl⟩ := Pattern.mem_outcomes_anyCase.mp spelled
  obtain ⟨rest, rfl, -⟩ := Pattern.mem_outcomes_text.mp colon
  exact absent written rest rfl spells

/-- A match of a marker, taken apart: the blanks behind the colon may hold line ends, the message not. -/
structure Marked (word : String) (text : List Char) (found : Match) (front written gap message
    rest : List Char) : Prop where
  split : text = front ++ (written ++ ':' :: (gap ++ (message ++ rest)))
  start : found.start.offset = front.length
  stop : found.stop.offset = front.length + written.length + 1 + gap.length + message.length
  spells : Spells word written
  blank : ∀ c ∈ gap, isBlank c = true
  nonempty : message ≠ []
  inLine : '\n' ∉ message
  ends : EndsLine rest
  text_eq : found.text 1 = message

theorem exists_marked (member : found ∈ (marker word).matchesIn text) :
    ∃ front written gap message rest, Marked word text found front written gap message rest := by
  obtain ⟨n, inside, matched⟩ := Pattern.matchAt?_of_mem_matchesIn member
  obtain ⟨front, behind, outcome, rfl, rfl, way, rfl⟩ := Pattern.exists_way inside matched
  obtain ⟨middle, ways, last⟩ := Pattern.head?_outcomes_append way
  obtain ⟨_, ways, spaced⟩ := Pattern.mem_outcomes_append.mp ways
  obtain ⟨_, ways, colon⟩ := Pattern.mem_outcomes_append.mp ways
  obtain ⟨written, _, rfl, spells, rfl⟩ := Pattern.mem_outcomes_anyCase.mp ways
  obtain ⟨_, rfl, rfl⟩ := Pattern.mem_outcomes_text.mp colon
  obtain ⟨gap, _, rfl, blank, rfl⟩ := Pattern.mem_outcomes_many.mp spaced
  obtain ⟨message, rest, rfl, nonempty, inLine, ends, rfl⟩ := Pattern.head?_outcomes_capture last
  refine ⟨front, written, gap, message, rest, by simp, rfl, ?_, spells, blank, nonempty, ?_, ?_, ?_⟩
  · simp
    omega
  · intro member
    simpa using inLine _ member
  · intro c first
    simpa using ends c first
  · simp [Match.text, Match.text?, Match.capture?]

theorem exists_first (spells : Spells "error" written) :
    ∃ c letters, written = c :: letters ∧ Text.sameLetter 'e' c = true := by
  cases spells with
  | cons held => exact ⟨_, _, rfl, held⟩

section Overlap

theorem not_isBlank_of_letter {c : Char} (letter : Text.sameLetter 'e' c = true) : isBlank c = false := by
  cases blank : isBlank c with
  | false => rfl
  | true =>
    have lower := Text.toLower_of_isBlank blank
    obtain rfl : c = 'e' := by simpa [Text.sameLetter, lower] using letter
    exact absurd blank (by decide)

/-- The first letter of the word does not come again in it, and is neither a colon nor a blank. -/
theorem not_restarts {c d : Char} (spells : Spells "error" (d :: written))
    (blank : ∀ c ∈ gap, isBlank c = true) (member : c ∈ written ++ ':' :: gap) :
    Text.sameLetter 'e' c = false := by
  have others : ∀ c ∈ written, Text.sameLetter 'r' c = true ∨ Text.sameLetter 'o' c = true := by
    have letters : "error".toList = ['e', 'r', 'r', 'o', 'r'] := rfl
    rw [Spells, letters] at spells
    rcases spells with _ | ⟨-, _ | ⟨second, _ | ⟨third, _ | ⟨fourth, _ | ⟨fifth, ⟨⟩⟩⟩⟩⟩⟩
    simp [second, third, fourth, fifth]
  rcases List.mem_append.mp member with inWord | behind
  · rcases others c inWord with same | same <;> simp_all [Text.sameLetter]
  · rcases List.mem_cons.mp behind with rfl | inGap
    · rfl
    · refine Bool.eq_false_iff.mpr fun letter => ?_
      exact absurd (blank c inGap) (by simp [not_isBlank_of_letter letter])

theorem line_unique {line other rest behind : List Char} (same : line ++ rest = other ++ behind)
    (inLine : '\n' ∉ line) (inOther : '\n' ∉ other) (ends : EndsLine rest) (stops : EndsLine behind) :
    line = other :=
  ((Text.spans_ne_iff.mpr ⟨inLine, ends⟩).unique (Text.spans_ne_iff.mpr ⟨inOther, stops⟩) same).1

/-- A marker that starts inside a match of another one is a part of what that one says. -/
theorem said_within {front' written' : List Char}
    (marked : Marked "error" text found front' written' gap message rest)
    {behind : List Char} (split : text = front ++ (written ++ ':' :: (said ++ behind)))
    (spells : Spells "error" written) (inLine : '\n' ∉ said) (ends : EndsLine behind)
    (after : found.start.offset < front.length) (inside : front.length < found.stop.offset) :
    ∃ before, message = before ++ (written ++ ':' :: said) := by
  rw [marked.start] at after
  rw [marked.stop] at inside
  obtain ⟨d, others, rfl, -⟩ := exists_first marked.spells
  obtain ⟨c, letters, rfl, first⟩ := exists_first spells
  have same : (front' ++ [d]) ++ ((others ++ ':' :: gap) ++ (message ++ rest)) =
      front ++ ((c :: letters ++ ':' :: said) ++ behind) := by
    simpa using marked.split.symm.trans split
  -- The text is cut behind the first letter of the outer marker, and then in front of its message.
  obtain ⟨passed, rfl⟩ : front' ++ [d] <+: front := by
    have outer := List.prefix_append (front' ++ [d]) ((others ++ ':' :: gap) ++ (message ++ rest))
    have inner := List.prefix_append front ((c :: letters ++ ':' :: said) ++ behind)
    rw [← same] at inner
    refine List.prefix_of_prefix_length_le outer inner ?_
    rw [List.length_append]
    exact after
  rw [List.append_assoc _ passed, List.append_cancel_left_eq] at same
  obtain ⟨before, rfl, tail⟩ : ∃ before, passed = (others ++ ':' :: gap) ++ before ∧
      message ++ rest = before ++ ((c :: letters ++ ':' :: said) ++ behind) := by
    rcases List.append_eq_append_iff.mp same with later | ⟨part, letter, tail⟩
    · exact later
    · cases part with
      | nil => exact ⟨[], by simpa using letter.symm, by simpa using tail.symm⟩
      | cons e part =>
        obtain ⟨rfl, -⟩ := List.cons.inj tail
        have member : c ∈ others ++ ':' :: gap := by
          rw [letter]
          simp
        have restarts := not_restarts marked.spells marked.blank member
        exact absurd first (by simp [restarts])
  rcases List.append_eq_append_iff.mp tail with ⟨_, rfl, -⟩ | ⟨part, rfl, line⟩
  · simp at inside
    omega
  · have partInLine : '\n' ∉ part := by
      intro member
      exact marked.inLine (List.mem_append_right _ member)
    have writtenInLine : '\n' ∉ c :: letters ++ ':' :: said := by
      intro member
      rcases List.mem_append.mp member with inWord | inSaid
      · exact spells.not_mem (by decide) inWord
      · exact inLine (List.mem_of_ne_of_mem (by decide) inSaid)
    rw [← line_unique line writtenInLine partInLine ends marked.ends]
    exact ⟨before, rfl⟩

end Overlap

/-- Every marker that says something visible is the end of a message. -/
theorem exists_message (announces : Announces "error" text said) (shown : ∃ c ∈ said, isBlank c = false) :
    ∃ found ∈ errorMarker.matchesIn text, strip said <:+ strip (found.text 1) := by
  obtain ⟨front, written, rest, rfl, spells, inLine, ends⟩ := announces
  obtain ⟨gap, c, message, rfl, blank, isVisible⟩ := Text.exists_visible shown
  have taken : errorMarker.Takes front (written ++ [':'] ++ gap ++ c :: message) rest [] _ :=
    takes_marker spells blank (by simpa using isVisible) (by simp)
      (fun member => inLine (List.mem_append_right _ member)) ends
  have matched := Pattern.matchAt?_of_takes taken
  rw [← Text.placeAt_length] at matched
  have same : front ++ (written ++ [':'] ++ gap ++ c :: message ++ rest) =
      front ++ (written ++ ':' :: (gap ++ c :: message ++ rest)) := by simp
  rw [same] at matched
  obtain ⟨found, member, rfl | ⟨after, inside⟩⟩ :=
    Pattern.exists_mem_matchesIn (by rw [List.length_append]; omega) matched
  · refine ⟨_, member, ?_⟩
    rw [Text.strip_append_left blank]
    simp [Match.text, Match.text?, Match.capture?]
  · obtain ⟨front', written', gap', message', rest', marked⟩ := exists_marked member
    obtain ⟨before, whole⟩ := said_within marked rfl spells inLine ends after inside
    refine ⟨found, member, ?_⟩
    have grouped : before ++ (written ++ ':' :: (gap ++ c :: message)) =
        (before ++ written ++ [':']) ++ (gap ++ c :: message) := by simp
    rw [marked.text_eq, whole, grouped]
    exact Text.strip_suffix shown _

section Quiet

variable {part more before tail : List Char} {c : Char}

/-- The text of an error marker without what it says. -/
def markerWord : Pattern :=
  .anyCase "error" ++ .word ":"

/-- A text starts with a marker. -/
def Starts (text : List Char) : Prop :=
  ∃ written rest, text = written ++ ':' :: rest ∧ Spells "error" written

theorem starts_of_outcome {outcome : Text.Outcome}
    (way : outcome ∈ markerWord.outcomes (.between front text) []) : Starts text := by
  obtain ⟨_, spelled, colon⟩ := Pattern.mem_outcomes_append.mp way
  obtain ⟨written, _, rfl, spells, rfl⟩ := Pattern.mem_outcomes_anyCase.mp spelled
  obtain ⟨rest, rfl, -⟩ := Pattern.mem_outcomes_text.mp colon
  exact ⟨written, rest, rfl, spells⟩

theorem not_starts_of_unmarked (unmarked : markerWord.occursIn (before ++ part) = false) :
    ¬Starts part := by
  rintro ⟨written, rest, rfl, spells⟩
  have taken : markerWord.Takes before (written ++ [':']) rest [] [] :=
    Pattern.takes_append (Pattern.takes_anyCase spells) (Pattern.takes_text [':'])
  have absent := Pattern.occursIn_eq_false_iff.mp unmarked before _ rfl
  rw [Pattern.Takes, List.append_assoc, List.singleton_append, absent] at taken
  contradiction

/-- No marker starts in a part of a text that `tail` stands behind. -/
def Quiet (part tail : List Char) : Prop :=
  ∀ before after, part = before ++ after → after ≠ [] → ¬Starts (after ++ tail)

theorem quiet_append (first : Quiet part (more ++ tail)) (second : Quiet more tail) :
    Quiet (part ++ more) tail := by
  intro before after same nonempty
  rcases List.append_eq_append_iff.mp same with ⟨surplus, rfl, rfl⟩ | ⟨surplus, rfl, rfl⟩
  · exact second surplus after rfl nonempty
  · cases surplus with
    | nil =>
      rw [List.nil_append] at nonempty ⊢
      exact second [] more rfl nonempty
    | cons c surplus =>
      rw [List.append_assoc]
      exact first before (c :: surplus) rfl (by simp)

theorem quiet_of_free (free : ∀ c ∈ part, Text.sameLetter 'e' c = false) (tail : List Char) :
    Quiet part tail := by
  rintro before after rfl nonempty ⟨written, rest, same, spells⟩
  obtain ⟨c, after, rfl⟩ := List.exists_cons_of_ne_nil nonempty
  obtain ⟨d, letters, rfl, letter⟩ := exists_first spells
  obtain ⟨rfl, -⟩ := List.cons.inj same
  have other := free c (by simp)
  rw [other] at letter
  contradiction

/-- No marker reaches over a character that is neither one of its letters nor a colon. -/
theorem quiet_mark (unmarked : markerWord.occursIn part = false)
    (other : ∀ letter ∈ "error".toList, Text.sameLetter letter c = false) (ne_colon : c ≠ ':')
    (tail : List Char) : Quiet (part ++ [c]) tail := by
  intro before after same nonempty
  obtain ⟨init, rfl, rfl⟩ : ∃ init, after = init ++ [c] ∧ part = before ++ init := by
    rcases List.append_eq_append_iff.mp same with ⟨surplus, rfl, single⟩ | ⟨init, rfl, rfl⟩
    · cases surplus with
      | nil => exact ⟨[], single.symm, by simp⟩
      | cons d surplus =>
        obtain ⟨-, rest⟩ := List.cons.inj single
        exact absurd (List.append_eq_nil_iff.mp rest.symm).2 nonempty
    · exact ⟨init, rfl, rfl⟩
  rintro ⟨written, rest, reaches, spells⟩
  have absent : c ∉ written ++ [':'] := by
    have inWord : c ∉ written := spells.not_mem other
    simpa [ne_colon] using inWord
  have grouped : init ++ c :: tail = (written ++ [':']) ++ rest := by simpa using reaches
  obtain ⟨left, rfl, -⟩ := Text.ends_before grouped absent
  exact not_starts_of_unmarked unmarked ⟨written, left, by simp, spells⟩

theorem quiet_space (unmarked : markerWord.occursIn part = false) (tail : List Char) :
    Quiet (part ++ [' ']) tail :=
  quiet_mark unmarked (by decide) (by decide) tail

/-- A text without markers is one in which no marker starts. -/
theorem unmarked_of_not_starts (absent : ∀ before after, text = before ++ after → ¬Starts after) :
    markerWord.occursIn text = false := by
  apply Pattern.occursIn_eq_false_iff.mpr
  intro front rest split
  apply List.eq_nil_iff_forall_not_mem.mpr
  intro outcome way
  exact absent front rest split (starts_of_outcome way)

theorem not_starts_of_colonless (absent : ':' ∉ text) : ¬Starts text := by
  rintro ⟨written, rest, rfl, -⟩
  exact absent (List.mem_append_right written List.mem_cons_self)

theorem unmarked_of_colonless (absent : ':' ∉ text) : markerWord.occursIn text = false := by
  apply unmarked_of_not_starts
  rintro before after rfl
  exact not_starts_of_colonless fun member => absent (List.mem_append_right before member)

theorem unmarked_of_quiet (quiet : Quiet part []) : markerWord.occursIn part = false := by
  apply unmarked_of_not_starts
  intro before after split
  by_cases empty : after = []
  · rw [empty]
    exact not_starts_of_colonless List.not_mem_nil
  · have absent := quiet before after split empty
    rwa [List.append_nil] at absent

theorem quiet_of_colonless (absent : ':' ∉ part ++ tail) : Quiet part tail := by
  rintro before after rfl -
  apply not_starts_of_colonless
  intro member
  exact absent (by simpa using Or.inr (List.mem_append.mp member))

theorem matchAt?_of_not_starts (absent : ¬Starts text) :
    errorMarker.matchAt? (.between front text) = none :=
  matchAt?_of_unspelled fun written rest same spells => absent ⟨written, rest, same, spells⟩

theorem Quiet.passes (quiet : Quiet part tail) (front : List Char) :
    errorMarker.Passes (front ++ (part ++ tail)) front.length (front ++ part).length := by
  apply Pattern.passes_part
  intro before after split nonempty
  exact matchAt?_of_not_starts (quiet before after split nonempty)

end Quiet

end ContractInspector.Diagnostic
