import ContractInspector.Proofs.Diagnostic.Naming
import ContractInspector.Proofs.Diagnostic.Waiting

/-! What is suggested for a complaint about a token. The pattern that looks for it reads a complaint in one
way at most (`Stated.unique`), and only where it starts; but a comma in what was expected is taken for the
one behind it, so that there the complaint is not read at all (`suggested_iff`). -/
namespace ContractInspector.Diagnostic

open Text (Cursor Outcome Pattern Spells isBlank strip)

/-! ### The pattern as a relation -/

/-- What may be captured as expected. -/
def isWanted (c : Char) : Bool := !isQuote c && c != ','

/-- The pattern in front of what was expected. -/
def expectationLead : Pattern :=
  .anyCase "expected" ++ .gap ++ .optional (.char isQuote)

/-- The pattern between what was expected and what was found instead. -/
def expectationLink : Pattern :=
  .optional (.char isQuote) ++ .optional (.word ",") ++ .space ++
    .orElse (.anyCase "found") (.anyCase "got") ++ .gap

/-- The pattern up to what was found instead. -/
def expectationStart : Pattern :=
  expectationLead ++ .capture 1 (.char isWanted ++ .fewest isWanted) ++ expectationLink

/-- The pattern from what was found instead. -/
def expectationEnd : Pattern :=
  .optional (.char isQuote) ++ .capture 2 (.oneOrMore fun c => !isQuote c) ++ .optional (.char isQuote)

theorem expectation_eq : expectation = expectationStart ++ expectationEnd := rfl

/-- A part of a text is a quote, or nothing. -/
def MayQuote (part : List Char) : Prop :=
  part = [] ∨ ∃ c, part = [c] ∧ isQuote c = true

/-- A text starts with a complaint, up to what was found instead. -/
structure Stated (text word gap opening wanted closing comma space verb gap' rest : List Char) :
    Prop where
  split : text = word ++ (gap ++ (opening ++ (wanted ++ (closing ++ (comma ++ (space ++ (verb ++
    (gap' ++ rest))))))))
  word_spells : Spells "expected" word
  gap_nonempty : gap ≠ []
  gap_blank : ∀ c ∈ gap, isBlank c = true
  opens : MayQuote opening
  wanted_nonempty : wanted ≠ []
  wanted_inside : ∀ c ∈ wanted, isWanted c = true
  closes : MayQuote closing
  comma_eq : comma = [] ∨ comma = [',']
  space_blank : ∀ c ∈ space, isBlank c = true
  verb_spells : Spells "found" verb ∨ Spells "got" verb
  gap'_nonempty : gap' ≠ []
  gap'_blank : ∀ c ∈ gap', isBlank c = true

section Ways

variable {front text : List Char} {captures : List Text.Capture} {outcome : Outcome}
  {holds : Char → Bool}

theorem mem_outcomes_quote :
    outcome ∈ (Pattern.optional (.char isQuote)).outcomes (.between front text) captures ↔
      ∃ part rest, text = part ++ rest ∧ MayQuote part ∧
        outcome = (.between (front ++ part) rest, captures) := by
  rw [Pattern.mem_outcomes_optional, Pattern.mem_outcomes_char]
  constructor
  · rintro (⟨c, rest, rfl, quote, rfl⟩ | rfl)
    · exact ⟨[c], rest, rfl, .inr ⟨c, rfl, quote⟩, rfl⟩
    · exact ⟨[], text, rfl, .inl rfl, by rw [List.append_nil]⟩
  · rintro ⟨part, rest, rfl, rfl | ⟨c, rfl, quote⟩, rfl⟩
    · exact .inr (by rw [List.append_nil, List.nil_append])
    · exact .inl ⟨c, rest, rfl, quote, rfl⟩

theorem mem_outcomes_comma :
    outcome ∈ (Pattern.optional (.word ",")).outcomes (.between front text) captures ↔
      ∃ part rest, text = part ++ rest ∧ (part = [] ∨ part = [',']) ∧
        outcome = (.between (front ++ part) rest, captures) := by
  have comma : Pattern.word "," = .text [','] := rfl
  rw [Pattern.mem_outcomes_optional, comma, Pattern.mem_outcomes_text]
  constructor
  · rintro (⟨rest, rfl, rfl⟩ | rfl)
    · exact ⟨[','], rest, rfl, .inr rfl, rfl⟩
    · exact ⟨[], text, rfl, .inl rfl, by rw [List.append_nil]⟩
  · rintro ⟨part, rest, rfl, rfl | rfl, rfl⟩
    · exact .inr (by rw [List.append_nil, List.nil_append])
    · exact .inl ⟨rest, rfl, rfl⟩

/-- As few characters as possible are taken in the same ways as as many as possible, in another order. -/
theorem mem_outcomes_fewest {slot : Nat} : outcome ∈
    (Pattern.capture slot (.char holds ++ .fewest holds)).outcomes (.between front text) captures ↔
      ∃ part rest, text = part ++ rest ∧ part ≠ [] ∧ (∀ c ∈ part, holds c = true) ∧
        outcome = (.between (front ++ part) rest,
          Pattern.captureOf slot front part rest :: captures) := by
  have same (inner : Outcome) :
      inner ∈ (Pattern.char holds ++ .fewest holds).outcomes (.between front text) captures ↔
        inner ∈ (Pattern.oneOrMore holds).outcomes (.between front text) captures := by
    rw [Pattern.oneOrMore, Pattern.mem_outcomes_append, Pattern.mem_outcomes_append]
    simp only [Pattern.outcomes, List.map_reverse, List.mem_reverse]
  rw [← Pattern.mem_outcomes_capture, Pattern.outcomes, Pattern.outcomes, List.mem_map, List.mem_map]
  simp only [same]

theorem mem_outcomes_verb : outcome ∈ (Pattern.orElse (.anyCase "found") (.anyCase "got")).outcomes
    (.between front text) captures ↔ ∃ verb rest, text = verb ++ rest ∧
      (Spells "found" verb ∨ Spells "got" verb) ∧
      outcome = (.between (front ++ verb) rest, captures) := by
  rw [Pattern.outcomes, List.mem_append, Pattern.mem_outcomes_anyCase, Pattern.mem_outcomes_anyCase]
  constructor
  · rintro (⟨verb, rest, rfl, spells, rfl⟩ | ⟨verb, rest, rfl, spells, rfl⟩)
    · exact ⟨verb, rest, rfl, .inl spells, rfl⟩
    · exact ⟨verb, rest, rfl, .inr spells, rfl⟩
  · rintro ⟨verb, rest, rfl, spells | spells, rfl⟩
    · exact .inl ⟨verb, rest, rfl, spells, rfl⟩
    · exact .inr ⟨verb, rest, rfl, spells, rfl⟩

/-- Where the pattern has a way up to what was found instead, a complaint is stated. -/
theorem exists_stated (way : outcome ∈ expectationStart.outcomes (.between front text) []) :
    ∃ word gap opening wanted closing comma space verb gap' rest,
      Stated text word gap opening wanted closing comma space verb gap' rest ∧
      outcome = (.between (front ++ word ++ gap ++ opening ++ wanted ++ closing ++ comma ++ space ++
          verb ++ gap') rest,
        [Pattern.captureOf 1 (front ++ word ++ gap ++ opening) wanted
          (closing ++ (comma ++ (space ++ (verb ++ (gap' ++ rest)))))]) := by
  obtain ⟨_, way, linked⟩ := Pattern.mem_outcomes_append.mp way
  obtain ⟨_, way, captured⟩ := Pattern.mem_outcomes_append.mp way
  obtain ⟨_, way, opened⟩ := Pattern.mem_outcomes_append.mp way
  obtain ⟨_, way, gapped⟩ := Pattern.mem_outcomes_append.mp way
  obtain ⟨word, _, rfl, word_spells, rfl⟩ := Pattern.mem_outcomes_anyCase.mp way
  obtain ⟨gap, _, rfl, gap_nonempty, gap_blank, rfl⟩ := Pattern.mem_outcomes_oneOrMore.mp gapped
  obtain ⟨opening, _, rfl, opens, rfl⟩ := mem_outcomes_quote.mp opened
  obtain ⟨wanted, _, rfl, nonempty, inside, rfl⟩ := mem_outcomes_fewest.mp captured
  obtain ⟨_, way, last⟩ := Pattern.mem_outcomes_append.mp linked
  obtain ⟨_, way, said⟩ := Pattern.mem_outcomes_append.mp way
  obtain ⟨_, way, spaced⟩ := Pattern.mem_outcomes_append.mp way
  obtain ⟨_, closed, parted⟩ := Pattern.mem_outcomes_append.mp way
  obtain ⟨closing, _, rfl, closes, rfl⟩ := mem_outcomes_quote.mp closed
  obtain ⟨comma, _, rfl, comma_eq, rfl⟩ := mem_outcomes_comma.mp parted
  obtain ⟨space, _, rfl, space_blank, rfl⟩ := Pattern.mem_outcomes_many.mp spaced
  obtain ⟨verb, _, rfl, verb_spells, rfl⟩ := mem_outcomes_verb.mp said
  obtain ⟨gap', rest, rfl, gap'_nonempty, gap'_blank, rfl⟩ := Pattern.mem_outcomes_oneOrMore.mp last
  exact ⟨word, gap, opening, wanted, closing, comma, space, verb, gap', rest, ⟨rfl, word_spells,
    gap_nonempty, gap_blank, opens, nonempty, inside, closes, comma_eq, space_blank, verb_spells,
    gap'_nonempty, gap'_blank⟩, rfl⟩

end Ways

/-! ### Complaints -/

/-- A token: what is written between blanks and quotes. -/
structure Token where
  text : List Char
  nonempty : text ≠ []
  visible : ∀ c ∈ text, isBlank c = false
  unquoted : ∀ c ∈ text, isQuote c = false

/-- The quotes that a compiler may put around tokens. -/
inductive Quote where
  | single
  | double
  | back

def Quote.char : Quote → Char
  | single => '\''
  | double => '"'
  | back => '`'

/-- The verbs that tell what a compiler met with. -/
inductive Verb where
  | found
  | got

def Verb.text : Verb → String
  | found => "found"
  | got => "got"

/-- What a compiler says that expected one token and met with another. -/
structure Complaint where
  quote : Quote
  verb : Verb
  wanted : Token
  given : Token

namespace Complaint

/-- What was expected, quoted, with the comma behind it. -/
def request (complaint : Complaint) : List Char :=
  complaint.quote.char :: (complaint.wanted.text ++ [complaint.quote.char, ','])

/-- What was met with, quoted. -/
def answer (complaint : Complaint) : List Char :=
  complaint.quote.char :: (complaint.given.text ++ [complaint.quote.char])

/-- What stands behind the first word. -/
def behind (complaint : Complaint) : List Char :=
  ' ' :: (complaint.request ++ ' ' :: (complaint.verb.text.toList ++ ' ' :: complaint.answer))

def message (complaint : Complaint) : List Char :=
  "expected".toList ++ complaint.behind

def output (complaint : Complaint) : List Char :=
  "error: ".toList ++ complaint.message

/-- What is to be suggested. -/
def hint (complaint : Complaint) : String :=
  "Expected \"" ++ String.ofList complaint.wanted.text ++ "\" but found \"" ++
    String.ofList complaint.given.text ++ "\". Check your syntax."

end Complaint

section Letters

variable {word : String} {written : List Char} {c : Char}

theorem lettered_expected : Lettered "expected" :=
  lettered_of_points (by decide +kernel)

theorem lettered_found : Lettered "found" :=
  lettered_of_points (by decide +kernel)

theorem lettered_got : Lettered "got" :=
  lettered_of_points (by decide +kernel)

theorem isQuote_iff : isQuote c = true ↔ c = '\'' ∨ c = '"' ∨ c = '`' := by
  simp [isQuote, or_assoc]

theorem isQuote_char (quote : Quote) : isQuote quote.char = true := by
  cases quote <;> rfl

theorem isBlank_quote (quote : Quote) : isBlank quote.char = false := by
  cases quote <;> decide

/-- The letters of a word are neither quotes nor commas. -/
theorem unmarked_of_spells (letters : ∀ letter ∈ word.toList, ∀ c ∈ ['\'', '"', '`', ','],
    Text.sameLetter letter c = false) (spells : Spells word written) (member : c ∈ written) :
    isQuote c = false ∧ c ≠ ',' := by
  have other (mark : Char) (marks : mark ∈ ['\'', '"', '`', ',']) : c ≠ mark := by
    rintro rfl
    exact spells.not_mem (fun letter inWord => letters letter inWord c marks) member
  refine ⟨Bool.eq_false_iff.mpr fun quote => ?_, other ',' (by simp)⟩
  rcases isQuote_iff.mp quote with same | same | same <;> exact other _ (by simp) same

theorem visible_of_spells (lettered : Lettered word) (spells : Spells word written)
    (member : c ∈ written) : isBlank c = false := by
  cases blank : isBlank c with
  | false => rfl
  | true => exact absurd member (lettered.not_mem spells (.inl blank))

/-- A verb, in any case, has neither blanks nor quotes nor commas. -/
theorem plain_verb (spells : Spells "found" written ∨ Spells "got" written) (member : c ∈ written) :
    isBlank c = false ∧ isQuote c = false ∧ c ≠ ',' := by
  rcases spells with spells | spells
  · exact ⟨visible_of_spells lettered_found spells member,
      unmarked_of_spells (by decide) spells member⟩
  · exact ⟨visible_of_spells lettered_got spells member,
      unmarked_of_spells (by decide) spells member⟩

theorem Verb.spells (verb : Verb) :
    Spells "found" verb.text.toList ∨ Spells "got" verb.text.toList := by
  cases verb
  · exact .inl (Text.spells_self "found")
  · exact .inr (Text.spells_self "got")

theorem verb_nonempty (spells : Spells "found" written ∨ Spells "got" written) : written ≠ [] := by
  rintro rfl
  rcases spells with spells | spells
  · exact absurd spells.length_eq (by decide)
  · exact absurd spells.length_eq (by decide)

end Letters

section Reading

variable {line front word gap rest tail more : List Char} {b c : Char}

/-- A gap in front of a visible character is one blank. -/
theorem gap_eq (nonempty : gap ≠ []) (blank : ∀ c ∈ gap, isBlank c = true) (visible : isBlank c = false)
    (same : b :: c :: tail = gap ++ rest) : gap = [b] ∧ rest = c :: tail := by
  cases gap with
  | nil => contradiction
  | cons d gap =>
    obtain ⟨rfl, behind⟩ := List.cons.inj same
    cases gap with
    | nil => exact ⟨rfl, behind.symm⟩
    | cons e gap =>
      obtain ⟨rfl, -⟩ := List.cons.inj behind
      have shown := blank c (by simp)
      rw [visible] at shown
      contradiction

/-- A word in front of a blank ends where a line of visible characters ends, or starts behind it. -/
theorem word_before_blank (inLine : ∀ c ∈ line, isBlank c = false) (inWord : ∀ c ∈ word, isBlank c = false)
    (blank : isBlank b = true) (same : line ++ ' ' :: tail = front ++ (word ++ b :: more)) :
    line = front ++ word ∨ ∃ left, front = line ++ ' ' :: left ∧ tail = left ++ (word ++ b :: more) := by
  rw [← List.append_assoc] at same
  rcases List.append_eq_append_iff.mp same with ⟨surplus, longer, rest⟩ | ⟨surplus, rfl, rest⟩
  · cases surplus with
    | nil => exact .inl (by rw [longer, List.append_nil])
    | cons d surplus =>
      obtain ⟨rfl, rfl⟩ := List.cons.inj rest
      have absent : ' ' ∉ word := fun member => by
        have := inWord ' ' member
        exact absurd this (by decide)
      rcases List.append_eq_append_iff.mp longer with ⟨extra, -, spread⟩ | ⟨left, rfl, spread⟩
      · exact absurd (spread ▸ List.mem_append_right extra List.mem_cons_self) absent
      · cases left with
        | nil =>
          rw [List.nil_append] at spread
          exact absurd (spread ▸ List.mem_cons_self) absent
        | cons e left =>
          obtain ⟨rfl, rfl⟩ := List.cons.inj spread
          exact .inr ⟨left, rfl, List.append_assoc _ _ _⟩
  · cases surplus with
    | nil => exact .inl (List.append_nil _)
    | cons d surplus =>
      obtain ⟨rfl, -⟩ := List.cons.inj rest
      have shown := inLine b (by simp)
      rw [blank] at shown
      contradiction

end Reading

section Complaints

variable {word gap opening wanted closing comma space verb gap' rest left : List Char}
  {complaint : Complaint}

/-- A blank or a quote. -/
def isBorder (c : Char) : Bool := isBlank c || isQuote c

theorem find?_border_of_plain {part : List Char} (plain : ∀ c ∈ part, isBlank c = false ∧ isQuote c = false) :
    part.find? isBorder = none := by
  rw [List.find?_eq_none]
  intro c member
  obtain ⟨visible, unquoted⟩ := plain c member
  simp [isBorder, visible, unquoted]

theorem find?_border_of_blank {part : List Char} (nonempty : part ≠ [])
    (blank : ∀ c ∈ part, isBlank c = true) : ∃ b, part.find? isBorder = some b ∧ isBlank b = true := by
  obtain ⟨b, part, rfl⟩ := List.exists_cons_of_ne_nil nonempty
  have shown := blank b List.mem_cons_self
  exact ⟨b, by simp [isBorder, shown], shown⟩

/-- Behind what was expected comes a blank before any quote, unless there is a closing quote. -/
theorem find?_border_link (comma_eq : comma = [] ∨ comma = [','])
    (space_blank : ∀ c ∈ space, isBlank c = true)
    (verb_spells : Spells "found" verb ∨ Spells "got" verb) (nonempty : gap' ≠ [])
    (blank : ∀ c ∈ gap', isBlank c = true) (rest : List Char) :
    ∃ b, (comma ++ (space ++ (verb ++ (gap' ++ rest)))).find? isBorder = some b ∧
      isBlank b = true := by
  have noComma : comma.find? isBorder = none := by
    rcases comma_eq with rfl | rfl
    · rfl
    · decide
  have noVerb : verb.find? isBorder = none :=
    find?_border_of_plain fun c member =>
      have plain := plain_verb verb_spells member
      ⟨plain.1, plain.2.1⟩
  obtain ⟨b, found, shown⟩ := find?_border_of_blank nonempty blank
  rw [List.find?_append, noComma, Option.none_or]
  by_cases none : space = []
  · refine ⟨b, ?_, shown⟩
    rw [none, List.nil_append, List.find?_append, noVerb, Option.none_or, List.find?_append, found,
      Option.some_or]
  · obtain ⟨b, found, shown⟩ := find?_border_of_blank none space_blank
    exact ⟨b, by rw [List.find?_append, found, Option.some_or], shown⟩

theorem Token.plain (token : Token) {c : Char} (member : c ∈ token.text) :
    isBlank c = false ∧ isQuote c = false :=
  ⟨token.visible c member, token.unquoted c member⟩

/-- What was expected ends at the closing quote, and nowhere else. -/
theorem Stated.closed (stated : Stated text word gap opening wanted closing comma space verb gap' rest)
    {token : Token} {quote : Quote} {tail : List Char}
    (same : token.text ++ quote.char :: tail =
      wanted ++ (closing ++ (comma ++ (space ++ (verb ++ (gap' ++ rest)))))) :
    wanted = token.text ∧ closing = [quote.char] ∧
      tail = comma ++ (space ++ (verb ++ (gap' ++ rest))) := by
  have absent : quote.char ∉ wanted := fun member => by
    have inside := stated.wanted_inside _ member
    simp [isWanted, isQuote_char quote] at inside
  obtain ⟨left, split, behind⟩ := Text.ends_before same absent
  have plain : left.find? isBorder = none :=
    find?_border_of_plain fun c member => token.plain (split ▸ List.mem_append_right wanted member)
  rcases stated.closes with rfl | ⟨c, rfl, closes⟩
  · -- Without the closing quote a blank would come first.
    obtain ⟨b, found, blank⟩ := find?_border_link stated.comma_eq stated.space_blank stated.verb_spells
      stated.gap'_nonempty stated.gap'_blank rest
    have border : isBorder quote.char = true := by simp [isBorder, isQuote_char quote]
    rw [List.nil_append] at behind
    rw [behind, List.find?_append, plain, Option.none_or, List.find?_cons_of_pos border] at found
    obtain rfl := Option.some.inj found
    rw [isBlank_quote] at blank
    contradiction
  · cases left with
    | nil =>
      obtain ⟨rfl, rest_eq⟩ := List.cons.inj behind
      exact ⟨by rw [split, List.append_nil], rfl, rest_eq.symm⟩
    | cons d left =>
      obtain ⟨rfl, -⟩ := List.cons.inj behind
      have unquoted := token.unquoted c (split ▸ by simp)
      rw [closes] at unquoted
      contradiction

/-- Behind what was expected, a comma and a blank part it from the verb. -/
theorem Stated.linked
    (stated : Stated text word gap opening wanted closing comma space verb gap' rest) {said : Verb}
    {tail : List Char} (same : ',' :: ' ' :: (said.text.toList ++ ' ' :: tail) =
      comma ++ (space ++ (verb ++ (gap' ++ rest)))) :
    comma = [','] ∧ space = [' '] ∧ verb = said.text.toList ∧ ' ' :: tail = gap' ++ rest := by
  have plain : ∀ c ∈ verb, isBlank c = false ∧ isQuote c = false ∧ c ≠ ',' := fun c member =>
    plain_verb stated.verb_spells member
  have visible : ∀ c ∈ said.text.toList, isBlank c = false := fun c member =>
    (plain_verb said.spells member).1
  have nonempty := verb_nonempty stated.verb_spells
  have parted : comma = [','] ∧ ' ' :: (said.text.toList ++ ' ' :: tail) =
      space ++ (verb ++ (gap' ++ rest)) := by
    rcases stated.comma_eq with rfl | rfl
    · rw [List.nil_append] at same
      cases space with
      | nil =>
        obtain ⟨c, letters, rfl⟩ := List.exists_cons_of_ne_nil nonempty
        obtain ⟨rfl, -⟩ := List.cons.inj same
        exact absurd rfl (plain ',' List.mem_cons_self).2.2
      | cons c space =>
        obtain ⟨rfl, -⟩ := List.cons.inj same
        exact absurd (stated.space_blank ',' List.mem_cons_self) (by decide)
    · exact ⟨rfl, (List.cons.inj same).2⟩
  obtain ⟨rfl, behind⟩ := parted
  have spaced : space = [' '] ∧ verb ++ (gap' ++ rest) = said.text.toList ++ ' ' :: tail := by
    cases space with
    | nil =>
      obtain ⟨c, letters, rfl⟩ := List.exists_cons_of_ne_nil nonempty
      obtain ⟨rfl, -⟩ := List.cons.inj behind
      exact absurd (plain ' ' List.mem_cons_self).1 (by decide)
    | cons c space =>
      obtain ⟨d, others, shown⟩ := List.exists_cons_of_ne_nil (verb_nonempty said.spells)
      rw [shown, List.cons_append] at behind
      rw [shown, List.cons_append]
      exact gap_eq (List.cons_ne_nil c space) stated.space_blank (visible d (by simp [shown])) behind
  obtain ⟨rfl, verbed⟩ := spaced
  have absent : ' ' ∉ verb := fun member => absurd (plain ' ' member).1 (by decide)
  obtain ⟨left, split, others⟩ := Text.ends_before verbed.symm absent
  cases left with
  | nil => exact ⟨rfl, rfl, by rw [split, List.append_nil], others.symm⟩
  | cons c left =>
    obtain ⟨d, gap', rfl⟩ := List.exists_cons_of_ne_nil stated.gap'_nonempty
    obtain ⟨rfl, -⟩ := List.cons.inj others
    have shown := visible d (split ▸ by simp)
    rw [stated.gap'_blank d List.mem_cons_self] at shown
    contradiction

theorem Complaint.request_append (complaint : Complaint) (rest : List Char) :
    complaint.request ++ rest = complaint.quote.char :: (complaint.wanted.text ++
      complaint.quote.char :: ',' :: rest) := by
  simp only [request, List.cons_append, List.append_assoc, List.nil_append]

/-- A complaint, sign by sign. -/
theorem Complaint.message_eq (complaint : Complaint) :
    complaint.message = "expected".toList ++ ' ' :: complaint.quote.char :: (complaint.wanted.text ++
      complaint.quote.char :: ',' :: ' ' :: (complaint.verb.text.toList ++ ' ' :: complaint.answer)) :=
  congrArg (fun rest => "expected".toList ++ ' ' :: rest) (complaint.request_append _)

/-- A complaint is read in one way. -/
theorem Stated.unique
    (stated : Stated complaint.message word gap opening wanted closing comma space verb gap' rest) :
    word = "expected".toList ∧ gap = [' '] ∧ opening = [complaint.quote.char] ∧
      wanted = complaint.wanted.text ∧ closing = [complaint.quote.char] ∧ comma = [','] ∧
      space = [' '] ∧ verb = complaint.verb.text.toList ∧ gap' = [' '] ∧ rest = complaint.answer := by
  have split := stated.split
  rw [Complaint.message_eq] at split
  obtain ⟨rfl, afterWord⟩ := List.append_inj split stated.word_spells.length_eq
  obtain ⟨rfl, afterGap⟩ := gap_eq stated.gap_nonempty stated.gap_blank
    (isBlank_quote complaint.quote) afterWord
  have opened : opening = [complaint.quote.char] ∧ complaint.wanted.text ++ complaint.quote.char ::
      ',' :: ' ' :: (complaint.verb.text.toList ++ ' ' :: complaint.answer) =
        wanted ++ (closing ++ (comma ++ (space ++ (verb ++ (gap' ++ rest))))) := by
    rcases stated.opens with rfl | ⟨c, rfl, -⟩
    · obtain ⟨c, others, rfl⟩ := List.exists_cons_of_ne_nil stated.wanted_nonempty
      obtain ⟨rfl, -⟩ := List.cons.inj afterGap
      have inside := stated.wanted_inside _ List.mem_cons_self
      simp [isWanted, isQuote_char] at inside
    · obtain ⟨rfl, behind⟩ := List.cons.inj afterGap
      exact ⟨rfl, behind.symm⟩
  obtain ⟨rfl, afterQuote⟩ := opened
  obtain ⟨rfl, rfl, afterWanted⟩ := stated.closed afterQuote
  obtain ⟨rfl, rfl, rfl, afterVerb⟩ := stated.linked afterWanted
  obtain ⟨rfl, rfl⟩ := gap_eq stated.gap'_nonempty stated.gap'_blank
    (isBlank_quote complaint.quote) afterVerb
  exact ⟨rfl, rfl, rfl, rfl, rfl, rfl, rfl, rfl, rfl, rfl⟩

end Complaints

section Searching

variable {complaint : Complaint} {front text : List Char}

theorem Complaint.visible_request (complaint : Complaint) :
    ∀ c ∈ complaint.request, isBlank c = false := by
  intro c member
  have parts : c = complaint.quote.char ∨ c ∈ complaint.wanted.text ∨ c = complaint.quote.char ∨
      c = ',' := by simpa [request] using member
  rcases parts with rfl | member | rfl | rfl
  · exact isBlank_quote _
  · exact complaint.wanted.visible c member
  · exact isBlank_quote _
  · decide

theorem Complaint.visible_answer (complaint : Complaint) :
    ∀ c ∈ complaint.answer, isBlank c = false := by
  intro c member
  have parts : c = complaint.quote.char ∨ c ∈ complaint.given.text ∨ c = complaint.quote.char := by
    simpa [answer] using member
  rcases parts with rfl | member | rfl
  · exact isBlank_quote _
  · exact complaint.given.visible c member
  · exact isBlank_quote _

theorem Complaint.getLast?_request (complaint : Complaint) :
    complaint.request.getLast? = some ',' := by
  have parts : complaint.request =
      complaint.quote.char :: (complaint.wanted.text ++ [complaint.quote.char]) ++ [','] := by
    simp [request]
  rw [parts, List.getLast?_concat]

/-- Nothing is stated in a complaint but at its start. -/
theorem outcomes_inside (same : complaint.message = front ++ text) (nonempty : front ≠ []) :
    expectationStart.outcomes (.between front text) [] = [] := by
  refine List.eq_nil_iff_forall_not_mem.mpr fun outcome way => ?_
  obtain ⟨word, gap, _, _, _, _, _, _, _, _, stated, -⟩ := exists_stated way
  have visible : ∀ c ∈ word, isBlank c = false := fun c member =>
    visible_of_spells lettered_expected stated.word_spells member
  have length : word.length = 8 := stated.word_spells.length_eq.symm
  obtain ⟨b, gap, rfl⟩ := List.exists_cons_of_ne_nil stated.gap_nonempty
  have blank := stated.gap_blank b List.mem_cons_self
  rw [stated.split, List.cons_append] at same
  rcases word_before_blank (by decide) visible blank same with own | ⟨_, -, behind⟩
  · have lengths := congrArg List.length own
    rw [List.length_append, length] at lengths
    have eight : "expected".toList.length = 8 := rfl
    exact nonempty (List.eq_nil_of_length_eq_zero (by omega))
  rcases word_before_blank complaint.visible_request visible blank behind with own | ⟨_, -, behind⟩
  · have some : word ≠ [] := List.ne_nil_of_length_pos (by omega)
    have last := complaint.getLast?_request
    rw [own, List.getLast?_append_of_ne_nil _ some] at last
    have member := List.mem_of_getLast? last
    exact (unmarked_of_spells (by decide) stated.word_spells member).2 rfl
  rcases word_before_blank (fun c member => (plain_verb complaint.verb.spells member).1) visible blank
    behind with own | ⟨_, -, behind⟩
  · have lengths := congrArg List.length own
    rw [List.length_append, length] at lengths
    cases verb : complaint.verb <;> rw [verb] at lengths <;> simp [Verb.text] at lengths
  · have shown := complaint.visible_answer b (behind ▸ by simp)
    rw [blank] at shown
    contradiction

/-- A complaint, in the parts that the pattern takes. -/
theorem Complaint.message_parts (complaint : Complaint) : complaint.message =
    "expected".toList ++ [' '] ++ [complaint.quote.char] ++ (complaint.wanted.text ++
      (([complaint.quote.char] ++ [','] ++ [' '] ++ complaint.verb.text.toList ++ [' ']) ++
        complaint.answer)) := by
  rw [message_eq]
  generalize "expected".toList = word
  simp only [List.append_assoc, List.cons_append, List.nil_append]

theorem takes_verb (verb : Verb) (front rest : List Char) (captures : List Text.Capture) :
    (Pattern.orElse (.anyCase "found") (.anyCase "got")).Takes front verb.text.toList rest captures
      captures := by
  cases verb with
  | found => exact Pattern.takes_orElse_left (Pattern.takes_anyCase (Text.spells_self "found"))
  | got =>
    refine Pattern.takes_orElse_right ?_ (Pattern.takes_anyCase (Text.spells_self "got"))
    refine List.eq_nil_iff_forall_not_mem.mpr fun outcome way => ?_
    obtain ⟨written, others, same, spells, -⟩ := Pattern.mem_outcomes_anyCase.mp way
    cases spells with
    | cons held =>
      obtain ⟨rfl, -⟩ := List.cons.inj same
      exact absurd held (by decide)

theorem takes_lead (quote : Quote) (rest : List Char) :
    expectationLead.Takes [] ("expected".toList ++ [' '] ++ [quote.char]) rest [] [] := by
  refine Pattern.takes_append (Pattern.takes_append
    (Pattern.takes_anyCase (Text.spells_self "expected"))
    (Pattern.takes_oneOrMore (List.cons_ne_nil _ _) (by decide) ?_))
    (Pattern.takes_optional (Pattern.takes_char (isQuote_char quote)))
  rintro c ⟨⟩
  exact isBlank_quote quote

theorem takes_link (quote : Quote) (verb : Verb) {front rest : List Char} {captures : List Text.Capture}
    (visible : ∀ c, rest.head? = some c → isBlank c = false) :
    expectationLink.Takes front ([quote.char] ++ [','] ++ [' '] ++ verb.text.toList ++ [' ']) rest
      captures captures := by
  obtain ⟨d, letters, written⟩ := List.exists_cons_of_ne_nil (verb_nonempty verb.spells)
  have shown : isBlank d = false := (plain_verb verb.spells (written ▸ List.mem_cons_self)).1
  refine Pattern.takes_append (Pattern.takes_append (Pattern.takes_append (Pattern.takes_append
    (Pattern.takes_optional (Pattern.takes_char (isQuote_char quote)))
    (Pattern.takes_optional (Pattern.takes_text [',']))) (Pattern.takes_many (by decide) ?_))
    (takes_verb verb _ _ captures)) (Pattern.takes_oneOrMore (List.cons_ne_nil _ _) (by decide) visible)
  rw [written]
  rintro c ⟨⟩
  exact shown

/-- Without a comma in what was expected, a complaint is stated at its start. -/
theorem exists_start (plain : ',' ∉ complaint.wanted.text) :
    ∃ outcome, outcome ∈ expectationStart.outcomes (.between [] complaint.message) [] := by
  have inside : ∀ c ∈ complaint.wanted.text, isWanted c = true := by
    intro c member
    have other : c ≠ ',' := fun same => plain (same ▸ member)
    simp [isWanted, complaint.wanted.unquoted c member, other]
  have visible : ∀ c, complaint.answer.head? = some c → isBlank c = false := fun c head =>
    complaint.visible_answer c (List.mem_of_mem_head? head)
  rw [complaint.message_parts]
  exact ⟨_, Pattern.mem_outcomes_append.mpr ⟨_, Pattern.mem_outcomes_append.mpr
    ⟨_, List.mem_of_mem_head? (takes_lead complaint.quote _), mem_outcomes_fewest.mpr
      ⟨complaint.wanted.text, _, rfl, complaint.wanted.nonempty, inside, rfl⟩⟩,
    List.mem_of_mem_head? (takes_link complaint.quote complaint.verb visible)⟩⟩

/-- What was found instead is what stands between the quotes. -/
theorem takes_end (quote : Quote) (token : Token) (front : List Char) (captures : List Text.Capture) :
    expectationEnd.Takes front ([quote.char] ++ token.text ++ [quote.char]) [] captures
      (Pattern.captureOf 2 (front ++ [quote.char]) token.text [quote.char] :: captures) := by
  have inside : ∀ c ∈ token.text, (!isQuote c) = true := fun c member => by
    rw [token.unquoted c member]
    rfl
  refine Pattern.takes_append (Pattern.takes_append
    (Pattern.takes_optional (Pattern.takes_char (isQuote_char quote)))
    (Pattern.takes_capture (Pattern.takes_oneOrMore token.nonempty inside ?_)))
    (Pattern.takes_optional (Pattern.takes_char (isQuote_char quote)))
  rintro c ⟨⟩
  rw [isQuote_char]
  rfl

/-- Where a complaint is stated, there is no comma in what was expected, and the answer remains. -/
theorem exists_answer {outcome : Outcome}
    (way : outcome ∈ expectationStart.outcomes (.between [] complaint.message) []) :
    ',' ∉ complaint.wanted.text ∧ ∃ front lead rest, outcome =
      (.between front complaint.answer, [Pattern.captureOf 1 lead complaint.wanted.text rest]) := by
  obtain ⟨word, gap, opening, wanted, closing, comma, space, verb, gap', rest, stated, rfl⟩ :=
    exists_stated way
  obtain ⟨-, -, -, wanted_eq, -, -, -, -, -, rest_eq⟩ := stated.unique
  have inside := stated.wanted_inside
  rw [wanted_eq] at inside
  rw [wanted_eq, rest_eq]
  refine ⟨fun member => ?_, _, _, _, rfl⟩
  have none := inside ',' member
  exact absurd none (by decide)

/-- Without a comma in what was expected, a complaint is found. -/
theorem exists_search?_message (plain : ',' ∉ complaint.wanted.text) :
    ∃ found, expectation.search? complaint.message = some found ∧
      found.text 1 = complaint.wanted.text ∧ found.text 2 = complaint.given.text := by
  obtain ⟨_, way⟩ := exists_start plain
  obtain ⟨first, others, ways⟩ := List.exists_cons_of_ne_nil (List.ne_nil_of_mem way)
  obtain ⟨-, front, lead, rest, rfl⟩ := exists_answer (ways ▸ List.mem_cons_self)
  have answered := takes_end complaint.quote complaint.given front
    [Pattern.captureOf 1 lead complaint.wanted.text rest]
  have answer : [complaint.quote.char] ++ complaint.given.text ++ [complaint.quote.char] ++ [] =
      complaint.answer := by
    simp [Complaint.answer]
  rw [Pattern.Takes, answer] at answered
  have head : (expectation.outcomes (.between [] complaint.message) []).head? =
      some (.between (front ++ ([complaint.quote.char] ++ complaint.given.text ++
          [complaint.quote.char])) [],
        [Pattern.captureOf 2 (front ++ [complaint.quote.char]) complaint.given.text
            [complaint.quote.char], Pattern.captureOf 1 lead complaint.wanted.text rest]) := by
    rw [expectation_eq, Pattern.outcomes_append, ways, List.flatMap_cons, List.head?_append, answered,
      Option.some_or]
  have place := Text.placeAt_length [] complaint.message
  rw [List.nil_append, List.length_nil] at place
  have matched := Pattern.matchAt?_eq_head? expectation (.between [] complaint.message)
  rw [head, Option.map_some, ← place] at matched
  refine ⟨_, Pattern.search?_eq_some_iff.mpr ⟨0, Nat.zero_le _, matched, ?_⟩, ?_, ?_⟩
  · exact fun n _ below => absurd below (Nat.not_lt_zero n)
  · simp [Text.Match.text, Text.Match.text?, Text.Match.capture?]
  · simp [Text.Match.text, Text.Match.text?, Text.Match.capture?]

/-- With a comma in what was expected, a complaint is not found. -/
theorem search?_message_of_comma (comma : ',' ∈ complaint.wanted.text) :
    expectation.search? complaint.message = none := by
  refine Option.isNone_iff_eq_none.mp (Option.isSome_eq_false_iff.mp ?_)
  refine Pattern.occursIn_eq_false_iff.mpr fun front text same => ?_
  have none : expectationStart.outcomes (.between front text) [] = [] := by
    by_cases start : front = []
    · subst start
      refine List.eq_nil_iff_forall_not_mem.mpr fun outcome way => ?_
      rw [List.nil_append] at same
      rw [← same] at way
      exact (exists_answer way).1 comma
    · exact outcomes_inside same start
  rw [expectation_eq, Pattern.outcomes_append, none, List.flatMap_nil]

end Searching

/-! ### What is suggested -/

section Suggesting

variable (complaint : Complaint)

theorem Token.strip_text (token : Token) : strip token.text = token.text := by
  refine Text.strip_eq_self ?_ ?_
  · cases head : token.text.head? with
    | none => rfl
    | some c => exact token.visible c (List.mem_of_mem_head? head)
  · cases last : token.text.getLast? with
    | none => rfl
    | some c => exact token.visible c (List.mem_of_getLast? last)

theorem expectationHint?_message : expectationHint? complaint.message =
    if ',' ∈ complaint.wanted.text then none else some complaint.hint := by
  rw [expectationHint?]
  by_cases comma : ',' ∈ complaint.wanted.text
  · rw [if_pos comma, search?_message_of_comma comma]
    rfl
  · obtain ⟨found, searched, wanted, given⟩ := exists_search?_message comma
    rw [if_neg comma, searched, Option.map_some]
    simp only [wanted, given, Token.strip_text]
    rfl

/-- The hints for terms are other texts. -/
theorem hint_not_mem_termHints (output : List Char) : complaint.hint ∉ termHints output := by
  have others : ∀ hint ∈ Language.outputHints, hint.suggestion.toList.head? ≠ some 'E' := by
    decide +kernel
  intro member
  obtain ⟨hint, among, same⟩ := List.mem_map.mp member
  refine others hint (List.mem_of_mem_filter among) ?_
  rw [same, Complaint.hint]
  simp only [String.toList_append, List.append_assoc]
  rw [List.head?_append_of_ne_nil _ (by decide)]
  rfl

theorem newline_not_mem_message : '\n' ∉ complaint.message := by
  have other {part : List Char} (visible : ∀ c ∈ part, isBlank c = false) : '\n' ∉ part := fun member =>
    absurd (visible '\n' member) (by decide)
  have verb : '\n' ∉ complaint.verb.text.toList :=
    other fun c member => (plain_verb complaint.verb.spells member).1
  have behind : '\n' ∉ complaint.behind := by
    rw [Complaint.behind]
    simp only [List.mem_append, List.mem_cons, verb, other complaint.visible_request,
      other complaint.visible_answer, or_false, false_or]
    decide
  exact fun member => (List.mem_append.mp member).elim (absurd · (by decide)) behind

theorem strip_message : strip complaint.message = complaint.message := by
  have first : complaint.message.head?.any isBlank = false := by
    have word : "expected".toList.head? = some 'e' := by decide
    have head : complaint.message.head? = some 'e' := List.head?_append.trans (by rw [word]; rfl)
    rw [head]
    decide
  have last : complaint.message.getLast? = some complaint.quote.char := by
    have behind : complaint.behind = ' ' :: (complaint.request ++ ' ' ::
        (complaint.verb.text.toList ++ ' ' :: complaint.quote.char :: complaint.given.text)) ++
          [complaint.quote.char] := by
      simp only [Complaint.behind, Complaint.answer, List.append_assoc, List.cons_append]
    have ends : complaint.behind.getLast? = some complaint.quote.char := by
      rw [behind, List.getLast?_concat]
    exact List.getLast?_append.trans (by rw [ends]; rfl)
  refine Text.strip_eq_self first ?_
  rw [last]
  exact isBlank_quote complaint.quote

theorem rows_output : rows complaint.output = [(complaint.message, 0)] := by
  have rows := rows_error (newline_not_mem_message complaint)
  rw [strip_message] at rows
  exact rows

/-- The hint is given exactly if there is no comma in what was expected. -/
theorem hint_mem_iff :
    complaint.hint ∈ suggestions complaint.output ↔ ',' ∉ complaint.wanted.text := by
  rw [suggestions, markers_of_rows (rows_output complaint), List.mem_append, List.filterMap_cons, expectationHint?_message]
  have other := hint_not_mem_termHints complaint complaint.output
  by_cases comma : ',' ∈ complaint.wanted.text <;> simp [comma, other]

theorem exists_errors_output_iff (source : List Char) :
    (∃ found, errors complaint.output source = .ok found) ↔
      ∃ location, locate? complaint.output = .ok location := by
  have inLine : '\n' ∉ complaint.output := fun member =>
    (List.mem_append.mp member).elim (absurd · (by decide)) (newline_not_mem_message complaint)
  have errors := exists_errors_of_rows (rows_output complaint) source
  rw [location?_line inLine] at errors
  exact errors

/-- The hint is returned exactly if there is no comma in what was expected and no number that is too long
stands for the location of the complaint. -/
theorem suggested_iff (source : List Char) :
    ((∃ found, errors complaint.output source = .ok found) ∧
        complaint.hint ∈ suggestions complaint.output) ↔
      ',' ∉ complaint.wanted.text ∧ ∃ location, locate? complaint.output = .ok location := by
  rw [hint_mem_iff, exists_errors_output_iff, and_comm]

/-- A compiler that expected a comma and met with a bracket. -/
def commaComplaint : Complaint where
  quote := .single
  verb := .found
  wanted := ⟨[','], by decide, by decide, by decide⟩
  given := ⟨[')'], by decide, by decide, by decide⟩

/-- A comma that was expected is taken for the one behind what was expected, so that nothing is suggested. -/
theorem not_suggested_comma :
    commaComplaint.output = "error: expected ',', found ')'".toList ∧
      commaComplaint.hint = "Expected \",\" but found \")\". Check your syntax." ∧
      commaComplaint.hint ∉ suggestions commaComplaint.output := by
  refine ⟨by decide, by decide, fun member => ?_⟩
  exact (hint_mem_iff commaComplaint).mp member List.mem_cons_self

end Suggesting

end ContractInspector.Diagnostic
