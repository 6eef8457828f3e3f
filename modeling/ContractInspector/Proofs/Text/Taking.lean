import Mathlib.Data.List.Forall2
import ContractInspector.Proofs.Text.Outcomes
import ContractInspector.Proofs.Text.Spans

/-! The preferred way of a pattern through a text. A text is split at a place into what stands before it
and what stands behind it; `Takes` says that a pattern first tries to take a given part there, and the
links of a chain take their parts one behind the other. -/
namespace ContractInspector.Text

/-- The place between two pieces of a text. -/
def Cursor.between (front rest : List Char) : Cursor :=
  ⟨front.getLast?, rest, front.length⟩

theorem placeAt_length (front rest : List Char) :
    placeAt (front ++ rest) front.length = .between front rest := by
  rcases List.eq_nil_or_concat front with rfl | ⟨init, c, rfl⟩
  · rfl
  · simp [placeAt, Cursor.between]

theorem exists_between {text : List Char} {n : Nat} (inside : n ≤ text.length) :
    ∃ front rest, text = front ++ rest ∧ front.length = n ∧ placeAt text n = .between front rest := by
  refine ⟨text.take n, text.drop n, (List.take_append_drop n text).symm, by simp [inside], ?_⟩
  rw [← placeAt_length, List.take_append_drop, List.length_take, Nat.min_eq_left inside]

namespace Cursor

@[simp]
theorem rest_between (front rest : List Char) : (between front rest).rest = rest := rfl

@[simp]
theorem offset_between (front rest : List Char) : (between front rest).offset = front.length := rfl

theorem advance_between (front rest : List Char) (c : Char) :
    (between front (c :: rest)).advance c rest 1 = between (front ++ [c]) rest := by
  simp [between, advance]

theorem skip?_between (front part rest : List Char) :
    (between front (part ++ rest)).skip? part = some (between (front ++ part) rest) := by
  induction part generalizing front with
  | nil => simp [skip?]
  | cons c part ih =>
    have moved : (⟨some c, part ++ rest, (between front (c :: (part ++ rest))).offset + 1⟩ : Cursor) =
        between (front ++ [c]) (part ++ rest) := by simp [between]
    rw [List.cons_append, skip?]
    simp only [rest_between, if_true]
    rw [moved, ih, List.append_assoc, List.singleton_append]

theorem stops_between {holds : Char → Bool} {part rest : List Char} (front : List Char)
    (inside : ∀ c ∈ part, holds c = true) (ends : ∀ c, rest.head? = some c → holds c = false) :
    ((between front (part ++ rest)).stops holds).head? = some (between (front ++ part) rest) := by
  have spans : Spans holds part rest := ⟨inside, ends⟩
  rw [← placeAt_length, stops_placeAt, List.drop_left, spans.takeWhile, List.head?_reverse,
    List.getLast?_map, List.getLast?_range', if_neg (Nat.succ_ne_zero _), Option.map_some,
    ← placeAt_length, List.append_assoc, List.length_append]
  simp

end Cursor

namespace Pattern

/-- The first way of a pattern behind `front` is to take `part`, with `captured` as the captures. -/
def Takes (pattern : Pattern) (front part rest : List Char) (captures captured : List Capture) :
    Prop :=
  (pattern.outcomes (.between front (part ++ rest)) captures).head? =
    some (.between (front ++ part) rest, captured)

variable {pattern first second body : Pattern} {front part more rest : List Char}
  {captures middle captured : List Capture} {holds : Char → Bool}

theorem takes_empty (captures : List Capture) : empty.Takes front [] rest captures captures := by
  simp [Takes, outcomes]

theorem takes_char {c : Char} (held : holds c = true) :
    (char holds).Takes front [c] rest captures captures := by
  simp only [Takes, List.singleton_append, outcomes, Cursor.rest_between, held, if_true,
    List.head?_cons, Cursor.advance_between]

theorem takes_text (part : List Char) : (text part).Takes front part rest captures captures := by
  simp [Takes, outcomes, Cursor.skip?_between]

theorem takes_append (one : first.Takes front part (more ++ rest) captures middle)
    (two : second.Takes (front ++ part) more rest middle captured) :
    (first ++ second).Takes front (part ++ more) rest captures captured := by
  obtain ⟨others, ways⟩ := List.head?_eq_some_iff.mp one
  rw [Takes, List.append_assoc, outcomes_append, ways, List.flatMap_cons, List.head?_append]
  rw [Takes] at two
  rw [two, Option.some_or, List.append_assoc]

theorem takes_orElse_left (one : first.Takes front part rest captures captured) :
    (orElse first second).Takes front part rest captures captured := by
  rw [Takes, outcomes, List.head?_append]
  rw [Takes] at one
  rw [one, Option.some_or]

theorem takes_orElse_right
    (none : first.outcomes (.between front (part ++ rest)) captures = [])
    (two : second.Takes front part rest captures captured) :
    (orElse first second).Takes front part rest captures captured := by
  rwa [Takes, outcomes, none, List.nil_append]

theorem takes_optional (one : body.Takes front part rest captures captured) :
    (optional body).Takes front part rest captures captured := by
  rw [Takes, outcomes, List.head?_append]
  rw [Takes] at one
  rw [one, Option.some_or]

theorem takes_optional_nil (none : body.outcomes (.between front rest) captures = []) :
    (optional body).Takes front [] rest captures captures := by
  simp [Takes, outcomes, none]

theorem takes_many (inside : ∀ c ∈ part, holds c = true)
    (ends : ∀ c, rest.head? = some c → holds c = false) :
    (many holds).Takes front part rest captures captures := by
  rw [Takes, outcomes, List.head?_map, Cursor.stops_between front inside ends]
  rfl

theorem takes_oneOrMore (nonempty : part ≠ []) (inside : ∀ c ∈ part, holds c = true)
    (ends : ∀ c, rest.head? = some c → holds c = false) :
    (oneOrMore holds).Takes front part rest captures captures := by
  obtain ⟨c, part, rfl⟩ := List.exists_cons_of_ne_nil nonempty
  obtain ⟨held, inside⟩ := List.forall_mem_cons.mp inside
  exact takes_append (takes_char held) (takes_many inside ends)

/-- What is captured between two pieces of a text. -/
def captureOf (slot : Nat) (front part rest : List Char) : Capture :=
  ⟨slot, part ++ rest, front.length, front.length + part.length⟩

theorem takes_capture {slot : Nat} (one : body.Takes front part rest captures captured) :
    (capture slot body).Takes front part rest captures
      (captureOf slot front part rest :: captured) := by
  rw [Takes, outcomes, List.head?_map, one]
  simp [captureOf]

theorem takes_wordBoundary (boundary : (Cursor.between front rest).atWordBoundary = true) :
    wordBoundary.Takes front [] rest captures captures := by
  simp [Takes, outcomes, boundary]

theorem takes_notAfter (whole : front.getLast?.any holds = false) :
    (notAfter holds).Takes front [] rest captures captures := by
  have place : (Cursor.between front rest).isAfter holds = false := whole
  simp [Takes, outcomes, place]

theorem takes_notBefore (ends : rest.head?.any holds = false) :
    (notBefore holds).Takes front [] rest captures captures := by
  have place : (Cursor.between front rest).isBefore holds = false := ends
  simp [Takes, outcomes, place]

theorem matchAt?_of_takes (one : pattern.Takes front part rest [] captured) :
    pattern.matchAt? (.between front (part ++ rest)) =
      some ⟨.between front (part ++ rest), .between (front ++ part) rest, captured⟩ := by
  rw [matchAt?_eq_head?, one]
  rfl

/-- A match at an offset is the first way of the pattern behind what stands in front of it. -/
theorem exists_way {text : List Char} {n : Nat} {found : Match} (inside : n ≤ text.length)
    (matched : pattern.matchAt? (placeAt text n) = some found) :
    ∃ front rest outcome, text = front ++ rest ∧ front.length = n ∧
      (pattern.outcomes (.between front rest) []).head? = some outcome ∧
      ⟨.between front rest, outcome.1, outcome.2⟩ = found := by
  obtain ⟨front, rest, split, length, place⟩ := exists_between inside
  rw [place] at matched
  obtain ⟨outcome, way, same⟩ := matchAt?_eq_some_iff.mp matched
  exact ⟨front, rest, outcome, split, length, way, same⟩

end Pattern

@[simp]
theorem Pattern.text_captureOf (slot : Nat) (front part rest : List Char) :
    (captureOf slot front part rest).text = part := by
  simp [captureOf, Capture.text]

@[simp]
theorem Pattern.slot_captureOf (slot : Nat) (front part rest : List Char) :
    (captureOf slot front part rest).slot = slot := rfl

theorem Match.text?_eq_lookup (found : Match) (slot : Nat) :
    found.text? slot = (found.captures.map fun part => (part.slot, part.text)).lookup slot := by
  rw [text?, capture?]
  induction found.captures with
  | nil => rfl
  | cons part captures ih =>
    rw [List.find?_cons, List.map_cons, List.lookup_cons, BEq.comm]
    split <;> simp_all

section Ways

variable {front text part : List Char} {captures : List Capture} {outcome : Outcome}
  {holds : Char → Bool}

theorem Cursor.skip?_eq_some {reached : Cursor}
    (skipped : (between front text).skip? part = some reached) :
    ∃ rest, text = part ++ rest ∧ reached = between (front ++ part) rest := by
  rw [← placeAt_length] at skipped
  obtain ⟨rfl, rest, here⟩ := skip?_placeAt skipped
  rw [List.drop_left] at here
  refine ⟨rest, here, ?_⟩
  rw [here, ← placeAt_length, List.append_assoc, List.length_append]

theorem length_le_takeWhile (inside : ∀ c ∈ part, holds c = true) (rest : List Char) :
    part.length ≤ ((part ++ rest).takeWhile holds).length := by
  rw [List.takeWhile_append_of_pos inside, List.length_append]
  exact Nat.le_add_right _ _

theorem Cursor.mem_stops_between {reached : Cursor} :
    reached ∈ (between front text).stops holds ↔
      ∃ part rest, text = part ++ rest ∧ (∀ c ∈ part, holds c = true) ∧
        reached = between (front ++ part) rest := by
  rw [← placeAt_length, stops_placeAt, List.drop_left, List.mem_reverse, List.mem_map]
  constructor
  · rintro ⟨m, range, rfl⟩
    obtain ⟨low, high⟩ := List.mem_range'_1.mp range
    obtain ⟨k, rfl⟩ := Nat.exists_eq_add_of_le low
    have short : k ≤ (text.takeWhile holds).length := by omega
    have within : k ≤ text.length := Nat.le_trans short (List.takeWhile_sublist _).length_le
    refine ⟨text.take k, text.drop k, (List.take_append_drop k text).symm, ?_, ?_⟩
    · intro c member
      have prefixed : text.take k <+: text.takeWhile holds :=
        List.prefix_of_prefix_length_le (List.take_prefix k text) (List.takeWhile_prefix _)
          (by rw [List.length_take]; omega)
      exact List.all_eq_true.mp List.all_takeWhile c (prefixed.subset member)
    · rw [← placeAt_length, List.append_assoc, List.take_append_drop, List.length_append,
        List.length_take, Nat.min_eq_left within]
  · rintro ⟨part, rest, rfl, inside, rfl⟩
    have short := length_le_takeWhile inside rest
    refine ⟨front.length + part.length, List.mem_range'_1.mpr (by omega), ?_⟩
    rw [← placeAt_length, List.append_assoc, List.length_append]

namespace Pattern

theorem mem_outcomes_char : outcome ∈ (char holds).outcomes (.between front text) captures ↔
    ∃ c rest, text = c :: rest ∧ holds c = true ∧
      outcome = (.between (front ++ [c]) rest, captures) := by
  cases text with
  | nil => simp [outcomes]
  | cons c rest =>
    simp only [outcomes, Cursor.rest_between, Cursor.advance_between, List.cons.injEq]
    by_cases held : holds c = true
    · rw [if_pos held, List.mem_singleton]
      constructor
      · intro same
        exact ⟨c, rest, ⟨rfl, rfl⟩, held, same⟩
      · rintro ⟨d, others, ⟨rfl, rfl⟩, -, same⟩
        exact same
    · rw [if_neg held]
      constructor
      · intro member
        contradiction
      · rintro ⟨d, others, ⟨rfl, rfl⟩, holds, -⟩
        contradiction

theorem mem_outcomes_text :
    outcome ∈ (Pattern.text part).outcomes (.between front text) captures ↔
      ∃ rest, text = part ++ rest ∧ outcome = (.between (front ++ part) rest, captures) := by
  constructor
  · intro member
    obtain ⟨reached, skipped, rfl⟩ := List.mem_map.mp member
    obtain ⟨rest, here, rfl⟩ := Cursor.skip?_eq_some (Option.mem_toList.mp skipped)
    exact ⟨rest, here, rfl⟩
  · rintro ⟨rest, rfl, rfl⟩
    rw [outcomes, Cursor.skip?_between]
    exact List.mem_singleton.mpr rfl

theorem mem_outcomes_many : outcome ∈ (many holds).outcomes (.between front text) captures ↔
    ∃ part rest, text = part ++ rest ∧ (∀ c ∈ part, holds c = true) ∧
      outcome = (.between (front ++ part) rest, captures) := by
  rw [outcomes, List.mem_map]
  constructor
  · rintro ⟨reached, stop, rfl⟩
    obtain ⟨part, rest, here, inside, rfl⟩ := Cursor.mem_stops_between.mp stop
    exact ⟨part, rest, here, inside, rfl⟩
  · rintro ⟨part, rest, here, inside, rfl⟩
    exact ⟨_, Cursor.mem_stops_between.mpr ⟨part, rest, here, inside, rfl⟩, rfl⟩

theorem mem_outcomes_oneOrMore :
    outcome ∈ (oneOrMore holds).outcomes (.between front text) captures ↔
      ∃ part rest, text = part ++ rest ∧ part ≠ [] ∧ (∀ c ∈ part, holds c = true) ∧
        outcome = (.between (front ++ part) rest, captures) := by
  rw [oneOrMore, mem_outcomes_append]
  constructor
  · rintro ⟨middle, one, others⟩
    obtain ⟨c, rest, rfl, held, rfl⟩ := mem_outcomes_char.mp one
    obtain ⟨part, rest, rfl, inside, rfl⟩ := mem_outcomes_many.mp others
    refine ⟨c :: part, rest, rfl, by simp, List.forall_mem_cons.mpr ⟨held, inside⟩, ?_⟩
    rw [List.append_assoc, List.singleton_append]
  · rintro ⟨part, rest, rfl, nonempty, inside, rfl⟩
    obtain ⟨c, part, rfl⟩ := List.exists_cons_of_ne_nil nonempty
    obtain ⟨held, inside⟩ := List.forall_mem_cons.mp inside
    refine ⟨(.between (front ++ [c]) (part ++ rest), captures),
      mem_outcomes_char.mpr ⟨c, part ++ rest, rfl, held, rfl⟩,
      mem_outcomes_many.mpr ⟨part, rest, rfl, inside, ?_⟩⟩
    rw [List.append_assoc, List.singleton_append]

theorem mem_outcomes_capture {slot : Nat} :
    outcome ∈ (capture slot (oneOrMore holds)).outcomes (.between front text) captures ↔
      ∃ part rest, text = part ++ rest ∧ part ≠ [] ∧ (∀ c ∈ part, holds c = true) ∧
        outcome = (.between (front ++ part) rest, captureOf slot front part rest :: captures) := by
  rw [outcomes, List.mem_map]
  constructor
  · rintro ⟨inner, way, rfl⟩
    obtain ⟨part, rest, rfl, nonempty, inside, rfl⟩ := mem_outcomes_oneOrMore.mp way
    exact ⟨part, rest, rfl, nonempty, inside, by simp [captureOf]⟩
  · rintro ⟨part, rest, rfl, nonempty, inside, rfl⟩
    exact ⟨_, mem_outcomes_oneOrMore.mpr ⟨part, rest, rfl, nonempty, inside, rfl⟩,
      by simp [captureOf]⟩

theorem mem_outcomes_optional {body : Pattern} {cursor : Cursor} :
    outcome ∈ (optional body).outcomes cursor captures ↔
      outcome ∈ body.outcomes cursor captures ∨ outcome = (cursor, captures) := by
  rw [outcomes, List.mem_append, List.mem_singleton]

theorem mem_outcomes_wordBoundary {cursor : Cursor} :
    outcome ∈ wordBoundary.outcomes cursor captures ↔
      cursor.atWordBoundary = true ∧ outcome = (cursor, captures) := by
  rw [outcomes]
  split <;> simp_all

theorem mem_outcomes_notAfter {cursor : Cursor} : outcome ∈ (notAfter holds).outcomes cursor captures ↔
    cursor.isAfter holds = false ∧ outcome = (cursor, captures) := by
  rw [outcomes]
  split <;> simp_all

theorem mem_outcomes_notBefore {cursor : Cursor} :
    outcome ∈ (notBefore holds).outcomes cursor captures ↔
      cursor.isBefore holds = false ∧ outcome = (cursor, captures) := by
  rw [outcomes]
  split <;> simp_all

/-- A first way through a chain goes some way through its first part, and first through the other. -/
theorem head?_outcomes_append {first second : Pattern} {cursor : Cursor}
    (way : ((first ++ second).outcomes cursor captures).head? = some outcome) :
    ∃ middle ∈ first.outcomes cursor captures,
      (second.outcomes middle.1 middle.2).head? = some outcome := by
  rw [outcomes_append, List.head?_flatMap] at way
  exact List.exists_of_findSome?_eq_some way

theorem head?_outcomes_oneOrMore
    (way : ((oneOrMore holds).outcomes (.between front text) captures).head? = some outcome) :
    ∃ part rest, text = part ++ rest ∧ part ≠ [] ∧ (∀ c ∈ part, holds c = true) ∧
      (∀ c, rest.head? = some c → holds c = false) ∧
      outcome = (.between (front ++ part) rest, captures) := by
  obtain ⟨part, rest, rfl, spans⟩ := exists_spans holds text
  have nonempty : part ≠ [] := by
    rintro rfl
    obtain ⟨part, others, here, some, held, -⟩ :=
      mem_outcomes_oneOrMore.mp (List.mem_of_mem_head? way)
    obtain ⟨c, part, rfl⟩ := List.exists_cons_of_ne_nil some
    rw [List.nil_append] at here
    have other : holds c = false := spans.ends c (by rw [here]; rfl)
    exact Bool.false_ne_true (other.symm.trans (held c List.mem_cons_self))
  have taken : (oneOrMore holds).Takes front part rest captures captures :=
    takes_oneOrMore nonempty spans.inside spans.ends
  rw [Takes, way] at taken
  exact ⟨part, rest, rfl, nonempty, spans.inside, spans.ends, Option.some.inj taken⟩

theorem head?_outcomes_capture {slot : Nat}
    (way : ((capture slot (oneOrMore holds)).outcomes (.between front text) captures).head? =
      some outcome) :
    ∃ part rest, text = part ++ rest ∧ part ≠ [] ∧ (∀ c ∈ part, holds c = true) ∧
      (∀ c, rest.head? = some c → holds c = false) ∧
      outcome = (.between (front ++ part) rest, captureOf slot front part rest :: captures) := by
  rw [outcomes, List.head?_map] at way
  obtain ⟨inner, taken, rfl⟩ := Option.map_eq_some_iff.mp way
  obtain ⟨part, rest, rfl, nonempty, inside, ends, rfl⟩ := head?_outcomes_oneOrMore taken
  refine ⟨part, rest, rfl, nonempty, inside, ends, ?_⟩
  simp [captureOf]

end Pattern

end Ways

/-- A pattern occurs nowhere in a text if it has no way at any place of it. -/
theorem Pattern.occursIn_eq_false_iff {pattern : Pattern} {text : List Char} :
    pattern.occursIn text = false ↔
      ∀ front rest, text = front ++ rest → pattern.outcomes (.between front rest) [] = [] := by
  rw [occursIn, Option.isSome_eq_false_iff, Option.isNone_iff_eq_none, search?_eq_none_iff]
  simp only [matchAt?_eq_head?, Option.map_eq_none_iff, List.head?_eq_none_iff]
  constructor
  · rintro none front rest rfl
    rw [← placeAt_length]
    exact none front.length (by simp)
  · intro none n inside
    obtain ⟨front, rest, split, -, place⟩ := exists_between inside
    rw [place]
    exact none front rest split

/-- A part that starts in front of a character, and does not have it, ends in front of it. -/
theorem ends_before {c : Char} {rest tail part more : List Char}
    (same : rest ++ c :: tail = part ++ more) (absent : c ∉ part) :
    ∃ left, rest = part ++ left ∧ more = left ++ c :: tail := by
  rcases List.append_eq_append_iff.mp same with ⟨surplus, rfl, beyond⟩ | ⟨left, rfl, rfl⟩
  · cases surplus with
    | nil => exact ⟨[], by simp, beyond.symm⟩
    | cons d surplus =>
      obtain ⟨rfl, -⟩ := List.cons.inj beyond
      exact absurd (List.mem_append_right rest List.mem_cons_self) absent
  · exact ⟨left, rfl, rfl⟩

theorem head_append {holds : Char → Bool} {part : List Char} (starts : part.head?.any holds = true)
    (rest : List Char) : (part ++ rest).head?.any holds = true := by
  cases part with
  | nil => contradiction
  | cons c part => exact starts

section Spelling

variable {front text rest written : List Char} {captures : List Capture} {outcome : Outcome}
  {word : String}

/-- The letters of a word, each in either case. -/
def Spells (word : String) (written : List Char) : Prop :=
  List.Forall₂ (fun letter c => sameLetter letter c = true) word.toList written

theorem spells_self (word : String) : Spells word word.toList := by
  rw [Spells, List.forall₂_same]
  intro letter _
  simp [sameLetter]

/-- Each character that is written is a form of a letter of the word. -/
theorem Spells.exists_letter {c : Char} (spells : Spells word written) (member : c ∈ written) :
    ∃ letter ∈ word.toList, sameLetter letter c = true := by
  unfold Spells at spells
  generalize word.toList = letters at spells
  induction spells with
  | nil => contradiction
  | @cons letter d letters written held spells ih =>
    rcases List.mem_cons.mp member with rfl | later
    · exact ⟨letter, List.mem_cons_self, held⟩
    · obtain ⟨other, inWord, same⟩ := ih later
      exact ⟨other, List.mem_cons_of_mem _ inWord, same⟩

theorem Spells.not_mem {c : Char} (spells : Spells word written)
    (letters : ∀ letter ∈ word.toList, sameLetter letter c = false) : c ∉ written := by
  intro member
  obtain ⟨letter, inWord, same⟩ := spells.exists_letter member
  rw [letters letter inWord] at same
  contradiction

namespace Pattern

theorem takes_anyCase (spells : Spells word written) :
    (anyCase word).Takes front written rest captures captures := by
  unfold Spells at spells
  unfold anyCase
  generalize word.toList = letters at spells ⊢
  induction spells generalizing front with
  | nil => exact takes_empty captures
  | @cons letter c letters written held spells ih => exact takes_append (takes_char held) ih

theorem mem_outcomes_anyCase :
    outcome ∈ (anyCase word).outcomes (.between front text) captures ↔
      ∃ written rest, text = written ++ rest ∧ Spells word written ∧
        outcome = (.between (front ++ written) rest, captures) := by
  unfold Spells
  unfold anyCase
  generalize word.toList = letters
  induction letters generalizing front text with
  | nil => simp [outcomes]
  | cons letter letters ih =>
    rw [List.foldr_cons, mem_outcomes_append]
    constructor
    · rintro ⟨middle, one, others⟩
      obtain ⟨c, rest, rfl, held, rfl⟩ := mem_outcomes_char.mp one
      obtain ⟨written, rest, rfl, spells, rfl⟩ := ih.mp others
      refine ⟨c :: written, rest, rfl, .cons held spells, ?_⟩
      rw [List.append_assoc, List.singleton_append]
    · rintro ⟨written, rest, rfl, spells, rfl⟩
      cases spells with
      | @cons _ c _ written held spells =>
        refine ⟨(.between (front ++ [c]) (written ++ rest), captures),
          mem_outcomes_char.mpr ⟨c, written ++ rest, rfl, held, rfl⟩,
          ih.mpr ⟨written, rest, rfl, spells, ?_⟩⟩
        rw [List.append_assoc, List.singleton_append]

end Pattern

end Spelling

end ContractInspector.Text
