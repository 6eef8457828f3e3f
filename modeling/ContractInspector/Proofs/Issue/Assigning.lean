import Mathlib.Order.Bounds.Basic
import ContractInspector.Proofs.Issue.Order
import ContractInspector.Proofs.Text.Behind

/-! Assignments to sealed fields. A circuit is reported for a field at the first place that looks like an
assignment to it; `conflicts_iff` says that this is right exactly unless that place is the binder of a
local declaration. -/
namespace ContractInspector.Issue

open Contract (CodeBlock LedgerItem Scan)
open Text (Match Pattern isBlank isWord placeAt)

variable {name text front behind operator : List Char} {n : Nat} {scan : Scan} {block : CodeBlock}
  {item : LedgerItem} {found : Match}

/-- The operators of assignments. -/
def operators : List (List Char) :=
  [['='], ['+', '='], ['-', '=']]

/-- An assignment to a name starts between two pieces of a text: the name as a whole identifier that is
not a member of something, and an operator that is not a part of a comparison or an arrow. -/
structure AssignsBetween (name operator front behind : List Char) : Prop where
  whole : front.getLast?.any joins = false
  split : ∃ gap rest, behind = name ++ (gap ++ (operator ++ rest)) ∧
    (∀ c ∈ gap, isBlank c = true) ∧ rest.head?.any (fun c => c == '=' || c == '>') = false
  operator : operator ∈ operators

/-- An assignment to a name starts at an offset of a text. -/
def AssignsAt (name operator text : List Char) (n : Nat) : Prop :=
  ∃ front behind, text = front ++ behind ∧ front.length = n ∧
    AssignsBetween name operator front behind

/-- A local is declared at an offset of a text: `const` as a whole word and blanks stand in front. -/
def DeclaresAt (text : List Char) (n : Nat) : Prop :=
  ∃ front gap, text.take n = front ++ ("const".toList ++ gap) ∧
    front.getLast?.any isWord = false ∧ gap ≠ [] ∧ ∀ c ∈ gap, isBlank c = true

/-- A name is set at an offset of a text: it is assigned to, and not the binder of a local declaration. -/
def SetsAt (name text : List Char) (n : Nat) : Prop :=
  ∃ operator, AssignsAt name operator text n ∧ ¬(operator = ['='] ∧ DeclaresAt text n)

section Places

theorem exists_operator {sign : List Char}
    (signed : sign = [] ∨ ∃ c, (c == '+' || c == '-') = true ∧ sign = [c]) : sign ++ ['='] ∈ operators := by
  rcases signed with rfl | ⟨c, held, rfl⟩
  · decide
  · rw [Bool.or_eq_true, beq_iff_eq, beq_iff_eq] at held
    rcases held with rfl | rfl <;> decide

theorem assignsBetween_of_mem {outcome : Text.Outcome}
    (way : outcome ∈ (assignment name).outcomes (.between front behind) []) :
    ∃ operator, AssignsBetween name operator front behind := by
  obtain ⟨_, way, -⟩ := Pattern.mem_outcomes_append.mp way
  obtain ⟨_, way, after⟩ := Pattern.mem_outcomes_append.mp way
  obtain ⟨_, way, equals⟩ := Pattern.mem_outcomes_append.mp way
  obtain ⟨_, way, sign⟩ := Pattern.mem_outcomes_append.mp way
  obtain ⟨_, way, spaced⟩ := Pattern.mem_outcomes_append.mp way
  obtain ⟨_, fresh, named⟩ := Pattern.mem_outcomes_append.mp way
  obtain ⟨whole, rfl⟩ := Pattern.mem_outcomes_notAfter.mp fresh
  obtain ⟨_, rfl, rfl⟩ := Pattern.mem_outcomes_text.mp named
  obtain ⟨gap, _, rfl, blank, rfl⟩ := Pattern.mem_outcomes_many.mp spaced
  rcases Pattern.mem_outcomes_optional.mp sign with signed | rfl
  · obtain ⟨c, _, rfl, held, rfl⟩ := Pattern.mem_outcomes_char.mp signed
    obtain ⟨rest, rfl, rfl⟩ := Pattern.mem_outcomes_text.mp equals
    obtain ⟨before, -⟩ := Pattern.mem_outcomes_notBefore.mp after
    exact ⟨[c] ++ ['='], whole, ⟨gap, rest, by simp, blank, before⟩, exists_operator (.inr ⟨c, held, rfl⟩)⟩
  · obtain ⟨rest, rfl, rfl⟩ := Pattern.mem_outcomes_text.mp equals
    obtain ⟨before, -⟩ := Pattern.mem_outcomes_notBefore.mp after
    exact ⟨[] ++ ['='], whole, ⟨gap, rest, by simp, blank, before⟩, exists_operator (.inl rfl)⟩

/-- The sign of an operator and its equals sign. -/
def operatorPattern : Pattern :=
  .optional (.char fun c => c == '+' || c == '-') ++ .word "="

theorem takes_operator (among : operator ∈ operators) (front rest : List Char) :
    operatorPattern.Takes front operator rest [] [] := by
  have signed {c : Char} (held : (c == '+' || c == '-') = true) :
      operatorPattern.Takes front ([c] ++ ['=']) rest [] [] :=
    Pattern.takes_append (Pattern.takes_optional (Pattern.takes_char held)) (Pattern.takes_text ['='])
  have plain : operatorPattern.Takes front ([] ++ ['=']) rest [] [] := by
    refine Pattern.takes_append (Pattern.takes_optional_nil ?_) (Pattern.takes_text ['='])
    rfl
  simp only [operators, List.mem_cons, List.not_mem_nil, or_false] at among
  rcases among with rfl | rfl | rfl
  · exact plain
  · exact signed (by decide)
  · exact signed (by decide)

/-- What is assigned ends in front of the next semicolon. -/
theorem takes_assignment {gap value rest : List Char} (whole : front.getLast?.any joins = false)
    (blank : ∀ c ∈ gap, isBlank c = true) (among : operator ∈ operators)
    (before : (value ++ rest).head?.any (fun c => c == '=' || c == '>') = false)
    (inside : ';' ∉ value) (ends : ∀ c, rest.head? = some c → c = ';') :
    (assignment name).Takes front (name ++ gap ++ operator ++ value) rest []
      [Pattern.captureOf 1 (front ++ (name ++ gap ++ operator)) value rest] := by
  have visible : ∀ c, (operator ++ (value ++ rest)).head? = some c → isBlank c = false := by
    have each : ∀ operator ∈ operators, operator.head?.any isBlank = false ∧ operator ≠ [] := by decide
    obtain ⟨first, nonempty⟩ := each operator among
    obtain ⟨c, others, rfl⟩ := List.exists_cons_of_ne_nil nonempty
    simpa using first
  have taken : (Pattern.many (· != ';')).Takes (front ++ (name ++ gap ++ operator)) value rest [] [] := by
    refine Pattern.takes_many (fun c member => ?_) fun c first => ?_
    · exact bne_iff_ne.mpr fun same => inside (same ▸ member)
    · rw [ends c first]
      rfl
  have named : (Pattern.notAfter joins ++ .text name).Takes front name
      (gap ++ (operator ++ (value ++ rest))) [] [] :=
    Pattern.takes_append (Pattern.takes_notAfter whole) (Pattern.takes_text name)
  have spaced : (Pattern.notAfter joins ++ .text name ++ .space).Takes front (name ++ gap)
      (operator ++ (value ++ rest)) [] [] :=
    Pattern.takes_append named (Pattern.takes_many blank visible)
  have operated : (Pattern.notAfter joins ++ .text name ++ .space ++ operatorPattern).Takes front
      (name ++ gap ++ operator) (value ++ rest) [] [] :=
    Pattern.takes_append spaced (takes_operator among _ _)
  have compared : (Pattern.notAfter joins ++ .text name ++ .space ++ operatorPattern ++
      .notBefore fun c => c == '=' || c == '>').Takes front (name ++ gap ++ operator ++ [])
      (value ++ rest) [] [] := Pattern.takes_append operated (Pattern.takes_notBefore before)
  rw [List.append_nil] at compared
  exact Pattern.takes_append compared (Pattern.takes_capture taken)

theorem exists_matchAt?_of_assigns (assigns : AssignsBetween name operator front behind) :
    ∃ found, (assignment name).matchAt? (.between front behind) = some found := by
  obtain ⟨gap, rest, rfl, blank, before⟩ := assigns.split
  obtain ⟨value, behind, rfl, spans⟩ := Text.exists_spans (· ≠ ';') rest
  obtain ⟨inside, ends⟩ := Text.spans_ne_iff.mp spans
  have taken : (assignment name).Takes front _ _ [] _ :=
    takes_assignment assigns.whole blank assigns.operator before inside ends
  exact ⟨_, by simpa using Pattern.matchAt?_of_takes taken⟩

theorem exists_matchAt?_iff (inside : n ≤ text.length) :
    (∃ found, (assignment name).matchAt? (placeAt text n) = some found) ↔
      ∃ operator, AssignsAt name operator text n := by
  constructor
  · rintro ⟨found, matched⟩
    obtain ⟨front, behind, outcome, rfl, rfl, way, -⟩ := Pattern.exists_way inside matched
    obtain ⟨operator, assigns⟩ := assignsBetween_of_mem (List.mem_of_mem_head? way)
    exact ⟨operator, front, behind, rfl, rfl, assigns⟩
  · rintro ⟨operator, front, behind, rfl, rfl, assigns⟩
    rw [Text.placeAt_length]
    exact exists_matchAt?_of_assigns assigns

theorem AssignsAt.inside (assigns : AssignsAt name operator text n) : n ≤ text.length := by
  obtain ⟨front, behind, rfl, rfl, -⟩ := assigns
  simp

/-- A search finds the first assignment. -/
theorem isLeast_of_search? (searched : (assignment name).search? text = some found) :
    IsLeast {n | ∃ operator, AssignsAt name operator text n} found.start.offset := by
  obtain ⟨n, inside, matched, passes⟩ := Pattern.search?_eq_some_iff.mp searched
  obtain ⟨rfl, -⟩ := Pattern.fits_of_matchAt? matched
  refine ⟨(exists_matchAt?_iff inside).mp ⟨found, matched⟩, ?_⟩
  rintro m ⟨operator, assigns⟩
  by_contra before
  obtain ⟨other, earlier⟩ := (exists_matchAt?_iff assigns.inside).mpr ⟨operator, assigns⟩
  exact nomatch earlier.symm.trans (passes m (Nat.zero_le m) (Nat.lt_of_not_le before))

theorem not_assignsAt_of_search? (none : (assignment name).search? text = none) :
    ¬AssignsAt name operator text n := by
  intro assigns
  obtain ⟨found, matched⟩ := (exists_matchAt?_iff assigns.inside).mpr ⟨operator, assigns⟩
  exact nomatch matched.symm.trans (Pattern.search?_eq_none_iff.mp none n assigns.inside)

end Places

section Conflicts

/-- The issue of a circuit that sets a sealed field at an offset of its body. -/
def conflictIssue (scan : Scan) (block : CodeBlock) (item : LedgerItem) (offset : Nat) : Issue where
  kind := .sealedExportConflict
  message := "Exported circuit '" ++ block.name ++ "' modifies sealed ledger field '" ++ item.name ++ "'"
  suggestion := "Sealed fields can only be set once, in the constructor. " ++
    "Move the assignment into `constructor(...) \x7b " ++ item.name ++ " = disclose(...); \x7d`"
  line := lineIn scan block offset

/-- What is reported for a circuit and a field. -/
def conflict? (scan : Scan) (block : CodeBlock) (item : LedgerItem) : Option Issue :=
  ((assignment item.name.toList).search? (bodyOf scan block)).map fun found =>
    conflictIssue scan block item found.start.offset

/-- The places where a circuit sets a field. -/
def settings (scan : Scan) (block : CodeBlock) (item : LedgerItem) : Set Nat :=
  {n | SetsAt item.name.toList (bodyOf scan block) n}

/-- What is to be reported for a circuit and a field: one issue at the first place where the circuit sets
it, or nothing if it does not. -/
def Due (scan : Scan) (block : CodeBlock) (item : LedgerItem) (answer : Option Issue) : Prop :=
  (settings scan block item = ∅ ∧ answer = none) ∨
    ∃ n, IsLeast (settings scan block item) n ∧ answer = some (conflictIssue scan block item n)

/-- The first place that looks like an assignment is the binder of a local declaration, and the field is
not first set on the same line. -/
def Misled (scan : Scan) (block : CodeBlock) (item : LedgerItem) : Prop :=
  ∃ n, IsLeast {n | ∃ operator, AssignsAt item.name.toList operator (bodyOf scan block) n} n ∧
    n ∉ settings scan block item ∧
    ∀ m, IsLeast (settings scan block item) m → lineIn scan block m ≠ lineIn scan block n

theorem due_iff (scan : Scan) (block : CodeBlock) (item : LedgerItem) :
    Due scan block item (conflict? scan block item) ↔ ¬Misled scan block item := by
  rw [conflict?]
  cases searched : (assignment item.name.toList).search? (bodyOf scan block) with
  | none =>
    have empty : settings scan block item = ∅ := by
      refine Set.eq_empty_of_forall_notMem fun n sets => ?_
      obtain ⟨operator, assigns, -⟩ := sets
      exact not_assignsAt_of_search? searched assigns
    refine iff_of_true (.inl ⟨empty, rfl⟩) ?_
    rintro ⟨n, ⟨⟨operator, assigns⟩, -⟩, -⟩
    exact not_assignsAt_of_search? searched assigns
  | some found =>
    have first := isLeast_of_search? searched
    rw [Option.map_some]
    constructor
    · rintro (⟨-, none⟩ | ⟨m, least, same⟩) ⟨n, isFirst, -, elsewhere⟩
      · contradiction
      · obtain rfl := isFirst.unique first
        have line := congrArg Issue.line (Option.some.inj same)
        exact elsewhere m least line.symm
    · intro fair
      by_cases sets : found.start.offset ∈ settings scan block item
      · refine .inr ⟨_, ⟨sets, fun m setsThere => first.2 ?_⟩, rfl⟩
        obtain ⟨operator, assigns, -⟩ := setsThere
        exact ⟨operator, assigns⟩
      · by_contra wrong
        refine fair ⟨_, first, sets, fun m least line => wrong (.inr ⟨m, least, ?_⟩)⟩
        rw [conflictIssue, conflictIssue, line]

/-- Conflicts are reported for each exported circuit and each sealed field, at most once, and what is
reported is due exactly if the first place that looks like an assignment is not misleading. -/
theorem conflicts_iff (source : List Char) :
    let scan := Contract.scan source
    ((detect scan).filter (·.kind = .sealedExportConflict)).Perm
        ((scan.circuitBlocks.filter (·.isExported)).flatMap fun block =>
          scan.declared.sealedItems.filterMap (conflict? scan block)) ∧
      ∀ block item, Due scan block item (conflict? scan block item) ↔ ¬Misled scan block item := by
  intro scan
  refine ⟨?_, due_iff scan⟩
  have listed : (sealedExportConflict, Kind.sealedExportConflict) ∈ ruleKinds := by simp [ruleKinds]
  exact perm_filter_detect scan listed

/-- A circuit that declares a local with the name of a sealed field. -/
def shadowing : List Char :=
  "sealed ledger f: A; constructor() {} export circuit c() { const f = 1; }".toList

/-- The body of the circuit, in which nothing is set. -/
theorem not_setsAt_shadowing : ¬SetsAt ['f'] " const f = 1; ".toList n := by
  rintro ⟨operator, assigns, set⟩
  have only : ∀ n ≤ " const f = 1; ".toList.length,
      ((assignment ['f']).matchAt? (placeAt " const f = 1; ".toList n)).isSome → n = 7 := by
    decide +kernel
  obtain ⟨found, matched⟩ := (exists_matchAt?_iff assigns.inside).mpr ⟨operator, assigns⟩
  obtain rfl := only n assigns.inside (by rw [matched]; rfl)
  have declares : DeclaresAt " const f = 1; ".toList 7 :=
    ⟨[' '], [' '], by decide, by decide, by decide, by decide⟩
  obtain ⟨front, behind, split, length, between⟩ := assigns
  obtain ⟨gap, rest, rfl, blank, -⟩ := between.split
  have tail : ['f', ' ', '=', ' ', '1', ';', ' '] = ['f'] ++ (gap ++ (operator ++ rest)) := by
    have cut := congrArg (List.drop 7) split
    rwa [List.drop_left' length] at cut
  have among := between.operator
  simp only [operators, List.mem_cons, List.not_mem_nil, or_false] at among
  rcases gap with _ | ⟨a, _ | ⟨b, gap⟩⟩
  · rcases among with rfl | rfl | rfl <;> simp at tail
  · rcases among with rfl | rfl | rfl
    · exact set ⟨rfl, declares⟩
    · simp at tail
    · simp at tail
  · have equals : b = '=' := by simp at tail; exact tail.2.1.symm
    exact absurd (blank b (by simp)) (by rw [equals]; decide)

/-- A local with the name of a sealed field is reported as if the field were set. -/
theorem not_due_shadowing :
    ∃ block ∈ (Contract.scan shadowing).circuitBlocks.filter (·.isExported),
      ∃ item ∈ (Contract.scan shadowing).declared.sealedItems,
        ¬Due (Contract.scan shadowing) block item (conflict? (Contract.scan shadowing) block item) := by
  refine ⟨⟨.circuit, "c", [], true, 1, 57, 71⟩, by decide +kernel, ⟨"f", "A", false, true, 1⟩,
    by decide +kernel, ?_⟩
  have body : bodyOf (Contract.scan shadowing) ⟨.circuit, "c", [], true, 1, 57, 71⟩ =
      " const f = 1; ".toList := by decide +kernel
  rw [Due, settings, body]
  rintro (⟨-, none⟩ | ⟨n, least, -⟩)
  · have found : (conflict? (Contract.scan shadowing) ⟨.circuit, "c", [], true, 1, 57, 71⟩
        ⟨"f", "A", false, true, 1⟩).isSome = true := by decide +kernel
    rw [none] at found
    contradiction
  · exact not_setsAt_shadowing least.1

end Conflicts

end ContractInspector.Issue
