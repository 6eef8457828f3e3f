import ContractInspector.Issue.Detect
import Mathlib.Data.List.Perm.Basic

/-! The order of issues. Each rule has a kind of its own (`sited_of_mem_ruleKinds`), so some of the rules find
the issues of their kinds (`filter_emitted`), and issues stand by line and then by rule: `lines_iff` says that two scans have issues of the same kinds on the same lines exactly if every rule
finds its issues on the same lines, in whatever order it does. -/
namespace ContractInspector.Issue

open Contract (Scan)

/-- The kind and the line of an issue. -/
abbrev Entry := Kind × Nat

def entry (issue : Issue) : Entry :=
  (issue.kind, issue.line)

/-- The place of a kind in the order of the rules. -/
def Kind.rank (kind : Kind) : Nat :=
  kind.ctorIdx

/-- The order of reported issues: by line, and on one line by rule. -/
def Before (first second : Entry) : Prop :=
  first.2 < second.2 ∨ first.2 = second.2 ∧ first.1.rank ≤ second.1.rank

theorem Kind.rank_injective {first second : Kind} (same : first.rank = second.rank) :
    first = second := by
  cases first <;> cases second <;> first | rfl | contradiction

theorem Before.antisymm {first second : Entry} (forth : Before first second)
    (back : Before second first) : first = second := by
  unfold Before at forth back
  have lines : first.2 = second.2 := by omega
  have ranks : first.1.rank = second.1.rank := by omega
  exact Prod.ext (Kind.rank_injective ranks) lines

section Sorting

variable {first second : List Entry}

def onEarlierLine (first second : Entry) : Bool :=
  first.2 ≤ second.2

/-- Sorting by line keeps the order of the rules on each line. -/
theorem pairwise_before (ranked : first.Pairwise fun a b => a.1.rank ≤ b.1.rank) :
    (first.mergeSort onEarlierLine).Pairwise Before := by
  rw [← List.mergeSort_zipIdx, List.pairwise_map]
  have trans : ∀ a b c, onEarlierLine a b = true → onEarlierLine b c = true →
      onEarlierLine a c = true := by
    simp only [onEarlierLine, decide_eq_true_eq]
    omega
  have total : ∀ a b, (onEarlierLine a b || onEarlierLine b a) = true := by
    simp only [onEarlierLine, Bool.or_eq_true, decide_eq_true_eq]
    omega
  have sorted := List.pairwise_mergeSort (List.zipIdxLE_trans trans) (List.zipIdxLE_total total)
    first.zipIdx
  refine sorted.imp_of_mem fun {a b} left right before => ?_
  obtain ⟨a, i⟩ := a
  obtain ⟨b, j⟩ := b
  have here : first[i]? = some a := by simpa [List.mem_zipIdx_iff_getElem?] using left
  have there : first[j]? = some b := by simpa [List.mem_zipIdx_iff_getElem?] using right
  obtain ⟨inside, rfl⟩ := List.getElem?_eq_some_iff.mp here
  obtain ⟨inside', rfl⟩ := List.getElem?_eq_some_iff.mp there
  simp only [List.zipIdxLE, onEarlierLine, decide_eq_true_eq] at before
  rcases Nat.lt_or_ge first[i].2 first[j].2 with less | more
  · exact .inl less
  · have same : first[i].2 = first[j].2 := by
      split at before
      · omega
      · contradiction
    have places : i ≤ j := by simpa [same] using before
    refine .inr ⟨same, ?_⟩
    rcases Nat.lt_or_eq_of_le places with less | rfl
    · exact List.pairwise_iff_getElem.mp ranked i j inside inside' less
    · exact Nat.le_refl _

theorem mergeSort_eq_iff (ranked : first.Pairwise fun a b => a.1.rank ≤ b.1.rank)
    (ranked' : second.Pairwise fun a b => a.1.rank ≤ b.1.rank) :
    first.mergeSort onEarlierLine = second.mergeSort onEarlierLine ↔ first.Perm second := by
  constructor
  · intro same
    exact (List.mergeSort_perm first _).symm.trans (same ▸ List.mergeSort_perm second _)
  · intro perm
    refine List.Perm.eq_of_pairwise (fun a b _ _ => Before.antisymm) (pairwise_before ranked)
      (pairwise_before ranked') ?_
    exact (List.mergeSort_perm first _).trans (perm.trans (List.mergeSort_perm second _).symm)

end Sorting

/-- A part of a list that is sorted is left as it is by sorting. -/
theorem filter_mergeSort {α : Type} {le : α → α → Bool}
    (trans : ∀ a b c, le a b = true → le b c = true → le a c = true)
    (total : ∀ a b, (le a b || le b a) = true) {keep : α → Bool} {items : List α}
    (sorted : (items.filter keep).Pairwise fun a b => le a b = true) :
    (items.mergeSort le).filter keep = items.filter keep := by
  have within : (items.filter keep).Sublist (items.mergeSort le) :=
    List.sublist_mergeSort trans total sorted List.filter_sublist
  have kept := within.filter keep
  rw [List.filter_filter, funext fun item => Bool.and_self (keep item)] at kept
  exact (kept.eq_of_length ((List.mergeSort_perm items le).filter keep).length_eq.symm).symm

section Kinds

/-- The rules with the kinds of their issues. -/
def ruleKinds : List (Rule × Kind) :=
  [(moduleLevelConst, .moduleLevelConst), (stdlibNameCollision, .stdlibNameCollision),
    (sealedExportConflict, .sealedExportConflict), (missingConstructor, .missingConstructor),
    (unsupportedDivision, .unsupportedDivision), (invalidCounterAccess, .invalidCounterAccess),
    (potentialOverflow, .potentialOverflow),
    (undisclosedWitnessConditional, .undisclosedWitnessConditional),
    (undisclosedConstructorParam, .undisclosedConstructorParam),
    (deprecatedLedgerBlock, .deprecatedLedgerBlock), (invalidVoidType, .invalidVoidType),
    (invalidPragmaFormat, .invalidPragmaFormat), (deprecatedCellWrapper, .deprecatedCellWrapper),
    (unexportedEnum, .unexportedEnum)]

theorem rules_eq_map : rules = ruleKinds.map Prod.fst := rfl

/-- All issues have a property. -/
def Each (holds : Issue → Prop) (issues : List Issue) : Prop :=
  ∀ issue ∈ issues, holds issue

namespace Each

variable {α : Type} {holds : Issue → Prop}

theorem nil : Each holds [] := by
  simp [Each]

theorem map {find : α → Issue} {items : List α} (each : ∀ item ∈ items, holds (find item)) :
    Each holds (items.map find) :=
  List.forall_mem_map.mpr each

theorem filterMap {find : α → Option Issue} {items : List α}
    (each : ∀ item ∈ items, Each holds (find item).toList) : Each holds (items.filterMap find) := by
  intro issue member
  obtain ⟨item, among, found⟩ := List.mem_filterMap.mp member
  exact each item among issue (Option.mem_toList.mpr found)

theorem flatMap {find : α → List Issue} {items : List α} (each : ∀ item ∈ items, Each holds (find item)) :
    Each holds (items.flatMap find) := by
  intro issue member
  obtain ⟨item, among, found⟩ := List.mem_flatMap.mp member
  exact each item among issue found

theorem optionMap {find : α → Issue} {item? : Option α} (each : ∀ item, holds (find item)) :
    Each holds (item?.map find).toList := by
  cases item? with
  | none => exact nil
  | some item => simpa [Each] using each item

end Each

/-- The line that a rule may give an issue: that of an offset, or that of a declaration. -/
inductive Placed (scan : Scan) : Nat → Prop where
  | offset (n : Nat) : Placed scan (scan.lines.lineOf n)
  | circuit {circuit : Contract.Circuit} : circuit ∈ scan.declared.circuits → Placed scan circuit.line
  | ledgerItem {item : Contract.LedgerItem} : item ∈ scan.declared.ledgerItems → Placed scan item.line
  | enumeration {declared : Contract.Enumeration} : declared ∈ scan.declared.enums → Placed scan declared.line

/-- An issue is of a kind, on a line that a rule may give it. -/
structure Sited (scan : Scan) (kind : Kind) (issue : Issue) : Prop where
  kind_eq : issue.kind = kind
  placed : Placed scan issue.line

theorem sited_stdlibNameCollision (scan : Scan) :
    Each (Sited scan .stdlibNameCollision) (stdlibNameCollision scan) := by
  rw [stdlibNameCollision]
  split
  · exact .map fun circuit member => ⟨rfl, .circuit (List.mem_filter.mp member).1⟩
  · exact .nil

theorem sited_missingConstructor (scan : Scan) :
    Each (Sited scan .missingConstructor) (missingConstructor scan) := by
  rw [missingConstructor]
  split
  · next first others items _ =>
    have among : first ∈ scan.declared.sealedItems := items ▸ List.mem_cons_self
    exact List.forall_mem_singleton.mpr ⟨rfl, .ledgerItem (List.mem_filter.mp among).1⟩
  · exact .nil

theorem sited_undisclosedWitnessConditional (scan : Scan) :
    Each (Sited scan .undisclosedWitnessConditional) (undisclosedWitnessConditional scan) := by
  simp only [undisclosedWitnessConditional]
  split
  · exact .nil
  · refine .flatMap fun block _ => .filterMap fun found _ issue member => ?_
    simp only [Option.bind_eq_bind, Option.pure_def, Option.mem_toList, Option.bind_eq_some_iff,
      Option.some.injEq] at member
    obtain ⟨condition, -, name, -, rfl⟩ := member
    exact ⟨rfl, .offset _⟩

/-- Every rule finds issues of its own kind only, each on the line of an offset or of a declaration. -/
theorem sited_of_mem_ruleKinds (scan : Scan) : ∀ rule ∈ ruleKinds, Each (Sited scan rule.2) (rule.1 scan) := by
  simp only [ruleKinds, List.forall_mem_cons, List.not_mem_nil, false_implies, implies_true,
    and_true]
  exact ⟨.map fun _ _ => ⟨rfl, .offset _⟩, sited_stdlibNameCollision scan,
    .flatMap fun _ _ => .filterMap fun _ _ => .optionMap fun _ => ⟨rfl, .offset _⟩,
    sited_missingConstructor scan, .filterMap fun _ _ => .optionMap fun _ => ⟨rfl, .offset _⟩,
    .flatMap fun _ _ => .map fun _ _ => ⟨rfl, .offset _⟩,
    .filterMap fun _ _ => .optionMap fun _ => ⟨rfl, .offset _⟩, sited_undisclosedWitnessConditional scan,
    .flatMap fun _ _ => .flatMap fun _ _ => .filterMap fun _ _ => .optionMap fun _ => ⟨rfl, .offset _⟩,
    .map fun _ _ => ⟨rfl, .offset _⟩, .map fun _ _ => ⟨rfl, .offset _⟩, .optionMap fun _ => ⟨rfl, .offset _⟩,
    .map fun _ _ => ⟨rfl, .offset _⟩, .map fun _ member => ⟨rfl, .enumeration (List.mem_filter.mp member).1⟩⟩

theorem ruleKinds_kind (scan : Scan) (rule : Rule × Kind) (member : rule ∈ ruleKinds) (issue : Issue)
    (here : issue ∈ rule.1 scan) : issue.kind = rule.2 :=
  (sited_of_mem_ruleKinds scan rule member issue here).kind_eq

theorem placed_of_mem_detect {scan : Scan} {issue : Issue} (member : issue ∈ detect scan) :
    Placed scan issue.line := by
  obtain ⟨_, listed, here⟩ := List.mem_flatMap.mp (List.mem_mergeSort.mp member)
  rw [rules_eq_map] at listed
  obtain ⟨rule, known, rfl⟩ := List.mem_map.mp listed
  exact (sited_of_mem_ruleKinds scan rule known issue here).placed

end Kinds

section Rules

variable {first second : Scan}

/-- The entries of the issues that a rule finds. -/
def entriesOf (scan : Scan) (rule : Rule) : List Entry :=
  (rule scan).map entry

theorem kind_of_mem_entriesOf {scan : Scan} {rule : Rule × Kind} (member : rule ∈ ruleKinds)
    {found : Entry} (here : found ∈ entriesOf scan rule.1) : found.1 = rule.2 := by
  obtain ⟨issue, own, rfl⟩ := List.mem_map.mp here
  exact ruleKinds_kind scan rule member issue own

theorem detect_entries (scan : Scan) :
    (detect scan).map entry = (rules.flatMap (entriesOf scan)).mergeSort onEarlierLine := by
  have sorted : (detect scan).map entry =
      ((rules.flatMap (· scan)).map entry).mergeSort onEarlierLine :=
    List.map_mergeSort fun _ _ _ _ => rfl
  rw [sorted, List.map_flatMap]
  rfl

theorem ranked_entries (scan : Scan) :
    (rules.flatMap (entriesOf scan)).Pairwise fun a b => a.1.rank ≤ b.1.rank := by
  have kinds : (ruleKinds.map Prod.snd).Pairwise fun a b => a.rank ≤ b.rank := by decide
  rw [List.pairwise_map] at kinds
  rw [rules_eq_map, List.flatMap_map, List.pairwise_flatMap]
  refine ⟨fun rule member => ?_, kinds.imp_of_mem fun {rule later} left right le a here b there => ?_⟩
  · apply List.pairwise_of_forall_mem_list
    intro a here b there
    have same := (kind_of_mem_entriesOf member here).trans (kind_of_mem_entriesOf member there).symm
    exact Nat.le_of_eq (congrArg Kind.rank same)
  · rw [kind_of_mem_entriesOf left here, kind_of_mem_entriesOf right there]
    exact le

/-- Some of the rules find the issues of their kinds. -/
theorem filter_emitted {sub table : List (Rule × Kind)} (scan : Scan) (part : sub.Sublist table)
    (listed : table ⊆ ruleKinds) (distinct : (table.map Prod.snd).Nodup) :
    (table.flatMap fun rule => rule.1 scan).filter (·.kind ∈ sub.map Prod.snd) =
      sub.flatMap fun rule => rule.1 scan := by
  induction part with
  | slnil => rfl
  | @cons sub table rule part ih =>
    obtain ⟨own, listed⟩ := List.cons_subset.mp listed
    obtain ⟨fresh, distinct⟩ := List.nodup_cons.mp distinct
    have none : (rule.1 scan).filter (·.kind ∈ sub.map Prod.snd) = [] := by
      refine List.filter_eq_nil_iff.mpr fun issue here chosen => ?_
      rw [ruleKinds_kind scan rule own issue here] at chosen
      exact fresh ((part.map Prod.snd).subset (of_decide_eq_true chosen))
    rw [List.flatMap_cons, List.filter_append, none, List.nil_append, ih listed distinct]
  | @cons_cons sub table rule part ih =>
    obtain ⟨own, listed⟩ := List.cons_subset.mp listed
    obtain ⟨fresh, distinct⟩ := List.nodup_cons.mp distinct
    have all : (rule.1 scan).filter (·.kind ∈ (rule :: sub).map Prod.snd) = rule.1 scan := by
      refine List.filter_eq_self.mpr fun issue here => ?_
      rw [ruleKinds_kind scan rule own issue here]
      simp
    have others : (table.flatMap fun rule => rule.1 scan).filter (·.kind ∈ (rule :: sub).map Prod.snd) =
        (table.flatMap fun rule => rule.1 scan).filter (·.kind ∈ sub.map Prod.snd) := by
      refine List.filter_congr fun issue here => ?_
      obtain ⟨other, later, here⟩ := List.mem_flatMap.mp here
      have different : issue.kind ≠ rule.2 := by
        rw [ruleKinds_kind scan other (listed later) issue here]
        exact fun same => fresh (List.mem_map.mpr ⟨other, later, same⟩)
      simp [different]
    rw [List.flatMap_cons, List.filter_append, all, others, ih listed distinct, List.flatMap_cons]

/-- The issues of one kind are those of its rule. -/
theorem filter_rules (scan : Scan) {rule : Rule × Kind} (member : rule ∈ ruleKinds) :
    (rules.flatMap (· scan)).filter (·.kind = rule.2) = rule.1 scan := by
  have own := filter_emitted scan (List.singleton_sublist.mpr member) (List.Subset.refl _) (by decide)
  rw [rules_eq_map, List.flatMap_map]
  simpa using own

/-- The issues of one kind are those of its rule, in the order of their lines. -/
theorem perm_filter_detect (scan : Scan) {rule : Rule × Kind} (member : rule ∈ ruleKinds) :
    ((detect scan).filter (·.kind = rule.2)).Perm (rule.1 scan) := by
  rw [← filter_rules scan member]
  exact (List.mergeSort_perm _ _).filter _

/-- A rule that goes through a source from front to back finds its issues in the reported order. -/
theorem filter_detect (scan : Scan) {rule : Rule × Kind} (member : rule ∈ ruleKinds)
    (sorted : (rule.1 scan).Pairwise fun a b => a.line ≤ b.line) :
    (detect scan).filter (·.kind = rule.2) = rule.1 scan := by
  rw [detect, detectWith, filter_mergeSort, filter_rules scan member]
  · simpa using fun (a b c : Issue) => @Nat.le_trans a.line b.line c.line
  · simpa using fun (a b : Issue) => Nat.le_total a.line b.line
  · rw [filter_rules scan member]
    simpa using sorted

theorem filter_kind (scan : Scan) {rule : Rule × Kind} (member : rule ∈ ruleKinds) :
    (rules.flatMap (entriesOf scan)).filter (·.1 = rule.2) = entriesOf scan rule.1 := by
  have entries : rules.flatMap (entriesOf scan) = (rules.flatMap (· scan)).map entry :=
    List.map_flatMap.symm
  rw [entries, List.filter_map, entriesOf, ← filter_rules scan member]
  rfl

/-- The lines of the issues that a rule finds. -/
def linesOf (scan : Scan) (rule : Rule) : List Nat :=
  (rule scan).map (·.line)

theorem entriesOf_eq_map (scan : Scan) {rule : Rule × Kind} (member : rule ∈ ruleKinds) :
    entriesOf scan rule.1 = (linesOf scan rule.1).map (rule.2, ·) := by
  rw [entriesOf, linesOf, List.map_map]
  apply List.map_congr_left
  intro issue own
  rw [entry, ruleKinds_kind scan rule member issue own]
  rfl

/-- Two scans have issues of the same kinds on the same lines exactly if each rule finds its issues
on the same lines. -/
theorem lines_iff : (detect first).map entry = (detect second).map entry ↔
    ∀ rule ∈ rules, (linesOf first rule).Perm (linesOf second rule) := by
  rw [detect_entries, detect_entries, mergeSort_eq_iff (ranked_entries first) (ranked_entries second)]
  constructor
  · intro perm rule member
    rw [rules_eq_map] at member
    obtain ⟨rule, listed, rfl⟩ := List.mem_map.mp member
    have own := perm.filter (·.1 = rule.2)
    rw [filter_kind first listed, filter_kind second listed] at own
    have lines := own.map Prod.snd
    rwa [entriesOf, entriesOf, List.map_map, List.map_map] at lines
  · intro perms
    apply List.Perm.flatMap_left _
    intro rule member
    have lines := perms rule member
    rw [rules_eq_map] at member
    obtain ⟨rule, listed, rfl⟩ := List.mem_map.mp member
    rw [entriesOf_eq_map first listed, entriesOf_eq_map second listed]
    exact lines.map _

end Rules

end ContractInspector.Issue
