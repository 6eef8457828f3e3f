import ContractInspector.Proofs.Contract.Payload
import ContractInspector.Proofs.Issue.Outline

/-! Comments and the issues of a contract. A source and its copy without comments report the same payloads
and the same issues exactly if no comment shows up in a payload. The only rule that reads payloads looks
for counters. -/
namespace ContractInspector.Issue

open Contract (Scan Scanned PayloadFree)
open Contract.Forms (ledgerItem payload)
open Source (maskAll stripComments)

section Filtered

variable {α β : Type} {items : List α} {narrow wide : α → Bool} {pieces : α → List β}

theorem flatMap_filter_sublist (sub : ∀ item ∈ items, narrow item = true → wide item = true) :
    ((items.filter narrow).flatMap pieces).Sublist ((items.filter wide).flatMap pieces) := by
  induction items with
  | nil => exact .refl _
  | cons item items ih =>
    have behind := ih fun later member => sub later (List.mem_cons_of_mem item member)
    have here := sub item List.mem_cons_self
    by_cases first : narrow item = true
    · rw [List.filter_cons_of_pos first, List.filter_cons_of_pos (here first), List.flatMap_cons,
        List.flatMap_cons]
      exact (List.Sublist.refl _).append behind
    · rw [List.filter_cons_of_neg first]
      by_cases second : wide item = true
      · rw [List.filter_cons_of_pos second, List.flatMap_cons]
        exact behind.trans (List.sublist_append_right _ _)
      · rwa [List.filter_cons_of_neg second]

theorem flatMap_filter_eq_iff (sub : ∀ item ∈ items, narrow item = true → wide item = true) :
    (items.filter narrow).flatMap pieces = (items.filter wide).flatMap pieces ↔
      ∀ item ∈ items, wide item = true → narrow item = true ∨ pieces item = [] := by
  induction items with
  | nil => simp
  | cons item items ih =>
    have later : ∀ item ∈ items, narrow item = true → wide item = true :=
      fun item member => sub item (List.mem_cons_of_mem _ member)
    have here := sub item List.mem_cons_self
    rw [List.forall_mem_cons, ← ih later]
    by_cases first : narrow item = true
    · simp [first, here first]
    by_cases second : wide item = true
    · rw [List.filter_cons_of_neg first, List.filter_cons_of_pos second, List.flatMap_cons]
      have shorter := (@flatMap_filter_sublist _ _ _ _ _ pieces later).length_le
      constructor
      · intro same
        have lengths := congrArg List.length same
        rw [List.length_append] at lengths
        have none : pieces item = [] := List.eq_nil_of_length_eq_zero (by omega)
        exact ⟨fun _ => .inr none, by simpa [none] using same⟩
      · rintro ⟨nothing, same⟩
        have none := (nothing second).resolve_left first
        simpa [none] using same
    · simp [first, second]

end Filtered

section Counters

variable {source other : List Char}

theorem invalidCounterAccess_scan (masked : maskAll other = maskAll source) :
    invalidCounterAccess (Contract.scan other) =
      (((Scanned.ofSource source).matchesOf ledgerItem).filter fun found =>
        (Scanned.ofSource other).captured found payload == "Counter").flatMap fun found =>
          valueAccesses (Contract.scan source) (Scanned.nameOf found) := by
  have alike := Contract.Scanned.alike_of_maskAll masked
  have accesses : valueAccesses (Contract.scan other) = valueAccesses (Contract.scan source) := by
    have texts : (Contract.scan other).masked = (Contract.scan source).masked := alike.masked
    have lines : (Contract.scan other).lines = (Contract.scan source).lines := alike.lines
    funext name
    rw [valueAccesses, texts, lines, ← valueAccesses]
  rw [invalidCounterAccess, accesses]
  simp only [Contract.scan, Scanned.ledgerItems, alike.matchesOf, List.filter_map, List.flatMap_map]
  rfl

theorem counter_stripComments {found : Text.Match}
    (member : found ∈ (Scanned.ofSource source).matchesOf ledgerItem)
    (counter : (Scanned.ofSource source).captured found payload = "Counter") :
    (Scanned.ofSource (stripComments source)).captured found payload = "Counter" := by
  have has := Contract.hasPayload_ledgerItem member
  have free := Contract.payloadFree_of_slash has "Counter".toList counter (by decide) (by decide)
  rw [← (Contract.captured_iff has).mpr free, counter]

/-- The ledger items that are counters without comments, but not with them, and that are used as if
they had a `value`. -/
theorem invalidCounterAccess_iff (source : List Char) :
    invalidCounterAccess (Contract.scan source) =
        invalidCounterAccess (Contract.scan (stripComments source)) ↔
      ∀ found ∈ (Scanned.ofSource source).matchesOf ledgerItem,
        (Scanned.ofSource (stripComments source)).captured found payload = "Counter" →
        (Scanned.ofSource source).captured found payload = "Counter" ∨
          valueAccesses (Contract.scan source) (Scanned.nameOf found) = [] := by
  rw [invalidCounterAccess_scan rfl,
    invalidCounterAccess_scan (Source.maskAll_stripComments source)]
  refine (flatMap_filter_eq_iff fun found member => ?_).trans ?_
  · simpa using counter_stripComments member
  · simp

end Counters

section Detected

theorem otherRules_stripComments (source : List Char) {rule : Rule}
    (member : rule ∈ rules.take 5 ++ rules.drop 6) :
    rule (Contract.scan source) = rule (Contract.scan (stripComments source)) := by
  have masked := (Source.maskAll_stripComments source).symm
  have uncommented := (Source.stripComments_stripComments source).symm
  have outlines := outline_congr masked
  have constructors := Contract.blocks_ext (Contract.scan_sameOutline masked).constructors
    (Contract.scan_sameMembers masked uncommented).constructors
  have known : rules.take 5 ++ rules.drop 6 ⊆
      [stdlibNameCollision, undisclosedConstructorParam, invalidPragmaFormat] ++ outlineRules := by
    simp [rules, outlineRules]
  rcases List.mem_append.mp (known member) with special | plain
  · simp only [List.mem_cons, List.not_mem_nil, or_false] at special
    rcases special with rfl | rfl | rfl
    · exact stdlibNameCollision_congr outlines (congrArg _ uncommented)
    · exact undisclosedConstructorParam_congr outlines (by rw [constructors])
    · exact invalidPragmaFormat_congr outlines uncommented
  · exact outlineRules_congr outlines plain

/-- The issues change with comments exactly if those of counters do. -/
theorem detect_iff (source : List Char) :
    detect (Contract.scan source) = detect (Contract.scan (stripComments source)) ↔
      invalidCounterAccess (Contract.scan source) =
        invalidCounterAccess (Contract.scan (stripComments source)) := by
  have parts : rules = rules.take 5 ++ invalidCounterAccess :: rules.drop 6 := rfl
  have split : ∀ scan, rules.flatMap (· scan) = (rules.take 5).flatMap (· scan) ++
      (invalidCounterAccess scan ++ (rules.drop 6).flatMap (· scan)) := by
    intro scan
    conv_lhs => rw [parts, List.flatMap_append, List.flatMap_cons]
  have same : ∀ part ⊆ rules.take 5 ++ rules.drop 6, part.flatMap (· (Contract.scan source)) =
      part.flatMap (· (Contract.scan (stripComments source))) := fun part sub =>
    List.flatMap_congr fun rule member => otherRules_stripComments source (sub member)
  have before := same _ (List.subset_append_left _ _)
  have behind := same _ (List.subset_append_right _ _)
  rw [detect, detect, detectWith, detectWith, split, split, before, behind]
  constructor
  · intro detected
    have lengths := congrArg List.length detected
    simp only [List.length_mergeSort, List.length_append] at lengths
    have sub : (invalidCounterAccess (Contract.scan source)).Sublist
        (invalidCounterAccess (Contract.scan (stripComments source))) := by
      rw [invalidCounterAccess_scan rfl,
        invalidCounterAccess_scan (Source.maskAll_stripComments source)]
      apply flatMap_filter_sublist
      intro found member
      simpa using counter_stripComments member
    exact sub.eq_of_length (by omega)
  · intro counters
    rw [counters]

/-- A source and its copy without comments report the same payloads and the same issues exactly if no
visible character of a comment lies in a payload. The issues alone are the same exactly if comments hide
no counter whose `value` is accessed. -/
theorem comments_iff (source : List Char) :
    ((Contract.scan source).SamePayloads (Contract.scan (stripComments source)) ∧
        detect (Contract.scan source) = detect (Contract.scan (stripComments source)) ↔
      ∀ found ∈ (Scanned.ofSource source).payloads, PayloadFree source found) ∧
    (detect (Contract.scan source) = detect (Contract.scan (stripComments source)) ↔
      ∀ items ∈ (Contract.scan source).declared.ledgerItems.zip
          (Contract.scan (stripComments source)).declared.ledgerItems,
        items.2.type = "Counter" → items.1.type = "Counter" ∨
          (valueAccess items.1.name.toList).matchesIn (maskAll source) = []) := by
  have counters := (detect_iff source).trans (invalidCounterAccess_iff source)
  refine ⟨?_, counters.trans ?_⟩
  · rw [← Contract.samePayloads_iff]
    refine ⟨And.left, ?_⟩
    intro payloads
    refine ⟨payloads, counters.mpr ?_⟩
    intro found member counter
    have free := (Contract.ledgerItems_iff source).mp payloads.ledgerItems found member
    exact .inl (((Contract.captured_iff (Contract.hasPayload_ledgerItem member)).mpr free).trans
      counter)
  · have alike := Contract.Scanned.alike_of_maskAll (Source.maskAll_stripComments source)
    simp only [Contract.scan, Scanned.ledgerItems, alike.matchesOf, List.zip_map', List.forall_mem_map,
      valueAccesses, List.map_eq_nil_iff]
    rfl

/-- A counter with a comment behind its type is reported with the comment, and is not seen by the rule
for counters. -/
theorem comments_iff_counter :
    let source := "ledger c: Counter /**/; c.value".toList
    ¬(Contract.scan source).SamePayloads (Contract.scan (stripComments source)) ∧
      detect (Contract.scan source) ≠ detect (Contract.scan (stripComments source)) := by
  intro source
  have uncommented : stripComments source = "ledger c: Counter     ; c.value".toList := by
    decide +kernel
  have found : detect (Contract.scan source) = [] := by decide +kernel
  rw [uncommented, found]
  refine ⟨?_, by decide +kernel⟩
  intro same
  have types := same.ledgerItems
  revert types
  decide +kernel

end Detected

end ContractInspector.Issue
