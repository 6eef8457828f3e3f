import ContractInspector.Contract.Scan
import ContractInspector.Proofs.Issue.Order

/-! Sorting by line is stable. What a sort by a number gives is determined by the items of each number, in
their order (`eq_of_filter_eq`), and so choosing items before it and behind it comes to the same
(`filter_mergeSort_comm`). For the detected issues this makes every rule independent of the others. -/
namespace ContractInspector.Issue

open Contract (Scan)

section Stable

variable {α : Type} {key : α → Nat} {first second : List α}

def byKey (key : α → Nat) (a b : α) : Bool :=
  key a ≤ key b

theorem byKey_trans (key : α → Nat) (a b c : α) (before : byKey key a b = true) (behind : byKey key b c = true) :
    byKey key a c = true :=
  decide_eq_true (Nat.le_trans (of_decide_eq_true before) (of_decide_eq_true behind))

theorem byKey_total (key : α → Nat) (a b : α) : (byKey key a b || byKey key b a) = true := by
  simpa [byKey] using Nat.le_total (key a) (key b)

theorem pairwise_mergeSort (key : α → Nat) (items : List α) :
    (items.mergeSort (byKey key)).Pairwise fun a b => key a ≤ key b :=
  (List.pairwise_mergeSort (byKey_trans key) (byKey_total key) items).imp of_decide_eq_true

/-- Items of one key stay in their order. -/
theorem filter_key_mergeSort (key : α → Nat) (items : List α) (n : Nat) :
    (items.mergeSort (byKey key)).filter (key · = n) = items.filter (key · = n) := by
  refine filter_mergeSort (byKey_trans key) (byKey_total key) (List.pairwise_of_forall_mem_list ?_)
  intro a here b there
  have same : key a = key b :=
    (of_decide_eq_true (List.mem_filter.mp here).2).trans (of_decide_eq_true (List.mem_filter.mp there).2).symm
  exact decide_eq_true (Nat.le_of_eq same)

theorem mem_of_filter_eq {a : α} (same : first.filter (key · = key a) = second.filter (key · = key a))
    (member : a ∈ first) : a ∈ second := by
  have here : a ∈ first.filter (key · = key a) := List.mem_filter.mpr ⟨member, by simp⟩
  rw [same] at here
  exact (List.mem_filter.mp here).1

/-- A sorted list is determined by its items of each key. -/
theorem eq_of_filter_eq (sorted : first.Pairwise fun a b => key a ≤ key b)
    (sorted' : second.Pairwise fun a b => key a ≤ key b)
    (same : ∀ n, first.filter (key · = n) = second.filter (key · = n)) : first = second := by
  induction first generalizing second with
  | nil =>
    cases second with
    | nil => rfl
    | cons b second => exact nomatch mem_of_filter_eq (same (key b)).symm List.mem_cons_self
  | cons a first ih =>
    cases second with
    | nil => exact nomatch mem_of_filter_eq (same (key a)) List.mem_cons_self
    | cons b second =>
      obtain ⟨least, rest⟩ := List.pairwise_cons.mp sorted
      obtain ⟨least', rest'⟩ := List.pairwise_cons.mp sorted'
      have above : key b ≤ key a := by
        rcases List.mem_cons.mp (mem_of_filter_eq (same (key a)) List.mem_cons_self) with rfl | later
        · exact Nat.le_refl _
        · exact least' a later
      have below : key a ≤ key b := by
        rcases List.mem_cons.mp (mem_of_filter_eq (same (key b)).symm List.mem_cons_self) with rfl | later
        · exact Nat.le_refl _
        · exact least b later
      have heads := same (key a)
      rw [List.filter_cons_of_pos (by simp), List.filter_cons_of_pos (by simp [Nat.le_antisymm above below])]
        at heads
      obtain ⟨rfl, -⟩ := List.cons.inj heads
      have tails (n : Nat) : first.filter (key · = n) = second.filter (key · = n) := by
        have whole := same n
        rw [List.filter_cons, List.filter_cons] at whole
        split at whole
        · exact (List.cons.inj whole).2
        · exact whole
      rw [ih rest rest' tails]

/-- Choosing items comes to the same before a sort and behind it. -/
theorem filter_mergeSort_comm (key : α → Nat) (keep : α → Bool) (items : List α) :
    (items.mergeSort (byKey key)).filter keep = (items.filter keep).mergeSort (byKey key) := by
  refine eq_of_filter_eq ((pairwise_mergeSort key items).filter keep) (pairwise_mergeSort key _) fun n => ?_
  rw [filter_key_mergeSort, List.filter_comm, filter_key_mergeSort, List.filter_comm]

end Stable

section Parts

variable {sub : List Rule}

/-- Of all issues, those that some of the rules emit are what these rules find. -/
theorem filter_mem_emitted (scan : Scan) (part : sub.Sublist rules) :
    (rules.flatMap (· scan)).filter (· ∈ sub.flatMap (· scan)) = sub.flatMap (· scan) := by
  rw [rules_eq_map] at part
  obtain ⟨pairs, among, rfl⟩ := List.sublist_map_iff.mp part
  have chosen := filter_emitted scan among (List.Subset.refl _) (by decide)
  rw [rules_eq_map, List.flatMap_map, List.flatMap_map]
  refine Eq.trans (List.filter_congr fun issue here => ?_) chosen
  rw [← chosen]
  simp [here]

/-- The rules are independent of one another. With some of the rules alone, the issues are those of all rules
that these emit, in the same order; and all issues are those of the single rules, by line, on one line in the
order of the rules, and of one rule in the order in which it finds them. -/
theorem detect_stable (scan : Scan) (part : sub.Sublist rules) :
    detectWith sub scan = (detect scan).filter (· ∈ sub.flatMap (· scan)) ∧
      (detect scan).Perm (rules.flatMap (· scan)) ∧
      ((detect scan).Pairwise fun first second => first.line ≤ second.line) ∧
      ∀ line, (detect scan).filter (·.line = line) =
        rules.flatMap fun rule => (rule scan).filter (·.line = line) := by
  refine ⟨?_, List.mergeSort_perm _ _, pairwise_mergeSort _ _, fun line => ?_⟩
  · have chosen := filter_mergeSort_comm (·.line) (· ∈ sub.flatMap (· scan)) (rules.flatMap (· scan))
    rw [filter_mem_emitted scan part] at chosen
    exact chosen.symm
  · have kept := filter_key_mergeSort (·.line) (rules.flatMap (· scan)) line
    rw [List.filter_flatMap] at kept
    exact kept

/-- Of these two rules the first one finds its issue on the later line. -/
theorem detect_stable_unexported :
    let scan := Contract.scan "enum A \x7b b \x7d\nconst c = 1;".toList
    let sub := [moduleLevelConst, unexportedEnum]
    sub.Sublist rules ∧ detectWith sub scan = (detect scan).filter (· ∈ sub.flatMap (· scan)) := by
  intro scan sub
  have part : sub.Sublist rules := List.cons_sublist_cons.mpr (List.singleton_sublist.mpr (by simp))
  exact ⟨part, (detect_stable scan part).1⟩

end Parts

end ContractInspector.Issue
