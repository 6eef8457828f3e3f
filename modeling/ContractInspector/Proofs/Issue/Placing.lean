import ContractInspector.Proofs.Contract.Placing
import ContractInspector.Proofs.Issue.Order

/-! The lines of a report. Declarations and blocks stand on the lines that are reported for them, and every
line that is reported is one of the source (`lines_reported`). -/
namespace ContractInspector.Issue

open Contract (CodeBlock Scanned)
open Source (LineIndex maskAll)

variable {source : List Char} {line : Nat}

/-- A line that a rule may give an issue is one of the source. -/
theorem Placed.within (placed : Placed (Contract.scan source) line) :
    1 ≤ line ∧ line ≤ (Contract.scan source).lines.lineCount := by
  cases placed with
  | offset n => exact LineIndex.lineOf_within source n
  | circuit member =>
    have kind : (Contract.scan source).declared.circuits.map (·.lead) ∈ (Contract.scan source).declared.leads :=
      List.mem_cons_self
    exact Contract.within_of_mem_leads kind (List.mem_map_of_mem member)
  | ledgerItem member =>
    have kind : (Contract.scan source).declared.ledgerItems.map (·.lead) ∈
        (Contract.scan source).declared.leads := by
      simp [Contract.Structure.leads]
    exact Contract.within_of_mem_leads kind (List.mem_map_of_mem member)
  | enumeration member =>
    have kind : (Contract.scan source).declared.enums.map (·.lead) ∈
        (Contract.scan source).declared.leads := by
      simp [Contract.Structure.leads]
    exact Contract.within_of_mem_leads kind (List.mem_map_of_mem member)

/-- An offset is on the line that is numbered by the newlines in front of it. Declarations and blocks are
reported in the order of their lines, each on the line on which its first keyword stands in the masked
source; and every line that is reported, those of issues included, is one of the source. -/
theorem lines_reported (source : List Char) :
    (∀ (text : List Char) (n : Nat), (LineIndex.ofText text).lineOf n = 1 + (text.take n).count '\n' ∧
      ∃ line, Text.LiesOn text line ((LineIndex.ofText text).lineOf n - 1) (min n text.length)) ∧
    (∀ leads ∈ (Contract.scan source).declared.leads,
      (leads.Pairwise fun first second => first.line ≤ second.line) ∧ ∀ lead ∈ leads,
        (1 ≤ lead.line ∧ lead.line ≤ (Contract.scan source).lines.lineCount) ∧
          ∃ n, lead.StandsAt (maskAll source) n) ∧
    (∀ blocks ∈ [(Contract.scan source).circuitBlocks, (Contract.scan source).constructors],
      (blocks.Pairwise fun first second => first.line ≤ second.line) ∧ ∀ block ∈ blocks,
        (1 ≤ block.line ∧ block.line ≤ (Contract.scan source).lines.lineCount) ∧ block.Starts source) ∧
    ∀ issue ∈ detect (Contract.scan source),
      1 ≤ issue.line ∧ issue.line ≤ (Contract.scan source).lines.lineCount := by
  have starts (block : CodeBlock) (member : block ∈ (Contract.scan source).blocks) :
      (1 ≤ block.line ∧ block.line ≤ (Contract.scan source).lines.lineCount) ∧ block.Starts source := by
    obtain ⟨kind, found, -, body⟩ := Scanned.exists_bodyOf? member
    exact ⟨Contract.line_of_bodyOf? body ▸ LineIndex.lineOf_within source _, Contract.starts_of_mem member⟩
  refine ⟨fun text n => ⟨?_, ?_⟩, fun leads kind => ⟨?_, fun lead member => ?_⟩, ?_,
    fun issue member => (placed_of_mem_detect member).within⟩
  · rw [LineIndex.lineOf_ofText, Nat.add_comm]
  · rw [LineIndex.lineOf_ofText, Nat.add_sub_cancel, List.take_eq_take_min]
    exact Text.exists_liesOn (Nat.min_le_right n text.length)
  · exact (Contract.inOrder_leads source leads kind).ordered
  · exact ⟨Contract.within_of_mem_leads kind member, (Contract.inOrder_leads source leads kind).stands lead member⟩
  · simp only [List.forall_mem_cons, List.not_mem_nil, false_implies, implies_true, and_true]
    refine ⟨⟨List.pairwise_map.mp (Contract.ordered_circuitBlocks source), fun block member => ?_⟩,
      List.pairwise_map.mp (Contract.ordered_constructors source), fun block member => ?_⟩
    · exact starts block (List.mem_append_left _ member)
    · exact starts block (List.mem_append_right _ member)

end ContractInspector.Issue
