import ContractInspector.Proofs.Issue.Order
import ContractInspector.Proofs.Source.Depth
import ContractInspector.Proofs.Text.Behind

/-! Constants outside of all bodies: those at depth zero, counting the braces of the masked source from its
start. -/
namespace ContractInspector.Issue

open Source (Enclosed LineIndex braceSpans depthAfter insideSpans maskAll)
open Text (Match Pattern placeAt)

variable {text : List Char} {found : Match}

theorem starts_constPattern (rest : List Char) :
    (constPattern.starts .anything).allow rest = rest.head?.any ('c' == ·) :=
  Text.Starts.allow_ofClass _ rest

theorem getElem?_of_mem_matchesIn (member : found ∈ constPattern.matchesIn text) :
    text[found.start.offset]? = some 'c' := by
  obtain ⟨n, -, matched⟩ := Pattern.matchAt?_of_mem_matchesIn member
  obtain ⟨rfl, -⟩ := Pattern.fits_of_matchAt? matched
  have allowed : (text.drop found.start.offset).head?.any ('c' == ·) = true := by
    rw [← starts_constPattern]
    refine Bool.of_not_eq_false fun ruledOut => ?_
    rw [Pattern.matchAt?_of_ruledOut ruledOut] at matched
    contradiction
  obtain ⟨c, here, same⟩ := (Option.any_eq_true _ _).mp allowed
  rw [← List.head?_drop, here, ← beq_iff_eq.mp same]

/-- Before a constant, no brace closes. -/
theorem enclosed_const (member : found ∈ constPattern.matchesIn text) :
    Enclosed text found.start.offset ↔ 0 < depthAfter (text.take found.start.offset) := by
  rw [Enclosed, getElem?_of_mem_matchesIn member]
  simp

theorem moduleLevelConst_eq (source : List Char) : moduleLevelConst (Contract.scan source) =
    ((constPattern.matchesIn (maskAll source)).filter fun found =>
      depthAfter ((maskAll source).take found.start.offset) = 0).map
        (constIssue (Contract.scan source)) := by
  have masked : (Contract.scan source).masked.text = maskAll source := rfl
  rw [moduleLevelConst, masked]
  congr 1
  refine List.filter_congr fun found member => ?_
  have inside : found.start.offset < (maskAll source).length :=
    (List.getElem?_eq_some_iff.mp (getElem?_of_mem_matchesIn member)).1
  have spans := (Source.insideSpans_braceSpans _ _ inside).trans (enclosed_const member)
  rw [Bool.eq_iff_iff, Bool.not_eq_true', ← Bool.not_eq_true, spans, decide_eq_true_eq]
  omega

/-- Constants are found from the first line on. -/
theorem moduleLevelConst_sorted (source : List Char) :
    (moduleLevelConst (Contract.scan source)).Pairwise fun a b => a.line ≤ b.line := by
  rw [moduleLevelConst_eq, List.pairwise_map]
  refine ((Pattern.ordered_matchesIn _ _).filter _).imp fun {a b} before => ?_
  exact LineIndex.lineOf_mono source (Nat.le_of_lt before)

/-- The outermost brace regions stand in order and apart, each starts at an opening brace, and inside of
them are the offsets at a depth above zero. So the constants reported are those at depth zero, in the order
in which they stand and one issue each. -/
theorem constants_at_depth_zero :
    (∀ text : List Char,
      (braceSpans text).Pairwise (fun earlier later => earlier.closing < later.opening) ∧
      (∀ span ∈ braceSpans text, span.opening < span.closing ∧ text[span.opening]? = some '{') ∧
      ∀ n < text.length, insideSpans (braceSpans text) n = true ↔ Enclosed text n) ∧
    ∀ source : List Char,
      (constPattern.matchesIn (maskAll source)).Pairwise (fun a b => a.start.offset < b.start.offset) ∧
      (detect (Contract.scan source)).filter (·.kind = .moduleLevelConst) =
        ((constPattern.matchesIn (maskAll source)).filter fun found =>
          depthAfter ((maskAll source).take found.start.offset) = 0).map
            (constIssue (Contract.scan source)) := by
  refine ⟨fun text => ?_, fun source => ⟨Pattern.ordered_matchesIn _ _, ?_⟩⟩
  · have regions := Source.regions_braceSpans text
    exact ⟨regions.sorted, fun span member => ⟨regions.bounds span member, regions.opens span member⟩,
      fun n inside => Source.insideSpans_braceSpans text n inside⟩
  · have listed : (moduleLevelConst, Kind.moduleLevelConst) ∈ ruleKinds := List.mem_cons_self
    exact (filter_detect _ listed (moduleLevelConst_sorted source)).trans (moduleLevelConst_eq source)

/-- A closing brace that nothing opens, and a body. -/
def strayCloser : List Char :=
  ['}', '{', 'a', '}']

theorem constants_at_depth_zero_stray :
    (⟨1, 3⟩ : Source.Span) ∈ braceSpans strayCloser ∧ strayCloser[1]? = some '{' ∧
      2 < strayCloser.length ∧ insideSpans (braceSpans strayCloser) 2 = true ∧
      3 < strayCloser.length ∧ ¬insideSpans (braceSpans strayCloser) 3 = true := by
  obtain ⟨-, opens, inside⟩ := constants_at_depth_zero.1 strayCloser
  have region : (⟨1, 3⟩ : Source.Span) ∈ braceSpans strayCloser := by decide
  have body : Enclosed strayCloser 2 := ⟨by decide, by decide⟩
  have closer : ¬Enclosed strayCloser 3 := fun enclosed => enclosed.2 (by decide)
  exact ⟨region, (opens _ region).2, by decide, (inside 2 (by decide)).mpr body, by decide,
    mt (inside 3 (by decide)).mp closer⟩

end ContractInspector.Issue
