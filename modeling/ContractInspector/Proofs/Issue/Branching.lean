import ContractInspector.Proofs.Contract.Blocks
import ContractInspector.Proofs.Issue.Disclosing
import ContractInspector.Proofs.Issue.Header
import ContractInspector.Proofs.Issue.Order

/-! Conditions on what a witness provides. An opening of a conditional is reported exactly if its condition
uses a witness, or a local bound to one in the same circuit, outside of what is disclosed. -/
namespace ContractInspector.Issue

open Contract (CodeBlock Scan)
open Source (Paired Span maskAll)
open Text (Match Pattern isWord slice)

variable {source : List Char} {block : CodeBlock} {found : Match} {spans : List Span}

/-- The names whose values a circuit has from a witness. -/
def tainted (scan : Scan) (block : CodeBlock) : List String :=
  witnessNames scan ++ (witnessBound (bodyOf scan block) (witnessNames scan)).map (·.1)

/-- A text uses one of some names outside of some spans. -/
def Exposes (names : List String) (spans : List Span) (text : List Char) : Prop :=
  ∃ name ∈ names, ∃ n, OccursAt name.toList text n ∧ Outside spans n name.toList.length

/-- The issue of a conditional of a circuit that uses a name. -/
def branchIssue (scan : Scan) (block : CodeBlock) (found : Match) (name : String) : Issue where
  kind := .undisclosedWitnessConditional
  message := "Witness value '" ++ name ++ "' is used in a conditional in circuit '" ++ block.name ++
    "' without disclose()"
  suggestion := "Bind the disclosed value to a local first: `const revealed = " ++ "disclose(" ++ name ++
    "); if (revealed ...) \x7b ... \x7d`"
  line := lineIn scan block found.start.offset

/-- What is reported for a conditional of a circuit whose condition must not use some names. -/
def branchAmong? (names : List String) (scan : Scan) (block : CodeBlock) (found : Match) :
    Option Issue := do
  let condition ← Source.blockAt? (bodyOf scan block) (found.stop.offset - 1)
  let name ← firstUsed? names (withoutDisclosed condition.body)
  return branchIssue scan block found name

def branch? (scan : Scan) (block : CodeBlock) : Match → Option Issue :=
  branchAmong? (tainted scan block) scan block

theorem undisclosedWitnessConditional_eq (scan : Scan) (declared : witnessNames scan ≠ []) :
    undisclosedWitnessConditional scan = scan.circuitBlocks.flatMap fun block =>
      (conditional.matchesIn (bodyOf scan block)).filterMap (branch? scan block) := by
  rw [undisclosedWitnessConditional, if_neg (by simpa using declared)]
  rfl

section Names

theorem mem_firstOnto {α : Type} {entries found : List (String × α)} {seen : Std.HashSet String}
    {entry : String × α} (member : entry ∈ Text.firstOnto entries seen found) :
    entry ∈ entries ∨ entry ∈ found := by
  induction entries generalizing seen found with
  | nil => exact .inr (by simpa [Text.firstOnto] using member)
  | cons first others ih =>
    rw [Text.firstOnto] at member
    split at member
    · exact (ih member).imp_left (List.mem_cons_of_mem first)
    · rcases ih member with later | earlier
      · exact .inl (List.mem_cons_of_mem first later)
      · rcases List.mem_cons.mp earlier with rfl | before
        · exact .inl List.mem_cons_self
        · exact .inr before

theorem named_witness {name : String} (member : name ∈ witnessNames (Contract.scan source)) : Named name := by
  obtain ⟨witness, among, rfl⟩ := List.mem_map.mp member
  obtain ⟨found, matched, read⟩ := List.mem_filterMap.mp among
  obtain ⟨type, params, rfl⟩ := Contract.Scanned.exists_of_witness? read
  have split : Contract.Forms.witness =
      (.wordBoundary ++ Contract.Forms.modified Contract.Forms.exported "export" ++ .word "witness" ++ .gap) ++
        Contract.Forms.named ++ (.space ++ Contract.Forms.typeParams ['<', '>', '(', ':']) := rfl
  refine named_of_mem split ?_ matched
  intro body member
  have bodies : Contract.Forms.witness.captured = [(1, .word "export"), (3, .oneOrMore isWord)] := rfl
  rw [bodies] at member
  simpa [Contract.Forms.name] using member

theorem named_bound {body : List Char} {witnesses : List String} {binding : String × Nat}
    (member : binding ∈ witnessBound body witnesses) : Named binding.1 := by
  rcases mem_firstOnto member with bound | none
  · obtain ⟨found, matched, read⟩ := List.mem_filterMap.mp bound
    split at read
    · obtain rfl := Option.some.inj read
      have split : boundCall = (.wordBoundary ++ .word "const" ++ .gap) ++ .capture 1 (.oneOrMore isWord) ++
          (.optional (.space ++ .word ":" ++ .space ++ .oneOrMore fun c => c != '=' && c != ';') ++
            .space ++ .word "=" ++ .space ++ .capture 2 (.oneOrMore isWord) ++ .space ++ .word "(") := rfl
      rw [Named, String.toList_ofList]
      refine Pattern.text_of_mem_matchesIn split ?_ matched
      intro body member
      have bodies : boundCall.captured = [(1, .oneOrMore isWord), (2, .oneOrMore isWord)] := rfl
      rw [bodies] at member
      simpa using member
    · contradiction
  · contradiction

theorem named_tainted {name : String} (member : name ∈ tainted (Contract.scan source) block) : Named name := by
  rcases List.mem_append.mp member with declared | bound
  · exact named_witness declared
  · obtain ⟨binding, among, rfl⟩ := List.mem_map.mp bound
    exact named_bound among

end Names

section Conditions

/-- A piece of masked source between two delimiters is masked. -/
theorem maskAll_slice {text : List Char} {first last : Char} {start stop : Nat}
    (opens : (maskAll text)[start]? = some first) (closes : (maskAll text)[stop]? = some last)
    (firstCode : Source.CodeOnly first) (lastCode : Source.CodeOnly last) :
    maskAll (slice (maskAll text) (start + 1) stop) = slice (maskAll text) (start + 1) stop := by
  have same := (Source.seam_behind opens firstCode).mask_slice (Source.code_at closes lastCode).1 true
  change maskAll _ = slice (maskAll text) _ _ at same
  rw [← same, Source.maskAll_maskAll]

theorem maskAll_bodyOf (member : block ∈ (Contract.scan source).blocks) :
    maskAll (bodyOf (Contract.scan source) block) = bodyOf (Contract.scan source) block := by
  obtain ⟨kind, found, matched, body⟩ := Contract.Scanned.exists_bodyOf? member
  have formed := Contract.Scanned.wellFormed_of_bodyOf? matched body
  have same := maskAll_slice formed.opens formed.closes (by decide) (by decide)
  rw [Nat.sub_add_cancel formed.positive] at same
  rw [bodyOf, Text.Indexed.slice, Text.Indexed.drop_eq]
  exact same

theorem stop_of_conditional {body : List Char} (member : found ∈ conditional.matchesIn body) :
    0 < found.stop.offset := by
  obtain ⟨n, stop, -⟩ := (Pattern.fits_of_mem_matchesIn member).last_text
  rw [stop]
  exact Nat.succ_pos n

theorem branchAmong?_eq {scan : Scan} {closing : Nat} (names : List String)
    (masked : maskAll (bodyOf scan block) = bodyOf scan block) (positive : 0 < found.stop.offset)
    (pair : Paired '(' ')' (bodyOf scan block) (found.stop.offset - 1) closing) :
    branchAmong? names scan block found = (firstUsed? names (withoutDisclosed
      (slice (bodyOf scan block) found.stop.offset closing))).map (branchIssue scan block found) := by
  obtain ⟨condition, here, -, body⟩ := Source.exists_blockAt?_of_paired masked rfl pair
  rw [Nat.sub_add_cancel positive] at body
  rw [branchAmong?, here, ← body]
  cases used : firstUsed? names (withoutDisclosed condition.body) <;> simp [used]

theorem firstUsed?_isSome_iff {names : List String} {text : List Char} :
    (firstUsed? names text).isSome ↔ ∃ name ∈ names, (identifier name.toList).occursIn text = true := by
  rw [firstUsed?, List.find?_isSome]

/-- The condition between two parentheses of masked source is balanced masked source. -/
theorem condition_of_paired {body : List Char} {opening closing : Nat} (masked : maskAll body = body)
    (pair : Paired '(' ')' body opening closing) :
    maskAll (slice body (opening + 1) closing) = slice body (opening + 1) closing ∧
      Source.Balanced '(' ')' (slice body (opening + 1) closing) := by
  have same := maskAll_slice (masked.symm ▸ pair.opens) (masked.symm ▸ pair.closes) (by decide) (by decide)
  rw [masked] at same
  exact ⟨same, pair.balanced (by decide)⟩

end Conditions

/-- With witnesses, conditionals of circuits are reported at most once each, and one whose condition is
closed is reported, on its line, exactly if the condition uses a tainted name outside of the calls of
`disclose`. The order in which the names are tried does not matter. -/
theorem branches_exact (source : List Char) :
    let scan := Contract.scan source
    witnessNames scan ≠ [] →
      ((detect scan).filter (·.kind = .undisclosedWitnessConditional)).Perm
          (scan.circuitBlocks.flatMap fun block =>
            (conditional.matchesIn (bodyOf scan block)).filterMap (branch? scan block)) ∧
        ∀ block ∈ scan.circuitBlocks, ∀ found ∈ conditional.matchesIn (bodyOf scan block), ∀ closing,
          Paired '(' ')' (bodyOf scan block) (found.stop.offset - 1) closing →
            let condition := slice (bodyOf scan block) found.stop.offset closing
            ∃ spans, Calls condition spans ∧
              ∀ names : List String, (∀ name, name ∈ names ↔ name ∈ tainted scan block) →
                (Exposes (tainted scan block) spans condition →
                  ∃ issue, branchAmong? names scan block found = some issue ∧
                    issue.line = (source.take (block.bodyStart + found.start.offset)).count '\n' + 1) ∧
                (¬Exposes (tainted scan block) spans condition →
                  branchAmong? names scan block found = none) := by
  intro scan declared
  constructor
  · have listed : (undisclosedWitnessConditional, Kind.undisclosedWitnessConditional) ∈ ruleKinds := by
      simp [ruleKinds]
    rw [← undisclosedWitnessConditional_eq scan declared]
    exact perm_filter_detect scan listed
  · intro block among found member closing pair condition
    have masked : maskAll (bodyOf scan block) = bodyOf scan block :=
      maskAll_bodyOf (List.mem_append_left _ among)
    have positive := stop_of_conditional member
    obtain ⟨maskedThere, balanced⟩ := condition_of_paired masked pair
    rw [Nat.sub_add_cancel positive] at maskedThere balanced
    obtain ⟨spans, calls, uses⟩ := exists_uses maskedThere balanced
    refine ⟨spans, calls, ?_⟩
    intro names same
    have used : (firstUsed? names (withoutDisclosed condition)).isSome ↔
        Exposes (tainted scan block) spans condition := by
      rw [firstUsed?_isSome_iff]
      apply exists_congr
      intro name
      rw [same]
      exact and_congr_right fun member => uses _ (named_tainted member).1 (named_tainted member).2
    constructor
    · intro exposed
      obtain ⟨name, first⟩ := Option.isSome_iff_exists.mp (used.mpr exposed)
      refine ⟨branchIssue scan block found name, ?_, Source.LineIndex.lineOf_ofText source _⟩
      rw [branchAmong?_eq names masked positive pair, first, Option.map_some]
    · intro hidden
      have none := mt used.mp hidden
      rw [Bool.not_eq_true, Option.isSome_eq_false_iff, Option.isNone_iff_eq_none] at none
      rw [branchAmong?_eq names masked positive pair, none, Option.map_none]

/-- A circuit that discloses what a witness provides the second time, but not the first time. -/
def openBranch : List Char :=
  "witness w(): B;\ncircuit c(): [] \x7b\nif (w() == disclose(w())) \x7b\x7d \x7d".toList

theorem calls_openBranch : Calls "w() == disclose(w())".toList [⟨7, 19⟩] := by
  have closed {text : List Char} {n : Nat} (inside : n ≤ text.length)
      (never : (disclosure.matchAt? (Text.placeAt text n)).isSome = false) : ¬OpensAt text n := by
    intro opens
    obtain ⟨found, matched⟩ := (exists_matchAt?_disclosure_iff inside).mpr opens
    rw [matched] at never
    contradiction
  have passed : ∀ n < 7, (disclosure.matchAt? (Text.placeAt "w() == disclose(w())".toList n)).isSome = false := by
    decide +kernel
  have balanced : Source.Balanced '(' ')' "w()".toList := by
    refine ⟨fun n => ?_, by decide⟩
    rcases n with _ | _ | _ | n <;> simp
  have text : "w() == disclose(w())".toList = "w() == ".toList ++ callOf [] "w()".toList ++ [] := by decide
  rw [text] at passed ⊢
  refine @Calls.call "w() == ".toList [] "w()".toList [] [] (fun n below => closed ?_ (passed n below)) rfl
    (by simp) balanced (.none fun n opens => ?_)
  · exact Nat.le_trans (Nat.le_of_lt below) (by decide)
  · obtain rfl : n = 0 := by simpa using opens.inside
    exact closed (Nat.le_refl 0) (by decide +kernel) opens

theorem branches_exact_open :
    let scan := Contract.scan openBranch
    witnessNames scan ≠ [] ∧ ∃ block ∈ scan.circuitBlocks,
      ∃ found ∈ conditional.matchesIn (bodyOf scan block), ∃ closing,
        Paired '(' ')' (bodyOf scan block) (found.stop.offset - 1) closing ∧
          ∃ issue, branch? scan block found = some issue ∧ issue.line = 3 := by
  intro scan
  have declared : witnessNames scan ≠ [] := by decide +kernel
  let block : CodeBlock := ⟨.circuit, "c", [], false, 2, 33, 63⟩
  have among : block ∈ scan.circuitBlocks := by decide +kernel
  have body : bodyOf scan block = "\nif (w() == disclose(w())) \x7b\x7d ".toList := by decide +kernel
  obtain ⟨found, member, start, stop⟩ : ∃ found ∈ conditional.matchesIn (bodyOf scan block),
      found.start.offset = 1 ∧ found.stop.offset = 5 := by decide +kernel
  have pair : Paired '(' ')' (bodyOf scan block) (found.stop.offset - 1) 25 := by
    have ends : (Source.blockAt? (bodyOf scan block) 4).map Source.Block.ends = some (4, 25) := by
      decide +kernel
    obtain ⟨condition, read, same⟩ := Option.map_eq_some_iff.mp ends
    obtain ⟨-, pair⟩ := Source.paired_of_blockAt? (maskAll_bodyOf (List.mem_append_left _ among))
      (by rw [body]; rfl) rfl read
    rw [stop, ← (Prod.mk.inj same).2]
    exact pair
  have condition : slice (bodyOf scan block) found.stop.offset 25 = "w() == disclose(w())".toList := by
    rw [stop, body]
    decide
  obtain ⟨spans, calls, told⟩ := (branches_exact openBranch declared).2 block among found member 25 pair
  obtain ⟨reported, -⟩ := told (tainted scan block) fun _ => Iff.rfl
  rw [condition] at calls reported
  obtain rfl := calls.unique calls_openBranch
  have exposed : Exposes (tainted scan block) [⟨7, 19⟩] "w() == disclose(w())".toList := by
    have provided : "w" ∈ witnessNames scan := by decide +kernel
    refine ⟨"w", List.mem_append_left _ provided, 0, ⟨by decide, rfl, rfl⟩, ?_⟩
    simp [Outside]
  obtain ⟨issue, branch, line⟩ := reported exposed
  refine ⟨declared, block, among, found, member, 25, pair, issue, branch, ?_⟩
  rw [line, start]
  decide +kernel

end ContractInspector.Issue
