import ContractInspector.Issue.Detect
import ContractInspector.Proofs.Contract.Masked

/-! What the rules look at. Most of them see a scan in outline only, that is, what its masked source
decides; the four others are told what else they read. -/
namespace ContractInspector.Issue

open Contract (Scan Structure)
open Source (maskAll stripComments)

/-- A scan without the texts that its masked source does not decide. -/
def outline (scan : Scan) : Scan :=
  { scan with
    text := []
    uncommented := []
    languageVersion := none
    imports := []
    declared := scan.declared.heads
    circuitBlocks := scan.circuitBlocks.map (·.head)
    constructors := scan.constructors.map (·.head) }

/-- The rules that see the outline of a scan only. -/
def outlineRules : List Rule :=
  [moduleLevelConst, sealedExportConflict, missingConstructor, unsupportedDivision,
    potentialOverflow, undisclosedWitnessConditional, deprecatedLedgerBlock, invalidVoidType,
    deprecatedCellWrapper, unexportedEnum]

theorem outline_congr {first second : List Char} (masked : maskAll first = maskAll second) :
    outline (Contract.scan first) = outline (Contract.scan second) := by
  have same := Contract.scan_sameOutline masked
  have alike := Contract.Scanned.alike_of_maskAll masked
  have texts : (Contract.scan first).masked = (Contract.scan second).masked := alike.masked
  have lines : (Contract.scan first).lines = (Contract.scan second).lines := alike.lines
  simp only [outline, same.heads, same.circuitBlocks, same.constructors, texts, lines]

section Outline

variable (scan : Scan)

theorem witnessNames_outline : witnessNames (outline scan) = witnessNames scan := by
  simp [witnessNames, outline, Structure.heads, Contract.Witness.head]

theorem moduleLevelConst_outline : moduleLevelConst (outline scan) = moduleLevelConst scan := rfl

theorem sealedExportConflict_outline :
    sealedExportConflict (outline scan) = sealedExportConflict scan := by
  simp only [sealedExportConflict, outline, Structure.heads, Structure.sealedItems, List.filter_map,
    List.flatMap_map, List.filterMap_map]
  rfl

theorem missingConstructor_outline : missingConstructor (outline scan) = missingConstructor scan := by
  have sealedItems : (outline scan).declared.sealedItems =
      scan.declared.sealedItems.map (·.head) := List.filter_map
  have constructors : (outline scan).constructors = scan.constructors.map (·.head) := rfl
  rw [missingConstructor, missingConstructor, sealedItems, constructors]
  cases scan.declared.sealedItems <;> cases scan.constructors <;>
    simp [Contract.LedgerItem.head, Function.comp_def]

theorem unsupportedDivision_outline :
    unsupportedDivision (outline scan) = unsupportedDivision scan := by
  simp only [unsupportedDivision, outline, List.filterMap_map]
  rfl

theorem potentialOverflow_outline : potentialOverflow (outline scan) = potentialOverflow scan := by
  simp only [potentialOverflow, witnessNames_outline]
  simp only [outline, List.filterMap_map]
  rfl

theorem undisclosedWitnessConditional_outline :
    undisclosedWitnessConditional (outline scan) = undisclosedWitnessConditional scan := by
  simp only [undisclosedWitnessConditional, witnessNames_outline]
  simp only [outline, List.flatMap_map]
  rfl

theorem unexportedEnum_outline : unexportedEnum (outline scan) = unexportedEnum scan := by
  simp only [unexportedEnum, outline, Structure.heads, List.filter_map, List.map_map]
  rfl

theorem outlineRules_outline : ∀ rule ∈ outlineRules, rule (outline scan) = rule scan := by
  simp only [outlineRules, List.forall_mem_cons, List.not_mem_nil, false_implies, implies_true,
    and_true]
  exact ⟨moduleLevelConst_outline scan, sealedExportConflict_outline scan,
    missingConstructor_outline scan, unsupportedDivision_outline scan,
    potentialOverflow_outline scan, undisclosedWitnessConditional_outline scan, rfl, rfl, rfl,
    unexportedEnum_outline scan⟩

end Outline

section Others

variable {first second : Scan}

theorem outlineRules_congr (same : outline first = outline second) {rule : Rule}
    (member : rule ∈ outlineRules) : rule first = rule second := by
  rw [← outlineRules_outline first rule member, same, outlineRules_outline second rule member]

theorem builtinCollisions_outline (scan : Scan) :
    builtinCollisions (outline scan) = builtinCollisions scan := by
  simp only [builtinCollisions, outline, Structure.heads, List.filter_map, List.map_map]
  rfl

theorem undisclosedConstructorParam_outline (scan : Scan) :
    undisclosedConstructorParam { outline scan with constructors := scan.constructors } =
      undisclosedConstructorParam scan := by
  simp only [undisclosedConstructorParam, outline, Structure.heads, List.flatMap_map]
  rfl

theorem builtinCollisions_congr (same : outline first = outline second) :
    builtinCollisions first = builtinCollisions second := by
  rw [← builtinCollisions_outline first, same, builtinCollisions_outline second]

theorem stdlibNameCollision_congr (same : outline first = outline second)
    (library : Language.libraryImportPattern.occursIn first.uncommented =
      Language.libraryImportPattern.occursIn second.uncommented) :
    stdlibNameCollision first = stdlibNameCollision second := by
  rw [stdlibNameCollision, stdlibNameCollision, library, builtinCollisions_congr same]

/-- Parameters of constructors are told by their names. -/
theorem undisclosedConstructorParam_congr (same : outline first = outline second)
    (names : first.constructors.map (·.params.map paramName) =
      second.constructors.map (·.params.map paramName)) :
    undisclosedConstructorParam first = undisclosedConstructorParam second := by
  have heads : first.constructors.map (·.head) = second.constructors.map (·.head) :=
    congrArg (·.constructors) same
  have views : (first.constructors.map fun block => (block.head, block.params.map paramName)) =
      second.constructors.map fun block => (block.head, block.params.map paramName) := by
    rw [← List.zip_map', ← List.zip_map', heads, names]
  rw [← undisclosedConstructorParam_outline first, ← undisclosedConstructorParam_outline second, same]
  apply Text.flatMap_congr_view views
  intro block _ other _ view
  obtain ⟨head, names⟩ := Prod.mk.inj view
  have starts : block.head.bodyStart = other.head.bodyStart := by rw [head]
  have ends : block.head.bodyEnd = other.head.bodyEnd := by rw [head]
  simp only [Contract.CodeBlock.head] at starts ends
  simp only [bodyOf, lineIn, starts, ends, names]

theorem invalidPragmaFormat_congr (same : outline first = outline second)
    (uncommented : first.uncommented = second.uncommented) :
    invalidPragmaFormat first = invalidPragmaFormat second := by
  have lines : first.lines = second.lines := congrArg (·.lines) same
  rw [invalidPragmaFormat, uncommented, lines, ← invalidPragmaFormat]

end Others

end ContractInspector.Issue
