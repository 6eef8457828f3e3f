import ContractInspector.Proofs.Contract.Behind
import ContractInspector.Proofs.Source.Header
import ContractInspector.Proofs.Text.Wide

/-! Scanning a source behind a header. No form starts in the header or looks into it, so the scan of
the source is moved by it and otherwise stays as it is (`scan_header`). -/
namespace ContractInspector.Contract

open Source (Header maskAll stripComments)
open Text (Match Pattern isBlank isWord blankPoints)

variable {front hidden text : List Char}

/-- What a scan says of a source, behind a text in front of the source. -/
structure Scan.Behind (front : List Char) (scan moved : Scan) : Prop where
  languageVersion : moved.languageVersion = scan.languageVersion
  imports : moved.imports = scan.imports
  declared : moved.declared = scan.declared.behind front
  circuitBlocks : moved.circuitBlocks = scan.circuitBlocks.map (CodeBlock.behind front)
  constructors : moved.constructors = scan.constructors.map (CodeBlock.behind front)
  exports : moved.declared.exports = scan.declared.exports
  summary : moved.declared.summary = scan.declared.summary
  lineCount : moved.stats.member? "lineCount" = some (.ofNat (scan.lines.lineCount + front.count '\n'))
  stats : ∀ name, name ≠ "lineCount" → moved.stats.member? name = scan.stats.member? name

/-- The patterns with which a source is scanned. -/
def sourceForms : List Pattern :=
  [Forms.circuit, Forms.witness, Forms.ledgerItem, Forms.typeAlias, Forms.struct, Forms.enumeration,
    Forms.constructor, Forms.pragma, Forms.importTarget]

theorem avoids_blank : ∀ form ∈ sourceForms, ∀ c, isBlank c = true → form.Avoids c := by
  simp only [sourceForms, List.forall_mem_cons, List.not_mem_nil, false_implies, implies_true, and_true]
  refine ⟨?_, ?_, ?_, ?_, ?_, ?_, ?_, ?_, ?_⟩
  all_goals intro c
  case refine_9 => exact @Text.avoids_of_isBlank _ 2 c rfl (by decide)
  all_goals exact @Text.avoids_of_isBlank _ 1 c rfl (by decide)

section Blank

variable (blank : ∀ c ∈ hidden, isBlank c = true)
include blank

theorem adds_blank {first second : Scanned} {form : Pattern}
    (behind : Scanned.Behind front hidden first second) (member : form ∈ sourceForms) :
    Scanned.Adds [] hidden form first second := by
  have avoids : ∀ c ∈ hidden, form.Avoids c := fun c within => avoids_blank form member c (blank c within)
  rw [Scanned.Adds, Scanned.matchesOf, behind.masked, Pattern.matchesIn_behind avoids]
  rfl

theorem versionIn?_blank (text : List Char) : versionIn? (hidden ++ text) = versionIn? text := by
  have avoids : ∀ c ∈ hidden, Forms.pragma.Avoids c := fun c within =>
    avoids_blank _ (by simp [sourceForms]) c (blank c within)
  rw [versionIn?, Pattern.search?_behind avoids, Option.map_map, versionIn?]
  simp [Function.comp_def]

theorem importsIn_blank (text : List Char) : importsIn (hidden ++ text) = importsIn text := by
  have avoids : ∀ c ∈ hidden, Forms.importTarget.Avoids c := fun c within =>
    avoids_blank _ (by simp [sourceForms]) c (blank c within)
  rw [importsIn, Pattern.matchesIn_behind avoids, List.map_map, importsIn]
  simp [Function.comp_def]

end Blank

theorem stats_behind {scan moved : Scan} (declared : moved.declared = scan.declared.behind front)
    {name : String} (other : name ≠ "lineCount") : moved.stats.member? name = scan.stats.member? name := by
  have exports := (Structure.heads_behind front scan.declared).1
  have differs : (name == "lineCount") = false := by simpa using other
  simp only [Scan.stats, Json.Value.member?, List.lookup_cons, Text.Wide.plain_beq_plain, differs, declared,
    exports]
  simp [Structure.behind]

/-- A header in front of a source moves what is found in the source, and nothing else changes. -/
theorem scan_header (header : Header front) (source : List Char) :
    Scan.Behind front (scan source) (scan (front ++ source)) := by
  have behind := Scanned.behind_ofSource (Source.mask_header true header source)
  have blank := Source.isBlank_of_mem_header true header
  have adds {form : Pattern} (member : form ∈ sourceForms) := adds_blank blank behind member
  have circuits := behind.circuits (adds (by simp [sourceForms]))
  have declared : (scan (front ++ source)).declared = (scan source).declared.behind front := by
    simp only [scan, Structure.behind, circuits, behind.witnesses (adds (by simp [sourceForms])),
      behind.ledgerItems (adds (by simp [sourceForms])), behind.types (adds (by simp [sourceForms])),
      behind.structs (adds (by simp [sourceForms])), behind.enums (adds (by simp [sourceForms]))]
    simp [Function.comp_def]
  have uncommented := Source.isBlank_of_mem_header false header
  obtain ⟨exports, summary⟩ := Structure.heads_behind front (scan source).declared
  constructor
  case languageVersion =>
    change versionIn? (Source.mask false _) = versionIn? (Source.mask false _)
    rw [Source.mask_header false header, versionIn?_blank uncommented]
  case imports =>
    change importsIn (Source.mask false _) = importsIn (Source.mask false _)
    rw [Source.mask_header false header, importsIn_blank uncommented]
  case declared => exact declared
  case circuitBlocks =>
    change (Scanned.circuits _).filterMap (·.2) = _
    rw [circuits]
    simp [scan, List.filterMap_map, List.map_filterMap]
  case constructors => exact behind.constructors (adds (by simp [sourceForms]))
  case exports => rw [declared, exports]
  case summary => rw [declared, summary]
  case lineCount =>
    have count := Source.LineIndex.lineCount_append front source
    exact congrArg (some <| Json.Value.ofNat ·) count
  case stats => exact fun name other => stats_behind declared other

end ContractInspector.Contract
