import ContractInspector.Issue.Detect
import ContractInspector.Proofs.Contract.Header
import ContractInspector.Proofs.Text.Captured

/-! Issues of a source behind a header. Every rule finds the issues that it finds in the source, on lines
that the header has moved (`rules_header`). -/
namespace ContractInspector

/-- An issue, moved behind a text. -/
def Issue.behind (front : List Char) (issue : Issue) : Issue :=
  { issue with line := issue.line + front.count '\n' }

end ContractInspector

namespace ContractInspector.Issue

open Contract (CodeBlock LedgerItem Scan)
open Source (Header)
open Text (Match Pattern isBlank isWord)

variable {front hidden : List Char}

section Names

/-- A name is a word. -/
def Named (name : String) : Prop :=
  name.toList ≠ [] ∧ ∀ c ∈ name.toList, isWord c = true

theorem named_of_mem {form before behind : Pattern} {text : List Char} {found : Match}
    (split : form = before ++ Contract.Forms.named ++ behind)
    (bodies : ∀ body, (Contract.Forms.name, body) ∈ form.captured → body = .oneOrMore isWord)
    (member : found ∈ form.matchesIn text) : Named (Contract.Scanned.nameOf found) := by
  rw [Named, Contract.Scanned.nameOf, String.toList_ofList]
  exact Pattern.text_of_mem_matchesIn split bodies member

theorem named_ledgerItem {source : List Char} {item : LedgerItem}
    (member : item ∈ (Contract.scan source).declared.ledgerItems) : Named item.name := by
  obtain ⟨found, among, rfl⟩ := List.mem_map.mp member
  have split : Contract.Forms.ledgerItem =
      (.wordBoundary ++ Contract.Forms.modified Contract.Forms.exported "export" ++
        Contract.Forms.modified Contract.Forms.modifier "sealed" ++ .word "ledger" ++ .gap) ++ Contract.Forms.named ++
      (.space ++ .word ":" ++ .space ++ .capture Contract.Forms.payload (Contract.Forms.upTo [';'])) := rfl
  refine named_of_mem split ?_ among
  intro body member
  have bodies : Contract.Forms.ledgerItem.captured = [(1, .word "export"), (2, .word "sealed"),
    (3, .oneOrMore isWord), (4, Contract.Forms.upTo [';'])] := rfl
  rw [bodies] at member
  simpa [Contract.Forms.name] using member

theorem avoids_valueAccess {name : String} {c : Char} (named : Named name) (blank : isBlank c = true) :
    (valueAccess name.toList).Avoids c := by
  obtain ⟨d, letters, same⟩ := List.exists_cons_of_ne_nil named.1
  have letter : isWord d = true := named.2 d (by rw [same]; exact List.mem_cons_self)
  have other := Text.isWord_of_isBlank blank
  have starts : (((valueAccess (d :: letters)).starts .anything).allowChar c) = (d == c) := rfl
  have looks : (valueAccess (d :: letters)).lookbehinds = [joins, isWord] := rfl
  have dot : (c == '.') = false := by
    refine beq_eq_false_iff_ne.mpr ?_
    rintro rfl
    contradiction
  rw [same, Pattern.Avoids, starts, looks, List.forall_mem_cons, List.forall_mem_singleton, joins, dot,
    other]
  refine ⟨beq_eq_false_iff_ne.mpr ?_, rfl, rfl⟩
  rintro rfl
  rw [letter] at other
  contradiction

end Names

/-- A scan and that of the same source behind a header, of which `hidden` is left in the masked source
and `shown` in the source without comments. -/
structure Follows (front hidden shown : List Char) (scan moved : Scan) : Prop
    extends Contract.Scan.Behind front scan moved where
  masked : moved.masked.text = hidden ++ scan.masked.text
  uncommented : moved.uncommented = shown ++ scan.uncommented
  length : hidden.length = front.length
  shown_length : shown.length = front.length
  blank : ∀ c ∈ hidden, isBlank c = true
  shown_blank : ∀ c ∈ shown, isBlank c = true
  lineOf : ∀ n : Nat, moved.lines.lineOf (front.length + n : Nat) =
    scan.lines.lineOf n + front.count '\n'
  names : ∀ item ∈ scan.declared.ledgerItems, Named item.name

theorem follows_header (header : Header front) (source : List Char) :
    Follows front (Source.maskAll front) (Source.stripComments front) (Contract.scan source)
      (Contract.scan (front ++ source)) where
  toBehind := Contract.scan_header header source
  masked := Source.mask_header true header source
  uncommented := Source.mask_header false header source
  length := Source.length_mask true front
  shown_length := Source.length_mask false front
  blank := Source.isBlank_of_mem_header true header
  shown_blank := Source.isBlank_of_mem_header false header
  lineOf := Source.LineIndex.lineOf_append front source
  names := fun _ => named_ledgerItem

namespace Follows

variable {shown : List Char} {scan moved : Scan} (follows : Follows front hidden shown scan moved)
include follows

theorem lineOf_behind {part : List Char} (same : part.length = front.length) (found : Match) :
    moved.lines.lineOf (found.behind part).start.offset =
      scan.lines.lineOf found.start.offset + front.count '\n' := by
  have line := follows.lineOf found.start.offset
  rw [← same] at line
  exact line

theorem lineOf_match (found : Match) : moved.lines.lineOf (found.behind hidden).start.offset =
    scan.lines.lineOf found.start.offset + front.count '\n' :=
  follows.lineOf_behind follows.length found

theorem bodyOf (block : CodeBlock) : bodyOf moved (block.behind front) = Issue.bodyOf scan block := by
  rw [Issue.bodyOf, CodeBlock.behind, Text.Indexed.slice, Text.Indexed.drop_eq, follows.masked,
    ← follows.length, List.drop_length_add_append, Nat.add_sub_add_left, Issue.bodyOf,
    Text.Indexed.slice, Text.Indexed.drop_eq]

theorem lineIn (block : CodeBlock) (n : Nat) :
    lineIn moved (block.behind front) n = Issue.lineIn scan block n + front.count '\n' := by
  have line := follows.lineOf (block.bodyStart + n)
  rw [← Nat.add_assoc] at line
  exact line

section Matches

variable {pattern : Pattern} {n : Nat} (looks : pattern.lookbehinds = List.replicate n isWord)
  (starts : ∀ n ∈ Text.blankPoints, (pattern.starts .anything).allowChar (Char.ofNat n) = false)
include looks starts

theorem matchesIn : pattern.matchesIn moved.masked.text =
    (pattern.matchesIn scan.masked.text).map (Match.behind hidden) := by
  rw [follows.masked]
  exact Pattern.matchesIn_behind
    (fun c member => Text.avoids_of_isBlank looks starts (follows.blank c member)) _

theorem eachMatch (kind : Kind) (message suggestion : String) :
    eachMatch pattern kind message suggestion moved =
      (Issue.eachMatch pattern kind message suggestion scan).map (Issue.behind front) := by
  rw [Issue.eachMatch, follows.matchesIn looks starts, List.map_map, Issue.eachMatch, List.map_map]
  simp only [Function.comp_def, follows.lineOf_match]
  rfl

end Matches

theorem constIssue (found : Match) : constIssue moved (found.behind hidden) =
    Issue.behind front (Issue.constIssue scan found) := by
  rw [Issue.constIssue, Text.Match.text_behind, follows.lineOf_match]
  rfl

theorem moduleLevelConst :
    moduleLevelConst moved = (Issue.moduleLevelConst scan).map (Issue.behind front) := by
  have outside (c : Char) (visible : isBlank c = false) : c ∉ hidden := by
    intro member
    have := follows.blank c member
    rw [visible] at this
    contradiction
  have spans : Source.braceSpans moved.masked.text =
      (Source.braceSpans scan.masked.text).map (Source.Span.behind hidden) := by
    rw [follows.masked]
    exact Source.braceSpans_behind (outside '{' (by decide)) (outside '}' (by decide)) _
  have inside (found : Match) : Source.insideSpans
      ((Source.braceSpans scan.masked.text).map (Source.Span.behind hidden))
      (found.behind hidden).start.offset =
        Source.insideSpans (Source.braceSpans scan.masked.text) found.start.offset :=
    Source.insideSpans_behind hidden _ _
  have found := @matchesIn _ _ _ _ _ follows constPattern 1 rfl (by decide)
  simp only [Issue.moduleLevelConst, found, spans, List.filter_map, List.map_map,
    Function.comp_def, inside, follows.constIssue]

theorem stdlibNameCollision :
    stdlibNameCollision moved = (Issue.stdlibNameCollision scan).map (Issue.behind front) := by
  have library : Language.libraryImportPattern.occursIn moved.uncommented =
      Language.libraryImportPattern.occursIn scan.uncommented := by
    rw [follows.uncommented]
    exact Pattern.occursIn_behind (fun c member =>
      @Text.avoids_of_isBlank _ 3 c rfl (by decide) (follows.shown_blank c member)) _
  rw [Issue.stdlibNameCollision, library, Issue.stdlibNameCollision]
  split
  · simp only [builtinCollisions, follows.declared, Contract.Structure.behind, List.filter_map,
      List.map_map]
    rfl
  · rfl

theorem sealedItems : moved.declared.sealedItems =
    scan.declared.sealedItems.map (LedgerItem.behind front) := by
  rw [follows.declared]
  exact List.filter_map

theorem sealedExportConflict :
    sealedExportConflict moved = (Issue.sealedExportConflict scan).map (Issue.behind front) := by
  simp only [Issue.sealedExportConflict, follows.circuitBlocks, follows.sealedItems, List.filter_map,
    List.flatMap_map, List.filterMap_map, List.map_flatMap, List.map_filterMap, Function.comp_def,
    follows.bodyOf, follows.lineIn, Option.map_map]
  rfl

theorem missingConstructor :
    missingConstructor moved = (Issue.missingConstructor scan).map (Issue.behind front) := by
  rw [Issue.missingConstructor, follows.sealedItems, follows.constructors, Issue.missingConstructor]
  cases scan.declared.sealedItems with
  | nil => rfl
  | cons first others =>
    cases scan.constructors with
    | nil => simp [Issue.behind, LedgerItem.behind, Function.comp_def]
    | cons block blocks => rfl

theorem unsupportedDivision :
    unsupportedDivision moved = (Issue.unsupportedDivision scan).map (Issue.behind front) := by
  simp only [Issue.unsupportedDivision, follows.circuitBlocks, List.filterMap_map, List.map_filterMap,
    Function.comp_def, follows.bodyOf, follows.lineIn, Option.map_map]
  rfl

theorem invalidCounterAccess :
    invalidCounterAccess moved = (Issue.invalidCounterAccess scan).map (Issue.behind front) := by
  have items : moved.declared.ledgerItems =
      scan.declared.ledgerItems.map (LedgerItem.behind front) := by
    rw [follows.declared]
    rfl
  simp only [Issue.invalidCounterAccess, items, List.filter_map, List.flatMap_map, List.map_flatMap]
  refine List.flatMap_congr fun item member => ?_
  have named := follows.names item (List.mem_of_mem_filter member)
  have found : (valueAccess item.name.toList).matchesIn moved.masked.text =
      ((valueAccess item.name.toList).matchesIn scan.masked.text).map (Match.behind hidden) := by
    rw [follows.masked]
    exact Pattern.matchesIn_behind (fun c within => avoids_valueAccess named (follows.blank c within)) _
  have accesses : valueAccesses moved item.name =
      (valueAccesses scan item.name).map (Issue.behind front) := by
    simp only [valueAccesses, found, List.map_map, Function.comp_def, follows.lineOf_match]
    rfl
  exact accesses

theorem witnessNames : witnessNames moved = Issue.witnessNames scan := by
  simp only [Issue.witnessNames, follows.declared, Contract.Structure.behind, List.map_map]
  rfl

theorem potentialOverflow :
    potentialOverflow moved = (Issue.potentialOverflow scan).map (Issue.behind front) := by
  simp only [Issue.potentialOverflow, follows.circuitBlocks, List.filterMap_map, List.map_filterMap,
    Function.comp_def, follows.bodyOf, follows.lineIn, follows.witnessNames, Option.map_map]
  rfl

theorem undisclosedWitnessConditional : undisclosedWitnessConditional moved =
    (Issue.undisclosedWitnessConditional scan).map (Issue.behind front) := by
  simp only [Issue.undisclosedWitnessConditional, follows.witnessNames]
  split
  · rfl
  · simp only [follows.circuitBlocks, List.flatMap_map, List.map_flatMap, List.map_filterMap,
      follows.bodyOf, follows.lineIn, Option.bind_eq_bind, Option.map_bind, Option.pure_def,
      Function.comp_def, Option.map_some]
    rfl

theorem undisclosedConstructorParam : undisclosedConstructorParam moved =
    (Issue.undisclosedConstructorParam scan).map (Issue.behind front) := by
  simp only [Issue.undisclosedConstructorParam, follows.constructors, follows.declared,
    Contract.Structure.behind, List.flatMap_map, List.map_flatMap, List.map_filterMap,
    follows.bodyOf, follows.lineIn, Option.map_map]
  rfl

theorem invalidPragmaFormat :
    invalidPragmaFormat moved = (Issue.invalidPragmaFormat scan).map (Issue.behind front) := by
  have searched : patchVersion.search? moved.uncommented =
      (patchVersion.search? scan.uncommented).map (Match.behind shown) := by
    rw [follows.uncommented]
    exact Pattern.search?_behind (fun c member =>
      @Text.avoids_of_isBlank _ 2 c rfl (by decide) (follows.shown_blank c member)) _
  rw [Issue.invalidPragmaFormat, searched, Issue.invalidPragmaFormat]
  cases patchVersion.search? scan.uncommented with
  | none => rfl
  | some found =>
    simp only [Option.map_some, Text.Match.text_behind, follows.lineOf_behind follows.shown_length]
    rfl

theorem unexportedEnum :
    unexportedEnum moved = (Issue.unexportedEnum scan).map (Issue.behind front) := by
  simp only [Issue.unexportedEnum, follows.declared, Contract.Structure.behind, List.filter_map,
    List.map_map]
  rfl

theorem rules : ∀ rule ∈ rules, rule moved = (rule scan).map (Issue.behind front) := by
  simp only [Issue.rules, List.forall_mem_cons, List.not_mem_nil, false_implies, implies_true, and_true]
  exact ⟨follows.moduleLevelConst, follows.stdlibNameCollision, follows.sealedExportConflict,
    follows.missingConstructor, follows.unsupportedDivision, follows.invalidCounterAccess,
    follows.potentialOverflow, follows.undisclosedWitnessConditional,
    follows.undisclosedConstructorParam, @eachMatch _ _ _ _ _ follows _ 1 rfl (by decide) _ _ _,
    @eachMatch _ _ _ _ _ follows _ 1 rfl (by decide) _ _ _, follows.invalidPragmaFormat,
    @eachMatch _ _ _ _ _ follows _ 1 rfl (by decide) _ _ _, follows.unexportedEnum⟩

theorem detect : detect moved = (Issue.detect scan).map (Issue.behind front) := by
  have found : Issue.rules.flatMap (· moved) =
      (Issue.rules.flatMap (· scan)).map (Issue.behind front) := by
    rw [List.map_flatMap]
    exact List.flatMap_congr follows.rules
  rw [Issue.detect, detectWith, found, Issue.detect, detectWith]
  refine (List.map_mergeSort fun a _ b _ => ?_).symm
  simp [Issue.behind]

end Follows

/-- Behind a header a source has the same declarations and the same issues, on lines that the header has
moved. -/
theorem header_moves (header : Header front) (source : List Char) :
    Scan.Behind front (Contract.scan source) (Contract.scan (front ++ source)) ∧
      detect (Contract.scan (front ++ source)) =
        (detect (Contract.scan source)).map (Issue.behind front) :=
  ⟨Contract.scan_header header source, (follows_header header source).detect⟩

/-- A header whose comments hold a quote and a brace. -/
def quotedHeader : List Char :=
  "// \"\n/* \x7b */\t".toList

theorem header_moves_quoted : Header quotedHeader ∧ quotedHeader.count '\n' = 1 ∧
    detect (Contract.scan (quotedHeader ++ "enum E \x7b A \x7d".toList)) =
      (detect (Contract.scan "enum E \x7b A \x7d".toList)).map (Issue.behind quotedHeader) := by
  have comment : Source.EndFree [' ', '{', ' '] := by simp [Source.EndFree]
  have header : Header quotedHeader :=
    @Header.line [' ', '"'] _ (by decide) (@Header.block [' ', '{', ' '] _ comment (.blank rfl .nil))
  exact ⟨header, by decide, (header_moves header _).2⟩

end ContractInspector.Issue
