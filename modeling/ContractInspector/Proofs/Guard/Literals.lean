import ContractInspector.Guard.Content
import ContractInspector.Proofs.Issue.Commented
import ContractInspector.Proofs.Issue.Order
import ContractInspector.Proofs.Source.Literals
import ContractInspector.Proofs.Text.Window

/-! Literals and what is read around them. Blanking literals changes neither the verdict nor the lines of
issues exactly if the searches that see literals, and the parameters of constructors, come out alike. That
holds, and no other answer changes, if no match touches what is blanked. -/
namespace ContractInspector.Guard

open Contract (Scan Scanned)
open Contract.Forms (ledgerItem payload importTarget)
open Issue (Kind detect entry entriesOf)
open Source (Rewrites blankLiterals maskAll stripComments)
open Text (isBlank)

/-- Two sources have the same verdict, and issues of the same kinds on the same lines. -/
structure SameVerdicts (first second : List Char) : Prop where
  precheck : precheck first = precheck second
  issues : (detect (Contract.scan first)).map entry = (detect (Contract.scan second)).map entry

/-- They have the same imports, version and local includes, too. -/
structure SameAnswers (first second : List Char) : Prop extends SameVerdicts first second where
  imports : Contract.imports first = Contract.imports second
  languageVersion : Contract.languageVersion? first = Contract.languageVersion? second
  localIncludes : localIncludes first = localIncludes second

/-- A source has the pragma that every contract needs. -/
def hasPragma (source : List Char) : Bool :=
  pragmaPattern.occursIn (stripComments source)

/-- A source imports the standard library. -/
def hasLibrary (source : List Char) : Bool :=
  Language.libraryImportPattern.occursIn (stripComments source)

/-- The verdict or an issue depends on whether the library is imported. -/
def NeedsLibrary (source : List Char) : Prop :=
  (hasPragma source = true ∧ Language.libraryTypePattern.occursIn (maskAll source) = true) ∨
    Issue.builtinCollisions (Contract.scan source) ≠ []

/-- The line of the pragma that has a patch version. -/
def patchLine? (source : List Char) : Option Nat :=
  (Issue.patchVersion.search? (stripComments source)).map fun found =>
    (Source.LineIndex.ofText source).lineOf found.start.offset

/-- The lines on which a parameter of a constructor is stored undisclosed. -/
def paramLines (source : List Char) : List Nat :=
  (Issue.undisclosedConstructorParam (Contract.scan source)).map (·.line)

/-- What the verdict and the issues depend on is read alike in two sources, with their literals. -/
structure SameReadings (first second : List Char) : Prop where
  pragma : hasPragma first = hasPragma second
  library : NeedsLibrary first → hasLibrary first = hasLibrary second
  patch : patchLine? first = patchLine? second
  params : (paramLines first).Perm (paramLines second)

variable {first second : List Char}

theorem precheck_eq (source : List Char) : precheck source =
    if source.all isBlank then .error (.refused .blankSource)
    else if !hasPragma source then .error (.refused .missingPragma)
    else if Language.libraryTypePattern.occursIn (maskAll source) && !hasLibrary source then
      .error (.refused .missingImport)
    else .ok () := rfl

theorem precheck_iff (masked : maskAll second = maskAll first)
    (blank : second.all isBlank = first.all isBlank) (visible : first.all isBlank = false) :
    precheck first = precheck second ↔ hasPragma first = hasPragma second ∧
      (hasPragma first = true ∧ Language.libraryTypePattern.occursIn (maskAll first) = true →
        hasLibrary first = hasLibrary second) := by
  rw [precheck_eq, precheck_eq, masked, blank, visible]
  cases hasPragma first <;> cases hasPragma second <;>
    cases Language.libraryTypePattern.occursIn (maskAll first) <;>
    cases hasLibrary first <;> cases hasLibrary second <;> simp

section Issues

/-- A counter stays one when literals are blanked, and nothing else becomes one. -/
theorem counter_iff (rewrites : Rewrites first second) {found : Text.Match}
    (member : found ∈ (Scanned.ofSource first).matchesOf ledgerItem) :
    (Scanned.ofSource first).captured found payload = "Counter" ↔
      (Scanned.ofSource second).captured found payload = "Counter" := by
  obtain ⟨part, captures, -, inCode⟩ := Contract.hasPayload_ledgerItem member
  have shown : "Counter" = String.ofList "Counter".toList := String.ofList_toList.symm
  rw [Scanned.captured_ofSource captures, Scanned.captured_ofSource captures, shown,
    String.ofList_inj, String.ofList_inj]
  exact rewrites.strip_slice_iff inCode (by decide) (by simp [Source.isQuote])

theorem invalidCounterAccess_rewrites (rewrites : Rewrites first second) :
    Issue.invalidCounterAccess (Contract.scan first) =
      Issue.invalidCounterAccess (Contract.scan second) := by
  rw [Issue.invalidCounterAccess_scan (rfl : maskAll first = maskAll first),
    Issue.invalidCounterAccess_scan rewrites.maskAll_eq]
  congr 1
  apply List.filter_congr
  intro found member
  rw [Bool.eq_iff_iff, beq_iff_eq, beq_iff_eq]
  exact counter_iff rewrites member

theorem otherRules_rewrites (rewrites : Rewrites first second) {rule : Issue.Rule}
    (member : rule ∈ Issue.invalidCounterAccess :: Issue.outlineRules) :
    rule (Contract.scan first) = rule (Contract.scan second) := by
  rcases List.mem_cons.mp member with rfl | plain
  · exact invalidCounterAccess_rewrites rewrites
  · exact Issue.outlineRules_congr (Issue.outline_congr rewrites.maskAll_eq.symm) plain

theorem linesOf_stdlibNameCollision (source : List Char) :
    Issue.linesOf (Contract.scan source) Issue.stdlibNameCollision =
      if hasLibrary source then
        (Issue.builtinCollisions (Contract.scan source)).map (·.line)
      else [] := by
  rw [Issue.linesOf, Issue.stdlibNameCollision, apply_ite (List.map _), List.map_nil]
  rfl

theorem linesOf_invalidPragmaFormat (source : List Char) :
    Issue.linesOf (Contract.scan source) Issue.invalidPragmaFormat =
      (patchLine? source).toList := by
  rw [Issue.linesOf, Issue.invalidPragmaFormat, patchLine?, ← Option.toList_map, Option.map_map]
  rfl

/-- Issues of the same kinds stand on the same lines exactly if three of the rules find theirs
there. -/
theorem issues_iff (rewrites : Rewrites first second) :
    (detect (Contract.scan first)).map entry = (detect (Contract.scan second)).map entry ↔
      (Issue.builtinCollisions (Contract.scan first) ≠ [] → hasLibrary first = hasLibrary second) ∧
      patchLine? first = patchLine? second ∧ (paramLines first).Perm (paramLines second) := by
  have outlines := Issue.outline_congr rewrites.maskAll_eq.symm
  have collisions := Issue.builtinCollisions_congr outlines
  rw [Issue.lines_iff]
  constructor
  · intro perms
    refine ⟨?_, ?_, ?_⟩
    · intro collide
      have lines := perms Issue.stdlibNameCollision (by simp [Issue.rules])
      rw [linesOf_stdlibNameCollision, linesOf_stdlibNameCollision, ← collisions] at lines
      cases left : hasLibrary first <;> cases right : hasLibrary second <;>
        simp_all
    · have lines := perms Issue.invalidPragmaFormat (by simp [Issue.rules])
      rw [linesOf_invalidPragmaFormat, linesOf_invalidPragmaFormat] at lines
      cases left : patchLine? first <;> cases right : patchLine? second <;> simp_all
    · exact perms Issue.undisclosedConstructorParam (by simp [Issue.rules])
  · rintro ⟨library, patch, params⟩ rule member
    have known : Issue.rules ⊆ [Issue.stdlibNameCollision, Issue.invalidPragmaFormat,
        Issue.undisclosedConstructorParam] ++ Issue.invalidCounterAccess :: Issue.outlineRules := by
      simp [Issue.rules, Issue.outlineRules]
    rcases List.mem_append.mp (known member) with special | other
    · simp only [List.mem_cons, List.not_mem_nil, or_false] at special
      rcases special with rfl | rfl | rfl
      · rw [linesOf_stdlibNameCollision, linesOf_stdlibNameCollision, ← collisions]
        by_cases collide : Issue.builtinCollisions (Contract.scan first) = []
        · simp [collide]
        · rw [library collide]
      · rw [linesOf_invalidPragmaFormat, linesOf_invalidPragmaFormat, patch]
      · exact params
    · rw [Issue.linesOf, Issue.linesOf, otherRules_rewrites rewrites other]

end Issues

section Answers

/-- Blanked literals change no verdict exactly if they change nothing that it is read from. -/
theorem sameVerdicts_iff (rewrites : Rewrites first second) :
    SameVerdicts first second ↔ SameReadings first second := by
  by_cases blank : first.all isBlank = true
  · obtain rfl := rewrites.eq_of_blank blank
    constructor
    · intro _
      exact ⟨rfl, fun _ => rfl, rfl, .refl _⟩
    · intro _
      exact ⟨rfl, rfl⟩
  have verdict := precheck_iff rewrites.maskAll_eq rewrites.all_isBlank (by simpa using blank)
  have issues := issues_iff rewrites
  constructor
  · intro same
    obtain ⟨pragma, imported⟩ := verdict.mp same.precheck
    obtain ⟨collisions, patch, params⟩ := issues.mp same.issues
    exact ⟨pragma, fun needs => needs.elim imported collisions, patch, params⟩
  · intro same
    exact ⟨verdict.mpr ⟨same.pragma, fun needs => same.library (.inl needs)⟩,
      issues.mpr ⟨fun collide => same.library (.inr collide), same.patch, same.params⟩⟩

/-- The patterns that are searched for with literals in place. -/
def readingPatterns : List Text.Pattern :=
  [importTarget, Contract.Forms.pragma, includePattern, pragmaPattern,
    Language.libraryImportPattern, Issue.patchVersion]

/-- No match touches what is blanked, and the parameters of constructors keep their names. -/
structure Untouched (first second : List Char) : Prop where
  patterns : ∀ pattern ∈ readingPatterns,
    pattern.Undisturbed (stripComments first) (stripComments second)
  names : (Contract.scan first).constructors.map (·.params.map Issue.paramName) =
    (Contract.scan second).constructors.map (·.params.map Issue.paramName)

theorem occursIn_undisturbed {pattern : Text.Pattern} {text other : List Char}
    (undisturbed : pattern.Undisturbed text other) (lengths : text.length = other.length) :
    pattern.occursIn text = pattern.occursIn other := by
  have found := congrArg Option.isSome (undisturbed.search? lengths)
  rwa [Option.isSome_map, Option.isSome_map] at found

theorem length_stripComments (masked : maskAll first = maskAll second) :
    (stripComments first).length = (stripComments second).length := by
  have same := congrArg List.length masked
  rwa [maskAll, maskAll, Source.length_mask, Source.length_mask, ← Source.length_mask false,
    ← Source.length_mask false second] at same

/-- Literals that no match touches change nothing that the verdict and the issues depend on. -/
theorem Untouched.sameReadings (untouched : Untouched first second)
    (masked : maskAll first = maskAll second) : SameReadings first second := by
  have lengths := length_stripComments masked
  have outlines := Issue.outline_congr masked
  have needed := untouched.patterns pragmaPattern (by simp [readingPatterns])
  have library := untouched.patterns Language.libraryImportPattern (by simp [readingPatterns])
  have patch := untouched.patterns Issue.patchVersion (by simp [readingPatterns])
  constructor
  · exact occursIn_undisturbed needed lengths
  · exact fun _ => occursIn_undisturbed library lengths
  · have lines : Source.LineIndex.ofText first = Source.LineIndex.ofText second :=
      congrArg Scan.lines outlines
    rw [patchLine?, patchLine?, lines]
    apply Text.option_map_congr_shape _ (patch.search? lengths)
    intro found other same
    have starts : found.start.offset = other.start.offset := congrArg Prod.fst same
    rw [starts]
  · rw [paramLines, paramLines, Issue.undisclosedConstructorParam_congr outlines untouched.names]

theorem Untouched.sameAnswers (untouched : Untouched first second)
    (rewrites : Rewrites first second) : SameAnswers first second := by
  have masked := rewrites.maskAll_eq.symm
  have lengths := length_stripComments masked
  have targets := untouched.patterns importTarget (by simp [readingPatterns])
  have pragma := untouched.patterns Contract.Forms.pragma (by simp [readingPatterns])
  have includes := untouched.patterns includePattern (by simp [readingPatterns])
  refine ⟨(sameVerdicts_iff rewrites).mpr (untouched.sameReadings masked), ?_, ?_, ?_⟩
  · apply Text.map_congr_shape _ (targets.matchesIn lengths)
    intro found other same
    rw [Text.Match.text?_shape same, Text.Match.text_shape same]
  · apply Text.option_map_congr_shape _ (pragma.search? lengths)
    intro found other same
    rw [Text.Match.text_shape same]
  · apply congrArg (List.filter isLocal)
    apply Text.map_congr_shape _ (includes.matchesIn lengths)
    intro found other same
    rw [Text.Match.text_shape same]

/-- Blanking literals that no include stands before changes neither the verdict nor the lines of issues
exactly if the readings that see literals come out alike. No answer changes if no match touches what is
blanked. -/
theorem literals_iff (source : List Char) :
    (SameVerdicts source (blankLiterals source) ↔ SameReadings source (blankLiterals source)) ∧
      (Untouched source (blankLiterals source) → SameAnswers source (blankLiterals source)) := by
  have rewrites := Source.rewrites_blankLiterals source
  exact ⟨sameVerdicts_iff rewrites, fun untouched => untouched.sameAnswers rewrites⟩

/-- A literal beside an import and an include, which keeps its path. -/
theorem literals_iff_include :
    let source := "import A; x = 'y z'; include \"a\"".toList
    blankLiterals source = "import A; x = '   '; include \"a\"".toList ∧
      SameAnswers source (blankLiterals source) :=
  ⟨by decide +kernel, (literals_iff _).2 ⟨by decide +kernel, by decide +kernel⟩⟩

/-- A pragma in a literal is reported. -/
theorem literals_iff_pragma :
    let source := "\"pragma language_version 0.16.0\"".toList
    ¬SameAnswers source (blankLiterals source) := by
  intro source same
  have issues := same.issues
  revert issues
  decide +kernel

end Answers

end ContractInspector.Guard
