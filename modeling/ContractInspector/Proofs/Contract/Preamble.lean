import ContractInspector.Proofs.Contract.Written

/-! The pragma and the imports of a contract as they are written. The version is read from the pragma, and
from no other line; the modules and paths are read from the imports, and from no other line. -/
namespace ContractInspector.Contract

open Source (stripComments)
open Text (Capture Cursor Match Pattern isBlank isWord placeAt)
open Text.Pattern (Takes captureOf takes_append)

variable {front part rest tail : List Char} {captures : List Capture}

section Pragmas

/-- The comparisons that the form of a pragma knows. -/
def comparisons : Pattern :=
  .orElse (.word ">" ++ .optional (.word "="))
    (.orElse (.word "<" ++ .optional (.word "="))
      (.orElse (.word "==") (.word "~")))

theorem outcomes_append_nil {first second : Pattern} {cursor : Cursor}
    (none : first.outcomes cursor captures = []) : (first ++ second).outcomes cursor captures = [] := by
  rw [Text.Pattern.outcomes_append, none]
  rfl

theorem takes_comparison (comparison : Comparison) :
    comparisons.Takes front comparison.text (' ' :: rest) captures captures := by
  have absent {word : String} {text : List Char} (differ : Differ word.toList text) (front rest : List Char) :
      (Pattern.word word).outcomes (.between front (text ++ rest)) captures = [] :=
    outcomes_word_nil (differ.absent rest)
  have noGreater {text : List Char} (differ : Differ ">".toList text) (second : Pattern) :
      (Pattern.word ">" ++ second).outcomes (.between front (text ++ ' ' :: rest)) captures = [] :=
    outcomes_append_nil (absent differ front _)
  have noLess {text : List Char} (differ : Differ "<".toList text) (second : Pattern) :
      (Pattern.word "<" ++ second).outcomes (.between front (text ++ ' ' :: rest)) captures = [] :=
    outcomes_append_nil (absent differ front _)
  cases comparison with
  | greaterEqual =>
    exact Text.Pattern.takes_orElse_left (takes_append (Text.Pattern.takes_text ['>'])
      (Text.Pattern.takes_optional (Text.Pattern.takes_text ['='])))
  | greater =>
    have alone := absent (show Differ "=".toList [' '] by decide) (front ++ ['>']) rest
    exact Text.Pattern.takes_orElse_left (takes_append (Text.Pattern.takes_text ['>'])
      (Text.Pattern.takes_optional_nil alone))
  | lessEqual =>
    exact Text.Pattern.takes_orElse_right (noGreater (by decide) _) (Text.Pattern.takes_orElse_left
      (takes_append (Text.Pattern.takes_text ['<']) (Text.Pattern.takes_optional (Text.Pattern.takes_text ['=']))))
  | less =>
    have alone := absent (show Differ "=".toList [' '] by decide) (front ++ ['<']) rest
    exact Text.Pattern.takes_orElse_right (noGreater (by decide) _) (Text.Pattern.takes_orElse_left
      (takes_append (Text.Pattern.takes_text ['<']) (Text.Pattern.takes_optional_nil alone)))
  | equal =>
    exact Text.Pattern.takes_orElse_right (noGreater (by decide) _) (Text.Pattern.takes_orElse_right
      (noLess (by decide) _) (Text.Pattern.takes_orElse_left (Text.Pattern.takes_text ['=', '='])))
  | compatible =>
    exact Text.Pattern.takes_orElse_right (noGreater (by decide) _) (Text.Pattern.takes_orElse_right
      (noLess (by decide) _) (Text.Pattern.takes_orElse_right (absent (by decide) _ _)
        (Text.Pattern.takes_text ['~'])))

/-- Where no comparison starts, none is taken. -/
theorem outcomes_comparisons_nil {c : Char} (other : c ∉ ['>', '<', '=', '~']) :
    comparisons.outcomes (.between front (c :: rest)) captures = [] := by
  simp only [List.mem_cons, List.not_mem_nil, or_false, not_or] at other
  obtain ⟨greater, less, equal, compatible⟩ := other
  have absent (word : String) (differ : ¬word.toList <+: c :: rest) :
      (Pattern.word word).outcomes (.between front (c :: rest)) captures = [] := outcomes_word_nil differ
  have noGreater : (Pattern.word ">" ++ .optional (.word "=")).outcomes (.between front (c :: rest)) captures = [] :=
    outcomes_append_nil (absent ">" (by simp [Ne.symm greater]))
  have noLess : (Pattern.word "<" ++ .optional (.word "=")).outcomes (.between front (c :: rest)) captures = [] :=
    outcomes_append_nil (absent "<" (by simp [Ne.symm less]))
  have noEqual := absent "==" (by simp [Ne.symm equal])
  have noTilde := absent "~" (by simp [Ne.symm compatible])
  simp only [comparisons, Pattern.outcomes, noGreater, noLess, noEqual, noTilde, List.append_nil]

theorem takes_compared (pragma : Pragma) (visible : ∀ c, rest.head? = some c → isBlank c = false)
    (plain : comparisons.outcomes (.between front rest) captures = []) :
    (Pattern.optional comparisons ++ .space).Takes front pragma.compared rest captures captures := by
  unfold Pragma.compared
  cases pragma.comparison with
  | none =>
    have none : (Pattern.optional comparisons).Takes front [] ([] ++ rest) captures captures :=
      Text.Pattern.takes_optional_nil plain
    exact takes_append none (Text.Pattern.takes_many (by simp) visible)
  | some comparison =>
    have compared : (Pattern.optional comparisons).Takes front comparison.text ([' '] ++ rest) captures captures :=
      Text.Pattern.takes_optional (takes_comparison comparison)
    exact takes_append compared (Text.Pattern.takes_many (by decide) visible)

/-- Two words with a space behind each. -/
theorem takes_words {one two : String} (starts : one.toList.head?.any isWord = true)
    (second : two.toList.head?.any isWord = true) (visible : ∀ c, rest.head? = some c → isBlank c = false) :
    (Pattern.wordBoundary ++ .word one ++ .gap ++ .word two ++ .space).Takes []
      (one.toList ++ [' '] ++ two.toList ++ [' ']) rest [] [] := by
  have bounded : Pattern.wordBoundary.Takes [] [] (one.toList ++ ([' '] ++ (two.toList ++ ([' '] ++ rest)))) [] [] :=
    takes_wordStart (Text.head_append starts _)
  have first : (Pattern.word one).Takes [] one.toList ([' '] ++ (two.toList ++ ([' '] ++ rest))) [] [] :=
    Text.Pattern.takes_text one.toList
  have gap : Pattern.gap.Takes one.toList [' '] (two.toList ++ ([' '] ++ rest)) [] [] :=
    Text.Pattern.takes_oneOrMore (by simp) (by decide) (visible_of_head (Text.head_append second _))
  have other : (Pattern.word two).Takes (one.toList ++ [' ']) two.toList ([' '] ++ rest) [] [] :=
    Text.Pattern.takes_text two.toList
  have space : Pattern.space.Takes (one.toList ++ [' '] ++ two.toList) [' '] rest [] [] :=
    Text.Pattern.takes_many (by decide) visible
  exact takes_append (takes_append (takes_append (takes_append bounded first) gap) other) space

/-- The text in front of the version. -/
def Pragma.lead (pragma : Pragma) : List Char :=
  "pragma".toList ++ [' '] ++ "language_version".toList ++ [' '] ++ pragma.compared

theorem Pragma.text_lead (pragma : Pragma) : pragma.text = pragma.lead ++ (pragma.version ++ [';']) := by
  have regroup (word other rest more : List Char) : word ++ ' ' :: (other ++ ' ' :: (rest ++ more)) =
      word ++ [' '] ++ other ++ [' '] ++ rest ++ more := by simp
  exact regroup _ _ _ _

theorem takes_pragma (pragma : Pragma) (tail : List Char) :
    Forms.pragma.Takes [] (pragma.lead ++ pragma.version) (';' :: tail) []
      [captureOf Forms.payload pragma.lead pragma.version (';' :: tail)] := by
  obtain ⟨c, digits, same⟩ := List.exists_cons_of_ne_nil pragma.nonempty
  have marks : ∀ c ∈ "0123456789.".toList, isBlank c = false ∧ c ∉ ['>', '<', '=', '~'] ∧
      (Text.isDigit c || c == '.') = true := by decide
  have numeric := fun c member => marks c (pragma.numeric c member)
  have visible : ∀ d, (pragma.version ++ ';' :: tail).head? = some d → isBlank d = false := by
    intro d first
    rw [same] at first numeric
    obtain rfl := Option.some.inj first
    exact (numeric c List.mem_cons_self).1
  have plain (front : List Char) :
      comparisons.outcomes (.between front (pragma.version ++ ';' :: tail)) [] = [] := by
    rw [same] at numeric ⊢
    exact outcomes_comparisons_nil (numeric c List.mem_cons_self).2.1
  have started : ∀ d, (pragma.compared ++ (pragma.version ++ ';' :: tail)).head? = some d → isBlank d = false := by
    unfold Pragma.compared
    rcases pragma.comparison with _ | ⟨_ | _⟩
    case none => exact visible
    all_goals
      intro d first
      obtain rfl := Option.some.inj first
      decide
  have words := takes_words (show "pragma".toList.head?.any isWord = true by decide)
    (show "language_version".toList.head?.any isWord = true by decide) started
  have version : (Pattern.capture Forms.payload (.oneOrMore fun c => Text.isDigit c || c == '.')).Takes
      pragma.lead pragma.version (';' :: tail) [] [captureOf Forms.payload pragma.lead pragma.version (';' :: tail)] :=
    Text.Pattern.takes_capture (Text.Pattern.takes_oneOrMore pragma.nonempty
      (fun c member => (numeric c member).2.2) (by simp +decide))
  have shape : Forms.pragma = .wordBoundary ++ .word "pragma" ++ .gap ++ .word "language_version" ++ .space ++
      (.optional comparisons ++ .space) ++
      .capture Forms.payload (.oneOrMore fun c => Text.isDigit c || c == '.') := rfl
  rw [shape]
  exact takes_append (takes_append words (takes_compared pragma visible (plain _))) version

theorem search?_of_match {pattern : Pattern} {text : List Char} {found : Match}
    (matched : pattern.matchAt? (placeAt text 0) = some found) : pattern.search? text = some found := by
  rw [Pattern.search?_eq_searchAt, Pattern.searchAt_eq, matched, Option.some_or]

/-- The version is read from the pragma. -/
theorem versionIn?_pragma (pragma : Pragma) (tail : List Char) :
    versionIn? (pragma.text ++ tail) = some (String.ofList pragma.version) := by
  have matched := Pattern.matchAt?_of_takes (takes_pragma pragma tail)
  have text : pragma.lead ++ pragma.version ++ ';' :: tail = pragma.text ++ tail := by
    rw [pragma.text_lead]
    simp
  rw [text] at matched
  rw [versionIn?, search?_of_match matched]
  simp [Match.text, Match.text?, Match.capture?]

end Pragmas

section Imports

/-- A keyword with the space behind it. -/
theorem takes_keyword {keyword : String} (member : keyword ∈ keywords)
    (visible : ∀ c, rest.head? = some c → isBlank c = false) :
    (Pattern.wordBoundary ++ .word keyword ++ .gap).Takes [] (keyword.toList ++ [' ']) rest [] [] := by
  have bounded : Pattern.wordBoundary.Takes [] [] (keyword.toList ++ ([' '] ++ rest)) [] [] :=
    takes_wordStart (head_keyword member _)
  have spelled : (Pattern.word keyword).Takes [] keyword.toList ([' '] ++ rest) [] [] :=
    Text.Pattern.takes_text keyword.toList
  have gap : Pattern.gap.Takes keyword.toList [' '] rest [] [] :=
    Text.Pattern.takes_oneOrMore (by simp) (by decide) visible
  exact takes_append (takes_append bounded spelled) gap

theorem takes_module (name : Ident) (tail : List Char) :
    Forms.importTarget.Takes [] ("import".toList ++ [' '] ++ name.letters) (';' :: tail) []
      [captureOf Forms.name ("import".toList ++ [' ']) name.letters (';' :: tail)] := by
  have visible : ∀ c, (name.letters ++ ';' :: tail).head? = some c → isBlank c = false := by
    intro c first
    have shown := name.first (';' :: tail)
    rwa [first] at shown
  have keyword := takes_keyword (show "import" ∈ keywords by decide) visible
  have named : Forms.named.Takes ("import".toList ++ [' ']) name.letters (';' :: tail) []
      [captureOf Forms.name ("import".toList ++ [' ']) name.letters (';' :: tail)] :=
    Text.Pattern.takes_capture (Text.Pattern.takes_oneOrMore name.nonempty name.word (by simp +decide))
  exact Text.Pattern.takes_orElse_left (takes_append keyword named)

theorem outcomes_keyword_nil {keyword : String} (absent : ¬keyword.toList <+: rest) (next : Pattern) :
    (Pattern.wordBoundary ++ .word keyword ++ next).outcomes (.between front rest) captures = [] := by
  refine outcomes_append_nil ?_
  rw [List.eq_nil_iff_forall_not_mem]
  intro outcome way
  obtain ⟨bounded, start, spelled⟩ := Pattern.mem_outcomes_append.mp way
  obtain ⟨-, rfl⟩ := Pattern.mem_outcomes_wordBoundary.mp start
  rw [outcomes_word_nil absent] at spelled
  contradiction

theorem Path.quote_not_mem (path : Path) : '"' ∉ path.letters :=
  fun member => path.ne_of_mem member (by decide) (by decide) rfl

theorem takes_file (path : Path) (tail : List Char) :
    Forms.importTarget.Takes [] ("include".toList ++ [' '] ++ ['"'] ++ path.letters ++ ['"']) (';' :: tail) []
      [captureOf Forms.payload ("include".toList ++ [' '] ++ ['"']) path.letters ('"' :: ';' :: tail)] := by
  have absent : ¬"import".toList <+: "include".toList ++ [' '] ++ ['"'] ++ path.letters ++ ['"'] ++ ';' :: tail := by
    simp only [List.append_assoc]
    exact (differ_of_ne "import" (by decide) "include" (by decide) (by decide)).absent _
  have keyword := @takes_keyword (['"'] ++ (path.letters ++ (['"'] ++ ';' :: tail))) "include" (by decide)
    (by simp +decide)
  have opener : (Pattern.word "\"").Takes ("include".toList ++ [' ']) ['"']
      (path.letters ++ (['"'] ++ ';' :: tail)) [] [] := Text.Pattern.takes_text ['"']
  have inside : ∀ c ∈ path.letters, c ∉ ['"'] := by
    intro c member listed
    obtain rfl := List.mem_singleton.mp listed
    exact path.quote_not_mem member
  have payload := @takes_payload ("include".toList ++ [' '] ++ ['"']) path.letters (['"'] ++ ';' :: tail) [] ['"']
    path.nonempty inside (by simp)
  have closer : (Pattern.word "\"").Takes ("include".toList ++ [' '] ++ ['"'] ++ path.letters) ['"'] (';' :: tail)
      [captureOf Forms.payload ("include".toList ++ [' '] ++ ['"']) path.letters ('"' :: ';' :: tail)]
      [captureOf Forms.payload ("include".toList ++ [' '] ++ ['"']) path.letters ('"' :: ';' :: tail)] :=
    Text.Pattern.takes_text ['"']
  have quoted := takes_append (takes_append (takes_append keyword opener) payload) closer
  exact Text.Pattern.takes_orElse_right (outcomes_keyword_nil absent _) quoted

end Imports

/-! What a line says to a scan. -/

def Import.target : Import → String
  | module name => name.name
  | file path => String.ofList path.letters

def Line.version? : Line → Option String
  | .pragma written => some (String.ofList written.version)
  | _ => none

def Line.targets : Line → List String
  | .imported target => [target.target]
  | _ => []

section Reading

theorem closing_semicolon : Closing [';'] :=
  closing_last (by decide) (by decide) inert_nil

theorem Declaration.other_heads (declaration : Declaration) :
    ∀ keyword ∈ ["pragma", "import", "include"], keyword ∉ (Line.declared declaration).heads := by
  obtain ⟨isExported, name, content⟩ := declaration
  cases content <;> simp [Line.heads, Content.keyword]

/-- An import adds what it names. -/
theorem importsIn_own {taken : List Char} (takes : Forms.importTarget.Takes [] taken (';' :: tail) [] captures)
    (nonempty : taken ≠ []) : ∃ found : Match, found.captures = captures ∧ importsIn (taken ++ [';'] ++ tail) =
      String.ofList ((found.text? Forms.name).getD (found.text Forms.payload)) :: importsIn tail := by
  have matched := @Sought.matchesIn_own _ _ tail sought_importTarget taken [';'] captures takes nonempty
    closing_semicolon.free closing_semicolon.marked
  refine ⟨⟨.between [] (taken ++ ([';'] ++ tail)), .between taken ([';'] ++ tail), captures⟩, rfl, ?_⟩
  rw [importsIn, matched, List.map_cons, List.map_map, importsIn]
  simp [Function.comp_def]

theorem importsIn_other {part : List Char} {allowed : List String} (heads : Heads allowed part)
    (marked : Text.Pattern.Marked part) (others : ∀ keyword ∈ ["import", "include"], keyword ∉ allowed) :
    importsIn (part ++ tail) = importsIn tail := by
  rw [importsIn, sought_importTarget.matchesIn_other heads marked others, List.map_map, importsIn]
  simp [Function.comp_def]

theorem importsIn_line (line : Line) (tail : List Char) :
    importsIn (line.text ++ tail) = line.targets ++ importsIn tail := by
  have heads := line.heads_masked
  have marked := line.marked_masked
  cases line with
  | pragma pragma => exact importsIn_other heads marked (by simp [Line.heads])
  | imported target =>
    cases target with
    | module name =>
      obtain ⟨found, captured, read⟩ := importsIn_own (takes_module name tail) (by simp)
      have named : found.text? Forms.name = some name.letters := by
        rw [Match.text?, Match.capture?, captured]
        simp
      have regroup (word : List Char) : word ++ ' ' :: (name.letters ++ [';']) = word ++ [' '] ++ name.letters ++ [';'] := by
        simp
      have text : (Line.imported (.module name)).text = "import".toList ++ [' '] ++ name.letters ++ [';'] := regroup _
      rw [text, read, named]
      rfl
    | file path =>
      obtain ⟨found, captured, read⟩ := importsIn_own (takes_file path tail) (by simp)
      have unnamed : found.text? Forms.name = none := by
        rw [Match.text?, Match.capture?, captured]
        rfl
      have quoted : found.text Forms.payload = path.letters := by
        rw [Match.text, Match.text?, Match.capture?, captured]
        simp
      have regroup (word : List Char) : word ++ ' ' :: '"' :: (path.letters ++ ['"', ';']) =
          word ++ [' '] ++ ['"'] ++ path.letters ++ ['"'] ++ [';'] := by
        simp
      have text : (Line.imported (.file path)).text =
          "include".toList ++ [' '] ++ ['"'] ++ path.letters ++ ['"'] ++ [';'] := regroup _
      rw [text, read, unnamed, quoted]
      rfl
  | declared declaration =>
    exact importsIn_other heads marked fun keyword member => declaration.other_heads keyword (by simp_all)

theorem versionIn?_other {part : List Char} {allowed : List String} (heads : Heads allowed part)
    (marked : Text.Pattern.Marked part) (others : ∀ keyword ∈ ["pragma"], keyword ∉ allowed) :
    versionIn? (part ++ tail) = versionIn? tail := by
  rw [versionIn?, sought_pragma.search?_other heads marked others, Option.map_map, versionIn?]
  simp [Function.comp_def]

/-- The one blank of a text stands behind its first word, so no other word stands in front of a blank. -/
theorem word_before_blank {word quoted before after keyword : List Char} {c : Char}
    (inWord : ∀ d ∈ word, isBlank d = false) (inQuoted : ∀ d ∈ quoted, isBlank d = false)
    (split : word ++ ' ' :: quoted = before ++ (keyword ++ c :: after)) (blank : isBlank c = true) :
    before ++ keyword = word := by
  have space : c = ' ' := by
    have member : c ∈ word ++ ' ' :: quoted := by simp [split]
    rw [List.mem_append, List.mem_cons] at member
    rcases member with within | same | within
    · rw [inWord c within] at blank
      contradiction
    · exact same
    · rw [inQuoted c within] at blank
      contradiction
  subst space
  rw [← List.append_assoc] at split
  have absent : ' ' ∉ word := fun within => absurd (inWord _ within) (by decide)
  obtain ⟨left, same, behind⟩ := Text.ends_before split.symm absent
  cases left with
  | nil => rw [same, List.append_nil]
  | cons d left =>
    obtain ⟨-, rfl⟩ := List.cons.inj behind
    exact absurd (inQuoted ' ' (by simp)) (by decide)

theorem versionIn?_file (path : Path) (tail : List Char) :
    versionIn? ((Import.file path).text ++ tail) = versionIn? tail := by
  have marked : Text.Pattern.Marked (Import.file path).text :=
    Text.Pattern.marked_append _ (Text.Pattern.marked_append [' ', '"']
      (Text.Pattern.marked_append _ ⟨';', rfl, by decide, by decide⟩))
  have inQuoted : ∀ d ∈ '"' :: (path.letters ++ ['"', ';']), isBlank d = false := by
    have inPath : ∀ d ∈ path.letters, isBlank d = false := by
      have marks : ∀ d ∈ ['.', '/', '-'], isBlank d = false := by decide
      intro d member
      rcases path.plain d member with word | mark
      · exact Text.isBlank_of_isWord word
      · exact marks d mark
    exact List.forall_mem_cons.mpr ⟨by decide, List.forall_mem_append.mpr ⟨inPath, by decide⟩⟩
  have inWord : ∀ d ∈ "include".toList, isBlank d = false := by decide
  have absent : ∀ keyword ∈ ["pragma"], ∀ before c after,
      (Import.file path).text = before ++ (keyword.toList ++ c :: after) →
      before.getLast?.any isWord = false → isBlank c = true → False := by
    intro keyword member before c after split _ blank
    obtain rfl := List.mem_singleton.mp member
    have same := congrArg List.getLast? (word_before_blank inWord inQuoted split blank)
    rw [List.getLast?_append_of_ne_nil _ (by decide)] at same
    exact absurd same (by decide)
  have letters : ∀ keyword ∈ ["pragma"], ∀ d ∈ keyword.toList, isWord d = true :=
    fun keyword member => letters_of_keyword keyword (by simp_all [keywords])
  have passes := Text.Pattern.passes_of_seeks sought_pragma.seeks marked letters absent [] tail
  have searched := Pattern.search?_append (sought_pragma.blind marked) passes
  rw [versionIn?, searched, Option.map_map, versionIn?]
  simp [Function.comp_def]

theorem versionIn?_line (line : Line) (tail : List Char) :
    versionIn? (line.text ++ tail) = line.version?.or (versionIn? tail) := by
  have heads := line.heads_masked
  have marked := line.marked_masked
  cases line with
  | pragma pragma => exact versionIn?_pragma pragma tail
  | imported target =>
    cases target with
    | module name => exact versionIn?_other heads marked (by simp [Line.heads])
    | file path => exact versionIn?_file path tail
  | declared declaration =>
    exact versionIn?_other heads marked fun keyword member => declaration.other_heads keyword (by simp_all)

end Reading

end ContractInspector.Contract
