import ContractInspector.Contract.Scan
import ContractInspector.Proofs.Contract.Sought
import ContractInspector.Proofs.Source.Numbering

/-! The head of a declaration: its modifiers, its keyword and its name. A form takes the head as it is
written, and what it captures there is read back (`reads_captures`). -/
namespace ContractInspector.Contract

open Text (Capture Cursor Match Pattern isBlank isWord)
open Text.Pattern (Takes captureOf takes_append)

variable {front rest : List Char} {captures : List Capture} {word : String} {slot : Nat}

section Modifiers

/-- Two words differ at a letter. -/
def Differ (one two : List Char) : Prop :=
  (one.zip two).any (fun pair => pair.1 != pair.2) = true

instance (one two : List Char) : Decidable (Differ one two) :=
  inferInstanceAs (Decidable (_ = true))

theorem Differ.absent {one two : List Char} (differ : Differ one two) (rest : List Char) :
    ¬one <+: two ++ rest := by
  induction one generalizing two with
  | nil => contradiction
  | cons c one ih =>
    cases two with
    | nil => contradiction
    | cons d two =>
      rw [List.cons_append, List.cons_prefix_cons]
      rintro ⟨rfl, within⟩
      have behind : Differ one two := by simpa [Differ] using differ
      exact ih behind within

theorem outcomes_word_nil (absent : ¬word.toList <+: rest) :
    (Pattern.word word).outcomes (.between front rest) captures = [] := by
  rw [List.eq_nil_iff_forall_not_mem]
  intro outcome way
  obtain ⟨behind, rfl, -⟩ := Text.Pattern.mem_outcomes_text.mp way
  exact absent (List.prefix_append _ _)

/-- What a modifier captures. -/
def flagCaptures (slot : Nat) (word : String) (isSet : Bool) (front rest : List Char) : List Capture :=
  if isSet then [captureOf slot front word.toList (' ' :: rest)] else []

theorem takes_modified (visible : ∀ c, rest.head? = some c → isBlank c = false) {isSet : Bool}
    (absent : ¬word.toList <+: rest) :
    (Forms.modified slot word).Takes front (flag word isSet) rest captures
      (flagCaptures slot word isSet front rest ++ captures) := by
  cases isSet with
  | false =>
    refine Text.Pattern.takes_optional_nil ?_
    rw [Text.Pattern.outcomes_append, Pattern.outcomes, outcomes_word_nil absent]
    rfl
  | true =>
    have spelled : (Pattern.word word).Takes front word.toList ([' '] ++ rest) captures captures :=
      Text.Pattern.takes_text word.toList
    have space : Pattern.gap.Takes (front ++ word.toList) [' '] rest
        (captureOf slot front word.toList ([' '] ++ rest) :: captures)
        (captureOf slot front word.toList ([' '] ++ rest) :: captures) :=
      Text.Pattern.takes_oneOrMore (by simp) (by decide) visible
    exact Text.Pattern.takes_optional (takes_append (Text.Pattern.takes_capture spelled) space)

theorem head_keyword (member : word ∈ keywords) (rest : List Char) :
    (word.toList ++ rest).head?.any isWord = true := by
  have nonempty : ∀ keyword ∈ keywords, keyword.toList ≠ [] := by decide
  obtain ⟨c, letters, same⟩ := List.exists_cons_of_ne_nil (nonempty word member)
  have letter := letters_of_keyword word member
  rw [same] at letter ⊢
  exact letter c List.mem_cons_self

theorem head_flag (member : word ∈ keywords) (isSet : Bool) (starts : rest.head?.any isWord = true) :
    (flag word isSet ++ rest).head?.any isWord = true := by
  cases isSet with
  | false => exact starts
  | true =>
    rw [flag, if_pos rfl, List.append_assoc]
    exact head_keyword member _

theorem visible_of_head (starts : rest.head?.any isWord = true) :
    ∀ c, rest.head? = some c → isBlank c = false := by
  intro c first
  rw [first] at starts
  exact Text.isBlank_of_isWord starts

theorem differ_of_ne : ∀ one ∈ keywords, ∀ two ∈ keywords, one ≠ two → Differ one.toList two.toList := by
  decide

theorem takes_exported {keyword : String} (member : keyword ∈ keywords) (other : keyword ≠ "export")
    (isExported : Bool) (rest : List Char) :
    (Forms.modified Forms.exported "export").Takes [] (flag "export" isExported) (keyword.toList ++ rest) []
      (flagCaptures Forms.exported "export" isExported [] (keyword.toList ++ rest)) := by
  have absent := (differ_of_ne "export" (by decide) keyword member other.symm).absent rest
  have taken := @takes_modified [] (keyword.toList ++ rest) [] "export" Forms.exported
    (visible_of_head (head_keyword member rest)) isExported absent
  rwa [List.append_nil] at taken

theorem takes_both {keyword : String} (member : keyword ∈ keywords) (isModifier : word ∈ keywords)
    (others : keyword ≠ "export" ∧ word ≠ "export" ∧ keyword ≠ word) (isExported isModified : Bool)
    (rest : List Char) :
    (Forms.modified Forms.exported "export" ++ Forms.modified Forms.modifier word).Takes []
      (flag "export" isExported ++ flag word isModified) (keyword.toList ++ rest) []
      (flagCaptures Forms.modifier word isModified (flag "export" isExported) (keyword.toList ++ rest) ++
        flagCaptures Forms.exported "export" isExported [] (flag word isModified ++ (keyword.toList ++ rest))) := by
  obtain ⟨keywordOther, wordOther, different⟩ := others
  have absent : ¬"export".toList <+: flag word isModified ++ (keyword.toList ++ rest) := by
    cases isModified with
    | false => exact (differ_of_ne "export" (by decide) keyword member keywordOther.symm).absent rest
    | true =>
      rw [flag, if_pos rfl, List.append_assoc]
      exact (differ_of_ne "export" (by decide) word isModifier wordOther.symm).absent _
  have visible := visible_of_head (head_flag isModifier isModified (head_keyword member rest))
  have first := @takes_modified [] _ [] "export" Forms.exported visible isExported absent
  rw [List.append_nil] at first
  have second := (differ_of_ne word isModifier keyword member different.symm).absent rest
  exact takes_append first (takes_modified (visible_of_head (head_keyword member rest)) second)

end Modifiers

section Heads

theorem takes_wordStart (starts : rest.head?.any isWord = true) :
    Pattern.wordBoundary.Takes [] [] rest captures captures := by
  have boundary : (Cursor.between [] rest).atWordBoundary = (false != rest.head?.any isWord) := rfl
  rw [starts] at boundary
  exact Text.Pattern.takes_wordBoundary boundary

/-- A form takes its keyword behind its modifiers, the name, and the blanks behind the name. -/
theorem takes_heading {opening : Pattern} {keyword : String} {lead gap blanks : List Char} {name : Ident}
    (opens : opening.Takes [] lead (keyword.toList ++ (gap ++ (name.letters ++ (blanks ++ rest)))) [] captures)
    (starts : (lead ++ keyword.toList).head?.any isWord = true)
    (apart : gap ≠ []) (between : ∀ c ∈ gap, isBlank c = true) (blank : ∀ c ∈ blanks, isBlank c = true)
    (ends : ∀ c, (blanks ++ rest).head? = some c → isWord c = false)
    (visible : ∀ c, rest.head? = some c → isBlank c = false) :
    (.wordBoundary ++ opening ++ .word keyword ++ .gap ++ Forms.named ++ .space).Takes []
      (lead ++ keyword.toList ++ gap ++ name.letters ++ blanks) rest []
      (captureOf Forms.name (lead ++ keyword.toList ++ gap) name.letters (blanks ++ rest) :: captures) := by
  have first : (lead ++ (keyword.toList ++ (gap ++ (name.letters ++ (blanks ++ rest))))).head?.any isWord =
      true := by
    rw [← List.append_assoc]
    exact Text.head_append starts _
  have opened : (.wordBoundary ++ opening : Pattern).Takes [] lead
      (keyword.toList ++ (gap ++ (name.letters ++ (blanks ++ rest)))) [] captures :=
    takes_append (takes_wordStart first) opens
  have spelled : (Pattern.word keyword).Takes lead keyword.toList
      (gap ++ (name.letters ++ (blanks ++ rest))) captures captures :=
    Text.Pattern.takes_text keyword.toList
  have spaced : Pattern.gap.Takes (lead ++ keyword.toList) gap (name.letters ++ (blanks ++ rest)) captures
      captures := by
    refine Text.Pattern.takes_oneOrMore apart between fun c first => ?_
    have visible := name.first (blanks ++ rest)
    rwa [first] at visible
  have named : Forms.named.Takes (lead ++ keyword.toList ++ gap) name.letters (blanks ++ rest) captures
      (captureOf Forms.name (lead ++ keyword.toList ++ gap) name.letters (blanks ++ rest) :: captures) :=
    Text.Pattern.takes_capture (Text.Pattern.takes_oneOrMore name.nonempty name.word ends)
  have behind : Pattern.space.Takes (lead ++ keyword.toList ++ gap ++ name.letters) blanks rest
      (captureOf Forms.name (lead ++ keyword.toList ++ gap) name.letters (blanks ++ rest) :: captures)
      (captureOf Forms.name (lead ++ keyword.toList ++ gap) name.letters (blanks ++ rest) :: captures) :=
    Text.Pattern.takes_many blank visible
  exact takes_append (takes_append (takes_append (takes_append opened spelled) spaced) named) behind

theorem find?_payload {payload : List Capture} (behind : ∀ part ∈ payload, part.slot = Forms.payload)
    (other : slot ≠ Forms.payload) : payload.find? (·.slot == slot) = none := by
  rw [List.find?_eq_none]
  intro part member same
  exact other (by rw [← behind part member, beq_iff_eq.mp same])

/-- A name is read whatever payload is captured behind it. -/
theorem nameOf_captures {found : Match} {name : Ident} {payload others : List Capture}
    {lead behindName : List Char}
    (captured : found.captures = payload ++ captureOf Forms.name lead name.letters behindName :: others)
    (behind : ∀ part ∈ payload, part.slot = Forms.payload) : Scanned.nameOf found = name.name := by
  rw [Scanned.nameOf, Match.text, Match.text?, Match.capture?, captured, List.find?_append,
    find?_payload behind (by decide)]
  simp [Ident.name]

/-- What the head of a declaration captures says how it starts, whatever payload is captured behind it. -/
theorem reads_captures {found : Match} {name : Ident} {payload : List Capture} {isExported isModified : Bool}
    {lead behindName behindModifier behindExport : List Char}
    (captured : found.captures = payload ++ captureOf Forms.name lead name.letters behindName ::
      (flagCaptures Forms.modifier word isModified front behindModifier ++
        flagCaptures Forms.exported "export" isExported [] behindExport))
    (behind : ∀ part ∈ payload, part.slot = Forms.payload) :
    Scanned.nameOf found = name.name ∧ Scanned.isExported found = isExported ∧
      Scanned.isModified found = isModified := by
  have flagged (slot : Nat) (word : String) (isSet : Bool) (front rest : List Char) (wanted : Nat) :
      ((flagCaptures slot word isSet front rest).find? (·.slot == wanted)).isSome =
        (isSet && slot == wanted) := by
    cases isSet with
    | false => rfl
    | true => by_cases same : slot = wanted <;> simp [flagCaptures, same]
  refine ⟨nameOf_captures captured behind, ?_, ?_⟩
  · rw [Scanned.isExported, Match.capture?, captured, List.find?_append,
      find?_payload behind (by decide)]
    simp [flagged, Forms.exported, Forms.modifier, Forms.name]
  · rw [Scanned.isModified, Match.capture?, captured, List.find?_append,
      find?_payload behind (by decide)]
    simp [flagged, Forms.exported, Forms.modifier, Forms.name]

end Heads

section Declarations

def Content.isModified : Content → Bool
  | circuit isPure _ _ => isPure
  | ledgerItem isSealed _ => isSealed
  | _ => false

/-- The modifiers that the form of a declaration knows. -/
def Content.opening : Content → Pattern
  | circuit .. => Forms.modified Forms.exported "export" ++ Forms.modified Forms.modifier "pure"
  | ledgerItem .. => Forms.modified Forms.exported "export" ++ Forms.modified Forms.modifier "sealed"
  | _ => Forms.modified Forms.exported "export"

variable (declaration : Declaration)

/-- Captures that say how a declaration starts, whatever payload is captured behind them. -/
def Declaration.ReadFrom (captures : List Capture) : Prop :=
  ∀ found : Match, ∀ payload, found.captures = payload ++ captures →
    (∀ part ∈ payload, part.slot = Forms.payload) →
    Scanned.nameOf found = declaration.name.name ∧ Scanned.isExported found = declaration.isExported ∧
      Scanned.isModified found = declaration.content.isModified

theorem Content.head_modifier (content : Content) (starts : rest.head?.any isWord = true) :
    (content.modifier ++ rest).head?.any isWord = true := by
  cases content with
  | circuit isPure _ _ => exact head_flag (by decide) isPure starts
  | ledgerItem isSealed _ => exact head_flag (by decide) isSealed starts
  | _ => exact starts

theorem takes_opening (content : Content) (isExported : Bool) (rest : List Char) :
    ∃ word front behindModifier behindExport, content.opening.Takes []
      (flag "export" isExported ++ content.modifier) (content.keyword.toList ++ rest) []
      (flagCaptures Forms.modifier word content.isModified front behindModifier ++
        flagCaptures Forms.exported "export" isExported [] behindExport) := by
  have other : content.keyword ≠ "export" := by cases content <;> simp [Content.keyword]
  have exported := takes_exported content.keyword_mem other isExported rest
  rw [← List.append_nil (flag "export" isExported)] at exported
  cases content with
  | circuit isPure _ _ =>
    exact ⟨_, _, _, _, @takes_both "pure" "circuit" (by decide) (by decide) (by decide) isExported isPure rest⟩
  | ledgerItem isSealed _ =>
    exact ⟨_, _, _, _, @takes_both "sealed" "ledger" (by decide) (by decide) (by decide) isExported isSealed rest⟩
  | witness _ _ | typeAlias _ | struct _ | enumeration _ =>
    exact ⟨"", [], [], _, exported⟩

theorem Declaration.takes_head {blanks : List Char} (blank : ∀ c ∈ blanks, isBlank c = true)
    (ends : ∀ c, (blanks ++ rest).head? = some c → isWord c = false)
    (visible : ∀ c, rest.head? = some c → isBlank c = false) :
    ∃ captures, declaration.ReadFrom captures ∧
      (.wordBoundary ++ declaration.content.opening ++ .word declaration.content.keyword ++ .gap ++
        Forms.named ++ .space).Takes [] (declaration.lead ++ (declaration.name.letters ++ blanks)) rest []
        captures := by
  obtain ⟨word, front, behindModifier, behindExport, opens⟩ := takes_opening declaration.content
    declaration.isExported ([' '] ++ (declaration.name.letters ++ (blanks ++ rest)))
  have starts : (flag "export" declaration.isExported ++ declaration.content.modifier ++
      declaration.content.keyword.toList).head?.any isWord = true := by
    have word := head_keyword declaration.content.keyword_mem []
    rw [List.append_nil] at word
    rw [List.append_assoc]
    exact head_flag (by decide) _ (declaration.content.head_modifier word)
  have taken := takes_heading opens starts (by simp) (by decide) blank ends visible
  have lead : flag "export" declaration.isExported ++ declaration.content.modifier ++
      declaration.content.keyword.toList ++ [' '] = declaration.lead := by
    simp only [Declaration.lead, List.append_assoc]
  rw [lead, List.append_assoc] at taken
  exact ⟨_, fun found payload captured behind => reads_captures captured behind, taken⟩

end Declarations

end ContractInspector.Contract
