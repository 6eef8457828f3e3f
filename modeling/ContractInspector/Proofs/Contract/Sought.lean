import ContractInspector.Contract.Forms
import ContractInspector.Proofs.Contract.Lines

/-! The keywords that the forms of declarations look for. No match of a form starts in a part of a text
without these keywords, so its matches behind the part are those of the text there. -/
namespace ContractInspector.Contract

open Text (Capture Match Pattern isBlank isWord placeAt)
open Text.Pattern (Leads Marked)

/-- A form finds nothing without one of some keywords, and looks back for the ends of words only. -/
structure Sought (form : Pattern) (sought : List String) : Prop where
  among : sought ⊆ keywords
  seeks : form.Seeks sought isBlank
  looks : ∃ n, form.lookbehinds = List.replicate n isWord

section Seeking

variable {form opening : Pattern} {keyword : String}

theorem leads_modified {word : String} (member : word ∈ keywords) (slot : Nat) :
    (Forms.modified slot word).Leads :=
  Text.Pattern.leads_optional word (letters_of_keyword word member) slot

theorem leads_exported : (Forms.modified Forms.exported "export").Leads :=
  leads_modified (by decide) _

theorem seeks_gap (leads : opening.Leads) (member : keyword ∈ keywords) (next : Pattern) :
    (.wordBoundary ++ opening ++ .word keyword ++ (.gap ++ next)).Seeks [keyword] isBlank := by
  have nonempty : ∀ keyword ∈ keywords, keyword.toList ≠ [] := by decide
  exact Text.Pattern.seeks_keyword leads (Text.Pattern.startsWith_gap next)
    (letters_of_keyword keyword member) (nonempty keyword member)

theorem seeks_bare (member : keyword ∈ keywords) {next : Pattern}
    (shape : form = .wordBoundary ++ .word keyword ++ (.gap ++ next)) : form.Seeks [keyword] isBlank := by
  rw [shape]
  intro front text outcome way
  obtain ⟨spelled, way, behind⟩ := Pattern.mem_outcomes_append.mp way
  obtain ⟨bounded, way, spells⟩ := Pattern.mem_outcomes_append.mp way
  have opened : bounded ∈ (.wordBoundary ++ .empty : Pattern).outcomes (.between front text) [] :=
    Pattern.mem_outcomes_append.mpr ⟨bounded, way, List.mem_singleton_self _⟩
  exact seeks_gap Text.Pattern.leads_empty member next front text outcome
    (Pattern.mem_outcomes_append.mpr ⟨spelled, Pattern.mem_outcomes_append.mpr ⟨bounded, opened, spells⟩, behind⟩)

theorem sought_gap (leads : opening.Leads) (member : keyword ∈ keywords) {next : Pattern}
    (shape : form = .wordBoundary ++ opening ++ .word keyword ++ (.gap ++ next))
    (looks : form.lookbehinds = [isWord]) : Sought form [keyword] := by
  refine ⟨List.cons_subset.mpr ⟨member, List.nil_subset _⟩, ?_, 1, looks⟩
  rw [shape]
  exact seeks_gap leads member next

theorem leads_both {word : String} (member : word ∈ keywords) :
    (Forms.modified Forms.exported "export" ++ Forms.modified Forms.modifier word).Leads :=
  Text.Pattern.leads_append leads_exported (leads_modified member _)

theorem sought_circuit : Sought Forms.circuit ["circuit"] :=
  sought_gap (leads_both (show "pure" ∈ keywords by decide)) (by decide) rfl rfl

theorem sought_witness : Sought Forms.witness ["witness"] :=
  sought_gap leads_exported (by decide) rfl rfl

theorem sought_ledgerItem : Sought Forms.ledgerItem ["ledger"] :=
  sought_gap (leads_both (show "sealed" ∈ keywords by decide)) (by decide) rfl rfl

theorem sought_typeAlias : Sought Forms.typeAlias ["type"] :=
  sought_gap leads_exported (by decide) rfl rfl

theorem sought_struct : Sought Forms.struct ["struct"] :=
  sought_gap leads_exported (by decide) rfl rfl

theorem sought_enumeration : Sought Forms.enumeration ["enum"] :=
  sought_gap leads_exported (by decide) rfl rfl

theorem sought_pragma : Sought Forms.pragma ["pragma"] :=
  ⟨by decide, seeks_bare (by decide) rfl, 1, rfl⟩

theorem sought_importTarget : Sought Forms.importTarget ["import", "include"] :=
  ⟨by decide, Text.Pattern.seeks_orElse (seeks_bare (by decide) rfl) (seeks_bare (by decide) rfl), 2, rfl⟩

end Seeking

section Passing

variable {form : Pattern} {sought allowed : List String} {part tail : List Char}

theorem Sought.blind (isSought : Sought form sought) (marked : Marked part) : form.Blind part.getLast? := by
  obtain ⟨n, looks⟩ := isSought.looks
  obtain ⟨mark, last, noWord, -⟩ := marked
  intro holds member
  rw [looks] at member
  obtain rfl := List.eq_of_mem_replicate member
  rw [last]
  exact noWord

theorem Sought.passes (isSought : Sought form sought) (heads : Heads allowed part) (marked : Marked part)
    (others : ∀ keyword ∈ sought, keyword ∉ allowed) (front tail : List Char) :
    form.Passes (front ++ (part ++ tail)) front.length (front ++ part).length := by
  refine Text.Pattern.passes_of_words isSought.seeks marked ?_ (fun c => Text.isWord_of_isBlank) ?_ front tail
  · exact fun keyword member => letters_of_keyword keyword (isSought.among member)
  · intro keyword member within
    exact others keyword member (heads keyword (isSought.among member) within)

/-- A part without the keywords of a form adds no matches. -/
theorem Sought.matchesIn_other (isSought : Sought form sought) (heads : Heads allowed part)
    (marked : Marked part) (others : ∀ keyword ∈ sought, keyword ∉ allowed) (tail : List Char) :
    form.matchesIn (part ++ tail) = (form.matchesIn tail).map (Match.behind part) :=
  Pattern.matchesIn_append (isSought.blind marked) (isSought.passes heads marked others [] tail)

theorem Sought.search?_other (isSought : Sought form sought) (heads : Heads allowed part)
    (marked : Marked part) (others : ∀ keyword ∈ sought, keyword ∉ allowed) (tail : List Char) :
    form.search? (part ++ tail) = (form.search? tail).map (Match.behind part) :=
  Pattern.search?_append (isSought.blind marked) (isSought.passes heads marked others [] tail)

/-- A part that starts with a match adds this match if the keywords of the form do not come again. -/
theorem Sought.matchesIn_own (isSought : Sought form sought) {taken rest : List Char}
    {captures : List Capture} (takes : form.Takes [] taken (rest ++ tail) [] captures)
    (nonempty : taken ≠ []) (free : Free rest) (marked : Marked rest) :
    form.matchesIn (taken ++ rest ++ tail) =
      ⟨.between [] (taken ++ (rest ++ tail)), .between taken (rest ++ tail), captures⟩ ::
        (form.matchesIn tail).map (Match.behind (taken ++ rest)) := by
  have here : form.matchAt? (placeAt (taken ++ rest ++ tail) 0) = some
      ⟨.between [] (taken ++ (rest ++ tail)), .between taken (rest ++ tail), captures⟩ := by
    rw [List.append_assoc]
    exact Pattern.matchAt?_of_takes takes
  have passes := isSought.passes free.heads marked (fun _ _ => List.not_mem_nil) taken tail
  rw [← List.append_assoc] at passes
  exact Pattern.matchesIn_append_of_match (isSought.blind (Text.Pattern.marked_append taken marked)) here
    (List.length_pos_of_ne_nil nonempty) (by simp) passes

end Passing

end ContractInspector.Contract
