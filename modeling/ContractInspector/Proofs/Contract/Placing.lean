import ContractInspector.Proofs.Contract.Blocks
import ContractInspector.Proofs.Contract.Heading
import ContractInspector.Proofs.Contract.Layout
import ContractInspector.Proofs.Text.Captured
import ContractInspector.Proofs.Text.Lines
import ContractInspector.Proofs.Text.Standing

/-! The lines of declarations. A form that finds a declaration takes its modifiers, its keyword and its name
one behind the other (`Declares.exists_spelled`), and its line is that of the first of these words, which
stands on it as a whole (`lead_stands`). -/
namespace ContractInspector.Contract

open Source (LineIndex maskAll)
open Text (Capture Cursor Match Outcome Pattern isBlank isWord lines)

/-- How a declaration starts: its keywords as they are written, its name, and the line of the first keyword. -/
structure Lead where
  words : List String
  name : String
  line : Nat

/-- A modifier, if it is set. -/
def flagWord (word : String) (isSet : Bool) : List String :=
  if isSet then [word] else []

def Circuit.lead (circuit : Circuit) : Lead :=
  ⟨flagWord "export" circuit.isExported ++ flagWord "pure" circuit.isPure ++ ["circuit"], circuit.name, circuit.line⟩

def Witness.lead (witness : Witness) : Lead :=
  ⟨flagWord "export" witness.isExported ++ ["witness"], witness.name, witness.line⟩

def LedgerItem.lead (item : LedgerItem) : Lead :=
  ⟨flagWord "export" item.isExported ++ flagWord "sealed" item.isSealed ++ ["ledger"], item.name, item.line⟩

def TypeAlias.lead (declared : TypeAlias) : Lead :=
  ⟨flagWord "export" declared.isExported ++ ["type"], declared.name, declared.line⟩

def Struct.lead (declared : Struct) : Lead :=
  ⟨flagWord "export" declared.isExported ++ ["struct"], declared.name, declared.line⟩

def Enumeration.lead (declared : Enumeration) : Lead :=
  ⟨flagWord "export" declared.isExported ++ ["enum"], declared.name, declared.line⟩

/-- How the declarations start, list by list. -/
def Structure.leads (declared : Structure) : List (List Lead) :=
  [declared.circuits.map (·.lead), declared.witnesses.map (·.lead), declared.ledgerItems.map (·.lead),
    declared.types.map (·.lead), declared.structs.map (·.lead), declared.enums.map (·.lead)]

/-- A text starts with some words, each with a gap behind it, and goes on with the rest. -/
def Spelled : (words : List String) → (text rest : List Char) → Prop
  | [], text, rest => text = rest
  | word :: words, text, rest =>
    ∃ gap behind, text = word.toList ++ (gap ++ behind) ∧ gap ≠ [] ∧ Blank gap ∧ Spelled words behind rest

/-- A word at an offset of a text stands on a line. -/
structure OnLine (text : List Char) (n line : Nat) (word : List Char) : Prop where
  numbered : (LineIndex.ofText text).lineOf n = line
  shown : ∃ before after, (lines text)[line - 1]? = some (before ++ (word ++ after)) ∧ before <:+ text.take n

/-- A declaration starts at an offset of a text, on its line: its keywords and its name follow one another. -/
structure Lead.StandsAt (lead : Lead) (text : List Char) (n : Nat) : Prop where
  whole : (text.take n).getLast?.any isWord = false
  spelled : ∃ rest, Spelled lead.words (text.drop n) (lead.name.toList ++ rest)
  first : ∃ word words, lead.words = word :: words ∧ OnLine text n lead.line word.toList

section Spelling

variable {front text rest : List Char} {words : List String} {captures : List Capture} {outcome : Outcome}
  {last next : Pattern} {slot : Nat} {word keyword : String} {modifiers : List (Nat × String)}

theorem Spelled.concat {middle : List Char} (spelled : Spelled words text middle)
    (more : Spelled [keyword] middle rest) : Spelled (words ++ [keyword]) text rest := by
  induction words generalizing text with
  | nil =>
    obtain rfl : text = middle := spelled
    exact more
  | cons word words ih =>
    obtain ⟨gap, behind, rfl, apart, blank, others⟩ := spelled
    exact ⟨gap, behind, rfl, apart, blank, ih others⟩

/-- Modifiers in front of the rest of a form, each under a number of its own. -/
def Forms.led (modifiers : List (Nat × String)) (last : Pattern) : Pattern :=
  modifiers.foldr (fun named form => modified named.1 named.2 ++ form) last

/-- A keyword and a name in front of the rest of a form. -/
def Forms.naming (keyword : String) (next : Pattern) : Pattern :=
  .word keyword ++ (.gap ++ (named ++ next))

/-- The modifiers that some captures show to be set. -/
def flagWords (modifiers : List (Nat × String)) (captures : List Capture) : List String :=
  (modifiers.filter fun named => captures.any (·.slot == named.1)).map (·.2)

/-- What is captured behind a pattern was captured in front of it, or has one of its numbers. -/
theorem slot_of_mem {pattern : Pattern} {part : Capture}
    (way : outcome ∈ pattern.outcomes (.between front text) captures) (among : part ∈ outcome.2) :
    part ∈ captures ∨ part.slot ∈ pattern.captured.map Prod.fst := by
  rw [← Text.placeAt_length] at way
  refine (Pattern.takenBy_of_mem way among).imp_right fun ⟨body, member, _⟩ => ?_
  exact List.mem_map.mpr ⟨_, member, rfl⟩

theorem mem_of_mem_captures {pattern : Pattern} {part : Capture}
    (way : outcome ∈ pattern.outcomes (.between front text) captures) (among : part ∈ captures) :
    part ∈ outcome.2 := by
  rw [← Text.placeAt_length] at way
  obtain ⟨new, same, -⟩ := (Pattern.reached_of_mem way).captured
  rw [same]
  exact List.mem_append_right new among

/-- A modifier is written with a gap behind it, or nothing is taken and captured. -/
theorem outcomes_modified (way : outcome ∈ (Forms.modified slot word).outcomes (.between front text) captures) :
    (∃ gap rest, text = word.toList ++ (gap ++ rest) ∧ gap ≠ [] ∧ Blank gap ∧
      outcome = (.between (front ++ word.toList ++ gap) rest,
        Pattern.captureOf slot front word.toList (gap ++ rest) :: captures)) ∨
      outcome = (.between front text, captures) := by
  rw [Forms.modified, Pattern.mem_outcomes_optional, Pattern.mem_outcomes_append] at way
  refine way.imp_left fun ⟨middle, captured, spaced⟩ => ?_
  obtain ⟨inner, spelled, rfl⟩ := List.mem_map.mp captured
  obtain ⟨behind, rfl, rfl⟩ := Pattern.mem_outcomes_text.mp spelled
  obtain ⟨gap, rest, rfl, apart, blank, rfl⟩ := Pattern.mem_outcomes_oneOrMore.mp spaced
  exact ⟨gap, rest, rfl, apart, blank, by simp [Pattern.captureOf]⟩

theorem slots_led (modifiers : List (Nat × String)) (last : Pattern) :
    (Forms.led modifiers last).captured.map Prod.fst = modifiers.map Prod.fst ++ last.captured.map Prod.fst := by
  induction modifiers with
  | nil => rfl
  | cons named modifiers ih => exact congrArg (named.1 :: ·) ih

theorem flagWords_cons (named : Nat × String) (modifiers : List (Nat × String)) (captures : List Capture) :
    flagWords (named :: modifiers) captures =
      flagWord named.2 (captures.any (·.slot == named.1)) ++ flagWords modifiers captures := by
  rw [flagWords, List.filter_cons, flagWord]
  split <;> rfl

/-- The modifiers in front of the rest of a form are those that are captured. -/
theorem exists_spelled (distinct : (modifiers.map Prod.fst).Nodup)
    (apart : ∀ slot ∈ modifiers.map Prod.fst, slot ∉ last.captured.map Prod.fst)
    (fresh : ∀ part ∈ captures, part.slot ∉ modifiers.map Prod.fst)
    (way : outcome ∈ (Forms.led modifiers last).outcomes (.between front text) captures) :
    ∃ front' rest captures', Spelled (flagWords modifiers outcome.2) text rest ∧
      (∀ part ∈ captures', part ∈ captures ∨ part.slot ∈ modifiers.map Prod.fst) ∧
      outcome ∈ last.outcomes (.between front' rest) captures' := by
  induction modifiers generalizing front text captures with
  | nil => exact ⟨front, text, captures, rfl, fun part => .inl, way⟩
  | cons named modifiers ih =>
    obtain ⟨slot, word⟩ := named
    obtain ⟨different, distinct⟩ := List.nodup_cons.mp distinct
    obtain ⟨middle, modified, onward⟩ := Pattern.mem_outcomes_append.mp way
    obtain ⟨own, apart⟩ := List.forall_mem_cons.mp apart
    have others : ∀ part ∈ captures, part.slot ∉ modifiers.map Prod.fst := fun part member among =>
      fresh part member (List.mem_cons_of_mem slot among)
    rw [flagWords_cons]
    rcases outcomes_modified modified with ⟨gap, behind, rfl, nonempty, blank, rfl⟩ | rfl
    · obtain ⟨front', rest, captures', spelled, earlier, ending⟩ :=
        ih distinct apart (List.forall_mem_cons.mpr ⟨different, others⟩) onward
      have shown : outcome.2.any (·.slot == slot) = true :=
        List.any_eq_true.mpr ⟨_, mem_of_mem_captures onward List.mem_cons_self, by simp⟩
      refine ⟨front', rest, captures', ?_, fun part member => ?_, ending⟩
      · rw [shown]
        exact ⟨gap, behind, rfl, nonempty, blank, spelled⟩
      · rcases earlier part member with here | later
        · rcases List.mem_cons.mp here with rfl | before
          · exact .inr List.mem_cons_self
          · exact .inl before
        · exact .inr (List.mem_cons_of_mem slot later)
    · obtain ⟨front', rest, captures', spelled, earlier, ending⟩ := ih distinct apart others onward
      have hidden : outcome.2.any (·.slot == slot) = false := by
        refine List.any_eq_false.mpr fun part member same => ?_
        have same : part.slot = slot := by simpa using same
        rcases slot_of_mem onward member with before | later
        · exact fresh part before (same ▸ List.mem_cons_self)
        · change part.slot ∈ (Forms.led modifiers last).captured.map Prod.fst at later
          rw [slots_led, same] at later
          exact (List.mem_append.mp later).elim different own
      refine ⟨front', rest, captures', ?_, fun part member => ?_, ending⟩
      · rw [hidden]
        exact spelled
      · exact (earlier part member).imp_right (List.mem_cons_of_mem slot)

/-- Behind its keyword a declaration has its name. -/
theorem exists_name (apart : Forms.name ∉ next.captured.map Prod.fst)
    (fresh : ∀ part ∈ captures, part.slot ≠ Forms.name)
    (way : outcome ∈ (Forms.naming keyword next).outcomes (.between front text) captures) :
    ∃ name rest, Spelled [keyword] text (name ++ rest) ∧
      (outcome.2.find? (·.slot == Forms.name)).map Capture.text = some name := by
  obtain ⟨_, spelled, way⟩ := Pattern.mem_outcomes_append.mp way
  obtain ⟨behind, rfl, rfl⟩ := Pattern.mem_outcomes_text.mp spelled
  obtain ⟨_, spaced, way⟩ := Pattern.mem_outcomes_append.mp way
  obtain ⟨gap, behind, rfl, nonempty, blank, rfl⟩ := Pattern.mem_outcomes_oneOrMore.mp spaced
  obtain ⟨_, captured, way⟩ := Pattern.mem_outcomes_append.mp way
  obtain ⟨name, rest, rfl, -, -, rfl⟩ := Pattern.mem_outcomes_capture.mp captured
  refine ⟨name, rest, ⟨gap, name ++ rest, rfl, nonempty, blank, rfl⟩, ?_⟩
  have here := mem_of_mem_captures way List.mem_cons_self
  -- all other parts have other numbers
  cases first : outcome.2.find? (·.slot == Forms.name) with
  | none => exact absurd (List.find?_eq_none.mp first _ here) (by simp)
  | some part =>
    have same : part.slot = Forms.name := by simpa using List.find?_some first
    rcases slot_of_mem way (List.mem_of_find?_eq_some first) with earlier | later
    · rcases List.mem_cons.mp earlier with rfl | before
      · simp
      · exact absurd same (fresh part before)
    · exact absurd (same ▸ later) apart

end Spelling

section Leading

variable {source : List Char} {form : Pattern} {modifiers : List (Nat × String)} {keyword : String} {found : Match}

/-- A form of declarations: modifiers and a keyword in front of a name, each captured under a number that
nothing else has. -/
structure Declares (form : Pattern) (modifiers : List (Nat × String)) (keyword : String) : Prop where
  shape : ∃ next, form = .wordBoundary ++ Forms.led modifiers (Forms.naming keyword next) ∧
    Forms.name ∉ next.captured.map Prod.fst ∧
    ∀ slot ∈ modifiers.map Prod.fst, slot ∉ (Forms.naming keyword next).captured.map Prod.fst
  distinct : (modifiers.map Prod.fst).Nodup
  unnamed : Forms.name ∉ modifiers.map Prod.fst
  among : ∀ word ∈ modifiers.map Prod.snd ++ [keyword], word ∈ keywords

/-- How the declaration of a match starts. -/
def Scanned.leadOf (scanned : Scanned) (modifiers : List (Nat × String)) (keyword : String) (found : Match) : Lead :=
  ⟨flagWords modifiers found.captures ++ [keyword], nameOf found, scanned.lineOf found⟩

theorem declares_circuit :
    Declares Forms.circuit [(Forms.exported, "export"), (Forms.modifier, "pure")] "circuit" :=
  ⟨⟨_, rfl, by decide, by decide⟩, by decide, by decide, by decide⟩

theorem declares_witness : Declares Forms.witness [(Forms.exported, "export")] "witness" :=
  ⟨⟨_, rfl, by decide, by decide⟩, by decide, by decide, by decide⟩

theorem declares_ledgerItem :
    Declares Forms.ledgerItem [(Forms.exported, "export"), (Forms.modifier, "sealed")] "ledger" :=
  ⟨⟨_, rfl, by decide, by decide⟩, by decide, by decide, by decide⟩

theorem declares_typeAlias : Declares Forms.typeAlias [(Forms.exported, "export")] "type" :=
  ⟨⟨_, rfl, by decide, by decide⟩, by decide, by decide, by decide⟩

theorem declares_struct : Declares Forms.struct [(Forms.exported, "export")] "struct" :=
  ⟨⟨_, rfl, by decide, by decide⟩, by decide, by decide, by decide⟩

theorem declares_enumeration : Declares Forms.enumeration [(Forms.exported, "export")] "enum" :=
  ⟨⟨_, rfl, by decide, by decide⟩, by decide, by decide, by decide⟩

theorem OnLine.within {text word : List Char} {n line : Nat} (here : OnLine text n line word) :
    1 ≤ line ∧ line ≤ (LineIndex.ofText text).lineCount :=
  here.numbered ▸ LineIndex.lineOf_within text n

theorem onLine_of_prefix {text word : List Char} {n : Nat} (here : word <+: text.drop n) (inLine : '\n' ∉ word) :
    OnLine text n ((LineIndex.ofText text).lineOf n) word := by
  obtain ⟨rest, split⟩ := here
  obtain ⟨before, after, row, above⟩ := Text.exists_line inLine (text.take n) rest
  rw [split, List.take_append_drop] at row
  refine ⟨rfl, before, after, ?_, above⟩
  rw [LineIndex.lineOf_ofText, Nat.add_sub_cancel, row]

/-- Masking keeps the lines. -/
theorem lines_ofSource (source : List Char) : (Scanned.ofSource source).lines = .ofText (maskAll source) := by
  rw [maskAll, Source.ofText_mask]
  rfl

theorem mem_flagWords {word : String} {captures : List Capture} (member : word ∈ flagWords modifiers captures) :
    word ∈ modifiers.map Prod.snd := by
  obtain ⟨named, among, rfl⟩ := List.mem_map.mp member
  exact List.mem_map_of_mem (List.mem_filter.mp among).1

/-- The modifiers, the keyword and the name of a match follow one another from its start on. -/
theorem Declares.exists_spelled {text : List Char} (declares : Declares form modifiers keyword)
    (member : found ∈ form.matchesIn text) :
    ∃ front behind rest, text = front ++ behind ∧ front.length = found.start.offset ∧
      (Cursor.between front behind).atWordBoundary = true ∧
      Spelled (flagWords modifiers found.captures ++ [keyword]) behind (found.text Forms.name ++ rest) := by
  obtain ⟨n, inside, matched⟩ := Pattern.matchAt?_of_mem_matchesIn member
  obtain ⟨start, fits⟩ := Pattern.fits_of_matchAt? matched
  have way := fits.mem_outcomes
  rw [start] at way ⊢
  obtain ⟨front, behind, split, length, place⟩ := Text.exists_between inside
  obtain ⟨next, shape, unique, apart⟩ := declares.shape
  rw [place, shape] at way
  obtain ⟨_, edge, way⟩ := Pattern.mem_outcomes_append.mp way
  obtain ⟨bounded, rfl⟩ := Pattern.mem_outcomes_wordBoundary.mp edge
  obtain ⟨_, middle, captures, spelled, earlier, way⟩ := Contract.exists_spelled declares.distinct apart (by simp) way
  have fresh : ∀ part ∈ captures, part.slot ≠ Forms.name := by
    intro part among same
    exact (earlier part among).elim List.not_mem_nil fun later => declares.unnamed (same ▸ later)
  obtain ⟨name, rest, more, named⟩ := exists_name unique fresh way
  have taken : found.text Forms.name = name := by
    rw [Match.text, Match.text?, Match.capture?, named, Option.getD_some]
  exact ⟨front, behind, rest, split, length, bounded, taken ▸ spelled.concat more⟩

theorem lead_stands (declares : Declares form modifiers keyword)
    (member : found ∈ (Scanned.ofSource source).matchesOf form) :
    ((Scanned.ofSource source).leadOf modifiers keyword found).StandsAt (maskAll source) found.start.offset := by
  have masked : (Scanned.ofSource source).masked.text = maskAll source := rfl
  rw [Scanned.matchesOf, masked] at member
  obtain ⟨front, behind, rest, split, length, bounded, spelled⟩ := declares.exists_spelled member
  have some : flagWords modifiers found.captures ++ [keyword] ≠ [] := by simp
  obtain ⟨word, words, shape⟩ := List.exists_cons_of_ne_nil some
  have among : word ∈ keywords := by
    have here : word ∈ flagWords modifiers found.captures ++ [keyword] := shape ▸ List.mem_cons_self
    refine declares.among word (List.mem_append.mpr ?_)
    exact (List.mem_append.mp here).imp_left mem_flagWords
  have inLine : '\n' ∉ word.toList := fun newline =>
    absurd (letters_of_keyword word among '\n' newline) (by decide)
  have standing := spelled
  rw [shape] at standing
  obtain ⟨gap, after, rfl, -⟩ := standing
  rw [Text.atWordBoundary_between (head_keyword among _)] at bounded
  constructor
  case whole =>
    rw [split, ← length, List.take_left]
    simpa using bounded
  case spelled =>
    refine ⟨rest, ?_⟩
    rw [split, ← length, List.drop_left, Scanned.leadOf, Scanned.nameOf, String.toList_ofList]
    exact spelled
  case first =>
    refine ⟨word, words, shape, ?_⟩
    rw [Scanned.leadOf, Scanned.lineOf, lines_ofSource]
    refine onLine_of_prefix ?_ inLine
    rw [split, ← length, List.drop_left]
    exact List.prefix_append _ _

end Leading

section Lists

variable {source : List Char} {leads : List Lead}

/-- Declarations stand in a text, in the order of their lines. -/
structure InOrder (text : List Char) (leads : List Lead) : Prop where
  ordered : leads.Pairwise fun first second => first.line ≤ second.line
  stands : ∀ lead ∈ leads, ∃ n, lead.StandsAt text n

theorem InOrder.sublist {text : List Char} {others : List Lead} (inOrder : InOrder text leads)
    (part : others.Sublist leads) : InOrder text others :=
  ⟨inOrder.ordered.sublist part, fun lead member => inOrder.stands lead (part.subset member)⟩

theorem ordered_matchesOf (source : List Char) (form : Pattern) :
    (((Scanned.ofSource source).matchesOf form).map (Scanned.ofSource source).lineOf).Pairwise (· ≤ ·) := by
  rw [List.pairwise_map]
  exact (Pattern.ordered_matchesIn form _).imp fun before => LineIndex.lineOf_mono source (Nat.le_of_lt before)

/-- What is read from some of the items, in their order. -/
theorem sublist_filterMap {α β γ : Type} {read : α → Option β} {view : β → γ} {expected : α → γ}
    (each : ∀ item result, read item = some result → view result = expected item) (items : List α) :
    ((items.filterMap read).map view).Sublist (items.map expected) := by
  induction items with
  | nil => exact .slnil
  | cons item items ih =>
    cases taken : read item with
    | none =>
      rw [List.filterMap_cons_none taken]
      exact ih.cons _
    | some result =>
      rw [List.filterMap_cons_some taken, List.map_cons, List.map_cons, each item result taken]
      exact ih.cons_cons _

theorem inOrder_matchesOf {form : Pattern} {modifiers : List (Nat × String)} {keyword : String}
    (declares : Declares form modifiers keyword) (source : List Char) :
    InOrder (maskAll source)
      (((Scanned.ofSource source).matchesOf form).map ((Scanned.ofSource source).leadOf modifiers keyword)) := by
  refine ⟨?_, List.forall_mem_map.mpr fun found member => ⟨_, lead_stands declares member⟩⟩
  have ordered := ordered_matchesOf source form
  rw [List.pairwise_map] at ordered ⊢
  exact ordered

end Lists

section Declarations

variable {scanned : Scanned} {found : Match}

theorem flagWords_exported (found : Match) :
    flagWords [(Forms.exported, "export")] found.captures = flagWord "export" (Scanned.isExported found) := by
  rw [flagWords_cons, Scanned.isExported, Match.capture?, List.isSome_find?]
  exact List.append_nil _

theorem flagWords_modified (word : String) (found : Match) :
    flagWords [(Forms.exported, "export"), (Forms.modifier, word)] found.captures =
      flagWord "export" (Scanned.isExported found) ++ flagWord word (Scanned.isModified found) := by
  rw [flagWords_cons, flagWords_cons, Scanned.isExported, Scanned.isModified, Match.capture?, Match.capture?,
    List.isSome_find?, List.isSome_find?]
  exact congrArg _ (List.append_nil _)

theorem lead_circuit {circuit : Circuit} {body? : Option CodeBlock}
    (read : scanned.circuit? found = some (circuit, body?)) :
    circuit.lead = scanned.leadOf [(Forms.exported, "export"), (Forms.modifier, "pure")] "circuit" found := by
  obtain ⟨parens, -, same⟩ := Option.map_eq_some_iff.mp read
  obtain ⟨rfl, -⟩ := Prod.mk.inj same
  rw [Scanned.leadOf, flagWords_modified]
  rfl

theorem lead_witness {witness : Witness} (read : scanned.witness? found = some witness) :
    witness.lead = scanned.leadOf [(Forms.exported, "export")] "witness" found := by
  obtain ⟨type, params, rfl⟩ := Scanned.exists_of_witness? read
  rw [Scanned.leadOf, flagWords_exported]
  rfl

theorem leads_ledgerItems (scanned : Scanned) : scanned.ledgerItems.map (·.lead) =
    (scanned.matchesOf Forms.ledgerItem).map
      (scanned.leadOf [(Forms.exported, "export"), (Forms.modifier, "sealed")] "ledger") := by
  rw [Scanned.ledgerItems, List.map_map]
  refine List.map_congr_left fun found _ => ?_
  rw [Scanned.leadOf, flagWords_modified]
  rfl

theorem leads_types (scanned : Scanned) : scanned.types.map (·.lead) =
    (scanned.matchesOf Forms.typeAlias).map (scanned.leadOf [(Forms.exported, "export")] "type") := by
  rw [Scanned.types, List.map_map]
  refine List.map_congr_left fun found _ => ?_
  rw [Scanned.leadOf, flagWords_exported]
  rfl

/-- The declarations of a scan stand in the masked source, those of each kind in the order of their lines. -/
theorem inOrder_leads (source : List Char) :
    ∀ leads ∈ (scan source).declared.leads, InOrder (maskAll source) leads := by
  have part {form : Pattern} {modifiers : List (Nat × String)} {keyword : String} {leads : List Lead}
      (declares : Declares form modifiers keyword)
      (some : leads.Sublist (((Scanned.ofSource source).matchesOf form).map
        ((Scanned.ofSource source).leadOf modifiers keyword))) : InOrder (maskAll source) leads :=
    (inOrder_matchesOf declares source).sublist some
  simp only [Structure.leads, List.forall_mem_cons, List.not_mem_nil, false_implies, implies_true, and_true]
  have items := leads_ledgerItems (Scanned.ofSource source) ▸ inOrder_matchesOf declares_ledgerItem source
  have types := leads_types (Scanned.ofSource source) ▸ inOrder_matchesOf declares_typeAlias source
  refine ⟨part declares_circuit ?_, part declares_witness ?_, items, types, part declares_struct ?_,
    part declares_enumeration ?_⟩
  · rw [scan, Scanned.circuits, List.map_map]
    exact sublist_filterMap (fun found read taken => lead_circuit taken) _
  · exact sublist_filterMap (fun found witness taken => lead_witness taken) _
  · refine sublist_filterMap (fun found declared taken => ?_) _
    obtain ⟨braces, -, rfl⟩ := Option.map_eq_some_iff.mp taken
    rw [Scanned.leadOf, flagWords_exported]
    rfl
  · refine sublist_filterMap (fun found declared taken => ?_) _
    obtain ⟨braces, -, rfl⟩ := Option.map_eq_some_iff.mp taken
    rw [Scanned.leadOf, flagWords_exported]
    rfl

theorem within_of_mem_leads {source : List Char} {leads : List Lead} {lead : Lead}
    (kind : leads ∈ (scan source).declared.leads) (member : lead ∈ leads) :
    1 ≤ lead.line ∧ lead.line ≤ (scan source).lines.lineCount := by
  obtain ⟨n, stands⟩ := (inOrder_leads source leads kind).stands lead member
  obtain ⟨word, words, -, here⟩ := stands.first
  have lines : (scan source).lines = .ofText (maskAll source) := lines_ofSource source
  exact lines ▸ here.within

/-- A declaration is reported on the line of its first keyword. -/
example : (scan "/*\n*/export\n\npure circuit f(): [] \x7b \x7d".toList).declared.circuits.map (·.line) = [2] := by
  decide +kernel

end Declarations

section Bodies

variable {source : List Char} {block : CodeBlock} {found : Match}

/-- How a block starts: a circuit as it is declared, and a constructor with its keyword and its parenthesis. -/
def CodeBlock.Starts (source : List Char) (block : CodeBlock) : Prop :=
  match block.kind with
  | .circuit => ∃ circuit ∈ (scan source).declared.circuits,
    (circuit.name = block.name ∧ circuit.isExported = block.isExported ∧ circuit.line = block.line) ∧
      ∃ n, circuit.lead.StandsAt (maskAll source) n
  | .constructor => ∃ n gap, Blank gap ∧
    Text.StandsAt isWord ("constructor".toList ++ (gap ++ ['('])) (maskAll source) n ∧
      OnLine (maskAll source) n block.line "constructor".toList

theorem line_of_bodyOf? {scanned : Scanned} {kind : BlockKind}
    (body : scanned.bodyOf? kind found = some block) : block.line = scanned.lineOf found := by
  cases kind with
  | circuit =>
    obtain ⟨⟨circuit, body?⟩, read, rfl⟩ := Option.bind_eq_some_iff.mp body
    obtain ⟨parens, -, same⟩ := Option.map_eq_some_iff.mp read
    obtain ⟨body, -, rfl⟩ := Option.map_eq_some_iff.mp (Prod.mk.inj same).2
    rfl
  | constructor =>
    obtain ⟨parens, -, read⟩ := Option.bind_eq_some_iff.mp body
    obtain ⟨body, -, same⟩ := Option.bind_eq_some_iff.mp read
    obtain rfl := Option.some.inj same
    rfl

theorem ordered_bodies (source : List Char) (kind : BlockKind) :
    ((((Scanned.ofSource source).matchesOf kind.form).filterMap ((Scanned.ofSource source).bodyOf? kind)).map
      (·.line)).Pairwise (· ≤ ·) :=
  (ordered_matchesOf source kind.form).sublist (sublist_filterMap (fun _ _ body => line_of_bodyOf? body) _)

theorem ordered_circuitBlocks (source : List Char) :
    ((scan source).circuitBlocks.map (·.line)).Pairwise (· ≤ ·) := by
  have ordered := ordered_bodies source .circuit
  have blocks : (scan source).circuitBlocks = ((Scanned.ofSource source).matchesOf Forms.circuit).filterMap
      ((Scanned.ofSource source).bodyOf? .circuit) := List.filterMap_filterMap
  rw [blocks]
  exact ordered

theorem ordered_constructors (source : List Char) : ((scan source).constructors.map (·.line)).Pairwise (· ≤ ·) :=
  ordered_bodies source .constructor

theorem starts_of_mem (member : block ∈ (scan source).blocks) : block.Starts source := by
  rcases List.mem_append.mp member with inCircuits | inConstructors
  · obtain ⟨⟨circuit, body?⟩, among, body⟩ := List.mem_filterMap.mp inCircuits
    obtain ⟨found, -, read⟩ := List.mem_filterMap.mp among
    have declared : circuit ∈ (scan source).declared.circuits := List.mem_map.mpr ⟨_, among, rfl⟩
    obtain ⟨parens, -, same⟩ := Option.map_eq_some_iff.mp read
    obtain ⟨own, rfl⟩ := Prod.mk.inj same
    obtain ⟨body, -, rfl⟩ := Option.map_eq_some_iff.mp body
    have stands := (inOrder_leads source _ List.mem_cons_self).stands _ (List.mem_map_of_mem declared)
    exact ⟨circuit, declared, ⟨own ▸ rfl, own ▸ rfl, own ▸ rfl⟩, stands⟩
  · obtain ⟨found, matched, body⟩ := List.mem_filterMap.mp inConstructors
    have ofBody : (Scanned.ofSource source).bodyOf? .constructor found = some block := body
    have line := line_of_bodyOf? ofBody
    obtain ⟨n, inside, here⟩ := Pattern.matchAt?_of_mem_matchesIn matched
    rw [Scanned.lineOf, (Pattern.fits_of_matchAt? here).1, lines_ofSource] at line
    have letter : "constructor".toList.head?.any isWord = true := rfl
    obtain ⟨gap, blank, stands, -⟩ := Text.standsAt_of_opening letter inside here
    obtain ⟨parens, -, read⟩ := Option.bind_eq_some_iff.mp body
    obtain ⟨body, -, same⟩ := Option.bind_eq_some_iff.mp read
    obtain rfl := Option.some.inj same
    have word := (List.prefix_append "constructor".toList _).trans stands.here
    exact ⟨n, gap, blank, stands, line ▸ onLine_of_prefix word (by decide)⟩

end Bodies

end ContractInspector.Contract
