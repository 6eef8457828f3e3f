import ContractInspector.Proofs.Contract.Masked
import ContractInspector.Proofs.Source.Numbering
import ContractInspector.Proofs.Text.Behind

/-! Scanning a source behind another text. What a match of the source says is what it says there, but
for the line and the offsets, which are moved by what stands in front. -/
namespace ContractInspector.Source

variable {opener closer : Char} {front : List Char}

/-- A block, moved behind a text. -/
def Block.behind (front : List Char) (block : Block) : Block :=
  { block with opening := front.length + block.opening, closing := front.length + block.closing }

theorem closingFrom_behind (k inner offset : Nat) (text : List Char) :
    closingFrom opener closer inner (k + offset) text =
      (closingFrom opener closer inner offset text).map (k + ·) := by
  induction text using lexing_induction generalizing inner offset with
  | nil => simp [closingFrom]
  | reads read ih =>
    obtain ⟨c, rest, rfl, same⟩ := read.read
    rw [closingFrom, closingFrom, same]
    simp only [Nat.add_assoc, ih]
    split
    · split
      · rfl
      · split
        · split <;> rfl
        · rfl
    · rfl

theorem blockFrom?_behind (front : List Char) (start : Nat) (text : List Char) :
    blockFrom? (front.length + start) text = (blockFrom? start text).map (Block.behind front) := by
  cases text with
  | nil => rfl
  | cons c rest =>
    rw [blockFrom?, blockFrom?]
    cases closerOf? c with
    | none => rfl
    | some closer =>
      simp only [Nat.add_assoc, closingFrom_behind, Option.map_map]
      congr 1
      funext closing
      simp only [Function.comp_apply, Block.behind, Nat.add_sub_add_left]

end ContractInspector.Source

namespace ContractInspector.Contract

open Source (Block maskAll)
open Text (Match Pattern placeAt)

/-! Declarations, moved behind a text. -/

def Circuit.behind (front : List Char) (circuit : Circuit) : Circuit :=
  { circuit with line := circuit.line + front.count '\n' }

def Witness.behind (front : List Char) (witness : Witness) : Witness :=
  { witness with line := witness.line + front.count '\n' }

def LedgerItem.behind (front : List Char) (item : LedgerItem) : LedgerItem :=
  { item with line := item.line + front.count '\n' }

def TypeAlias.behind (front : List Char) (declared : TypeAlias) : TypeAlias :=
  { declared with line := declared.line + front.count '\n' }

def Struct.behind (front : List Char) (declared : Struct) : Struct :=
  { declared with line := declared.line + front.count '\n' }

def Enumeration.behind (front : List Char) (declared : Enumeration) : Enumeration :=
  { declared with line := declared.line + front.count '\n' }

def Structure.behind (front : List Char) (declared : Structure) : Structure where
  circuits := declared.circuits.map (Circuit.behind front)
  witnesses := declared.witnesses.map (Witness.behind front)
  ledgerItems := declared.ledgerItems.map (LedgerItem.behind front)
  types := declared.types.map (TypeAlias.behind front)
  structs := declared.structs.map (Struct.behind front)
  enums := declared.enums.map (Enumeration.behind front)

def CodeBlock.behind (front : List Char) (block : CodeBlock) : CodeBlock :=
  { block with
    line := block.line + front.count '\n'
    bodyStart := front.length + block.bodyStart
    bodyEnd := front.length + block.bodyEnd }

variable {front hidden : List Char}

theorem Structure.heads_behind (front : List Char) (declared : Structure) :
    (declared.behind front).exports = declared.exports ∧
      (declared.behind front).summary = declared.summary := by
  constructor
  · simp only [exports, behind, List.filter_map, List.map_map]
    rfl
  · simp [summary, counted, behind]

namespace Scanned

/-- A source and the same source behind another text, which masking turns into `hidden`. -/
structure Behind (front hidden : List Char) (first second : Scanned) : Prop where
  source : second.source.text = front ++ first.source.text
  masked : second.masked.text = hidden ++ first.masked.text
  length : hidden.length = front.length
  lines : first.lines = .ofText first.source.text
  moved_lines : second.lines = .ofText second.source.text

theorem behind_ofSource {text : List Char}
    (masks : maskAll (front ++ text) = maskAll front ++ maskAll text) :
    Behind front (maskAll front) (ofSource text) (ofSource (front ++ text)) where
  source := rfl
  masked := masks
  length := Source.length_mask true front
  lines := rfl
  moved_lines := rfl

namespace Behind

variable {first second : Scanned} (behind : Behind front hidden first second)
include behind

theorem lineOf_offset (n : Nat) :
    second.lines.lineOf (front.length + n : Nat) = first.lines.lineOf n + front.count '\n' := by
  rw [behind.moved_lines, behind.lines, behind.source, Source.LineIndex.lineOf_append]

theorem lineOf (found : Match) :
    second.lineOf (found.behind hidden) = first.lineOf found + front.count '\n' := by
  have moved := behind.lineOf_offset found.start.offset
  rw [← behind.length] at moved
  exact moved

theorem slice_source (start stop : Nat) :
    second.source.slice (front.length + start) (front.length + stop) =
      first.source.slice start stop := by
  rw [Text.Indexed.slice, Text.Indexed.drop_eq, behind.source, List.drop_length_add_append,
    Nat.add_sub_add_left, Text.Indexed.slice, Text.Indexed.drop_eq]

theorem captured (found : Match) (slot : Nat) :
    second.captured (found.behind hidden) slot = first.captured found slot := by
  rw [Scanned.captured, Text.Match.capture?_behind, Scanned.captured]
  cases found.capture? slot with
  | none => rfl
  | some part =>
    have moved := behind.slice_source part.start part.stop
    rw [← behind.length] at moved
    simp only [Option.map_some, Text.Capture.behind, moved]

theorem blockAt? (n : Nat) :
    second.blockAt? (front.length + n) = (first.blockAt? n).map (Block.behind front) := by
  rw [Scanned.blockAt?, Text.Indexed.drop_eq, behind.source, List.drop_length_add_append,
    Source.blockFrom?_behind, Scanned.blockAt?, Text.Indexed.drop_eq]

theorem blockOf? {found : Match} (forward : 0 < found.stop.offset) :
    second.blockOf? (found.behind hidden) = (first.blockOf? found).map (Block.behind front) := by
  have stop : (found.behind hidden).stop.offset - 1 = front.length + (found.stop.offset - 1) := by
    rw [← behind.length]
    exact Nat.add_sub_assoc forward hidden.length
  rw [Scanned.blockOf?, stop, behind.blockAt?, Scanned.blockOf?]

theorem bodyAfter? (n : Nat) :
    second.bodyAfter? (front.length + n) =
      (first.bodyAfter? n).map fun body => (front.length + body.1, front.length + body.2) := by
  have drop (n : Nat) : second.masked.drop (front.length + n) = first.masked.drop n := by
    rw [Text.Indexed.drop_eq, behind.masked, ← behind.length, List.drop_length_add_append,
      Text.Indexed.drop_eq]
  simp only [Scanned.bodyAfter?, drop, Nat.add_assoc, Source.blockFrom?_behind, Option.map_map]
  rfl

theorem matchAt? {form : Pattern} (blind : form.Blind hidden.getLast?) (n : Nat) :
    form.matchAt? (second.masked.cursorAt (front.length + n)) =
      (form.matchAt? (first.masked.cursorAt n)).map (Match.behind hidden) := by
  rw [Text.cursorAt_eq_placeAt, Text.cursorAt_eq_placeAt, behind.masked, ← behind.length,
    Pattern.matchAt?_behind blind]

section Matches

variable {found : Match} {here : List Match}

omit behind

theorem nameOf_behind (hidden : List Char) (found : Match) :
    nameOf (found.behind hidden) = nameOf found := by
  rw [nameOf, Match.text_behind, nameOf]

theorem isExported_behind (hidden : List Char) (found : Match) :
    isExported (found.behind hidden) = isExported found := by
  rw [isExported, Match.capture?_behind, Option.isSome_map, isExported]

theorem isModified_behind (hidden : List Char) (found : Match) :
    isModified (found.behind hidden) = isModified found := by
  rw [isModified, Match.capture?_behind, Option.isSome_map, isModified]

theorem blind_of_lookbehinds {form : Pattern} (looks : form.lookbehinds = []) (last : Option Char) :
    form.Blind last := by
  intro holds member
  rw [looks] at member
  contradiction

include behind

theorem circuit? (forward : 0 < found.stop.offset) :
    second.circuit? (found.behind hidden) =
      (first.circuit? found).map fun read => (read.1.behind front, read.2.map (CodeBlock.behind front)) := by
  have blind : Forms.returnType.Blind hidden.getLast? := blind_of_lookbehinds rfl _
  rw [Scanned.circuit?, behind.blockOf? forward, Scanned.circuit?]
  cases first.blockOf? found with
  | none => rfl
  | some parens =>
    have after : (parens.behind front).closing + 1 = front.length + (parens.closing + 1) := rfl
    simp only [Option.map_some, after, behind.matchAt? blind, nameOf_behind, isExported_behind,
      isModified_behind, behind.lineOf]
    cases Forms.returnType.matchAt? (first.masked.cursorAt (parens.closing + 1)) with
    | none =>
      simp only [Option.map_none, Option.getD_none, behind.bodyAfter?, Option.map_map]
      rfl
    | some type =>
      have stop : (type.behind hidden).stop.offset = front.length + type.stop.offset := by
        rw [← behind.length]
        rfl
      simp only [Option.map_some, Option.getD_some, behind.captured, stop, behind.bodyAfter?,
        Option.map_map]
      rfl

theorem witness? :
    second.witness? (found.behind hidden) = (first.witness? found).map (Witness.behind front) := by
  have blind : Forms.witnessType.Blind hidden.getLast? := blind_of_lookbehinds rfl _
  have stop : (found.behind hidden).stop.offset = front.length + found.stop.offset := by
    rw [← behind.length]
    rfl
  have rest : (found.behind hidden).stop.rest = found.stop.rest := rfl
  rw [Scanned.witness?, Scanned.witness?, rest]
  by_cases next : found.stop.rest.head? = some '('
  · simp only [if_pos next, stop, behind.blockAt?]
    cases first.blockAt? found.stop.offset with
    | none => rfl
    | some parens =>
      have after : (parens.behind front).closing + 1 = front.length + (parens.closing + 1) := rfl
      simp only [Option.map_some, Option.bind_eq_bind, Option.bind_some, Option.pure_def, after,
        behind.matchAt? blind, nameOf_behind, isExported_behind, behind.lineOf]
      cases Forms.witnessType.matchAt? (first.masked.cursorAt (parens.closing + 1)) with
      | none => rfl
      | some type =>
        simp only [Option.map_some, Option.bind_some, behind.captured]
        rfl
  · simp only [if_neg next, stop, Option.bind_eq_bind, Option.bind_some, Option.pure_def,
      behind.matchAt? blind, nameOf_behind, isExported_behind, behind.lineOf]
    cases Forms.witnessType.matchAt? (first.masked.cursorAt found.stop.offset) with
    | none => rfl
    | some type =>
      simp only [Option.map_some, Option.bind_some, behind.captured]
      rfl

theorem constructor? (forward : 0 < found.stop.offset) :
    second.constructor? (found.behind hidden) =
      (first.constructor? found).map (CodeBlock.behind front) := by
  rw [Scanned.constructor?, behind.blockOf? forward, Scanned.constructor?]
  cases first.blockOf? found with
  | none => rfl
  | some parens =>
    have after : (parens.behind front).closing + 1 = front.length + (parens.closing + 1) := rfl
    simp only [Option.map_some, Option.bind_eq_bind, Option.bind_some, after, behind.bodyAfter?,
      behind.lineOf]
    cases first.bodyAfter? (parens.closing + 1) <;> rfl

end Matches

end Behind

section Lists

variable {first second : Scanned} {found : Match} {here : List Match}

/-! What one match declares. -/

def ledgerItemOf (scanned : Scanned) (found : Match) : LedgerItem :=
  ⟨nameOf found, scanned.captured found Forms.payload, isExported found, isModified found,
    scanned.lineOf found⟩

def typeAliasOf (scanned : Scanned) (found : Match) : TypeAlias :=
  ⟨nameOf found, scanned.captured found Forms.payload, isExported found, scanned.lineOf found⟩

def struct? (scanned : Scanned) (found : Match) : Option Struct :=
  (scanned.blockOf? found).map fun braces =>
    ⟨nameOf found, membersOf braces, isExported found, scanned.lineOf found⟩

def enum? (scanned : Scanned) (found : Match) : Option Enumeration :=
  (scanned.blockOf? found).map fun braces =>
    ⟨nameOf found, membersOf braces, isExported found, scanned.lineOf found⟩

/-- What stands in front of a source adds the matches `here` of a form to those of the source. -/
def Adds (here : List Match) (hidden : List Char) (form : Pattern) (first second : Scanned) : Prop :=
  second.matchesOf form = here ++ (first.matchesOf form).map (Match.behind hidden)

theorem Adds.filterMap {α : Type} {form : Pattern} {read other : Match → Option α} {move : α → α}
    (adds : Adds here hidden form first second)
    (moves : ∀ found ∈ first.matchesOf form, other (found.behind hidden) = (read found).map move) :
    (second.matchesOf form).filterMap other =
      here.filterMap other ++ ((first.matchesOf form).filterMap read).map move := by
  rw [adds, List.filterMap_append, List.filterMap_map, List.map_filterMap]
  congr 1
  exact List.filterMap_congr moves

theorem stop_pos {form pattern : Pattern} {c : Char} (ends : form = pattern ++ .text [c])
    (member : found ∈ first.matchesOf form) : 0 < found.stop.offset := by
  subst ends
  obtain ⟨n, stop, -⟩ := (Pattern.fits_of_mem_matchesIn member).last_text
  rw [stop]
  exact Nat.succ_pos n

namespace Behind

variable (behind : Behind front hidden first second)
include behind

theorem circuits (adds : Adds here hidden Forms.circuit first second) :
    second.circuits = here.filterMap second.circuit? ++
      first.circuits.map fun read => (read.1.behind front, read.2.map (CodeBlock.behind front)) :=
  adds.filterMap fun _ member => behind.circuit? (stop_pos rfl member)

theorem witnesses (adds : Adds here hidden Forms.witness first second) :
    second.witnesses =
      here.filterMap second.witness? ++ first.witnesses.map (Witness.behind front) :=
  adds.filterMap fun _ _ => behind.witness?

theorem ledgerItems (adds : Adds here hidden Forms.ledgerItem first second) :
    second.ledgerItems =
      here.map second.ledgerItemOf ++ first.ledgerItems.map (LedgerItem.behind front) := by
  have moves (found : Match) : second.ledgerItemOf (found.behind hidden) =
      (first.ledgerItemOf found).behind front := by
    simp only [ledgerItemOf, nameOf_behind, behind.captured, isExported_behind, isModified_behind,
      behind.lineOf]
    rfl
  have reads (scanned : Scanned) : scanned.ledgerItems =
      (scanned.matchesOf Forms.ledgerItem).map scanned.ledgerItemOf := rfl
  rw [reads, adds, List.map_append, List.map_map, reads, List.map_map]
  congr 2
  funext found
  exact moves found

theorem types (adds : Adds here hidden Forms.typeAlias first second) :
    second.types = here.map second.typeAliasOf ++ first.types.map (TypeAlias.behind front) := by
  have moves (found : Match) : second.typeAliasOf (found.behind hidden) =
      (first.typeAliasOf found).behind front := by
    simp only [typeAliasOf, nameOf_behind, behind.captured, isExported_behind, behind.lineOf]
    rfl
  have reads (scanned : Scanned) : scanned.types =
      (scanned.matchesOf Forms.typeAlias).map scanned.typeAliasOf := rfl
  rw [reads, adds, List.map_append, List.map_map, reads, List.map_map]
  congr 2
  funext found
  exact moves found

theorem structs (adds : Adds here hidden Forms.struct first second) :
    second.structs = here.filterMap second.struct? ++ first.structs.map (Struct.behind front) := by
  refine adds.filterMap fun found member => ?_
  change second.struct? (found.behind hidden) = (first.struct? found).map (Struct.behind front)
  rw [struct?, struct?, behind.blockOf? (stop_pos rfl member), Option.map_map, Option.map_map]
  simp only [nameOf_behind, isExported_behind, behind.lineOf]
  rfl

theorem enums (adds : Adds here hidden Forms.enumeration first second) :
    second.enums = here.filterMap second.enum? ++ first.enums.map (Enumeration.behind front) := by
  refine adds.filterMap fun found member => ?_
  change second.enum? (found.behind hidden) = (first.enum? found).map (Enumeration.behind front)
  rw [enum?, enum?, behind.blockOf? (stop_pos rfl member), Option.map_map, Option.map_map]
  simp only [nameOf_behind, isExported_behind, behind.lineOf]
  rfl

theorem constructors (adds : Adds here hidden Forms.constructor first second) :
    second.constructors =
      here.filterMap second.constructor? ++ first.constructors.map (CodeBlock.behind front) :=
  adds.filterMap fun _ member => behind.constructor? (stop_pos rfl member)

end Behind

end Lists

end Scanned

end ContractInspector.Contract
