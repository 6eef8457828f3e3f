import ContractInspector.Contract.Report
import ContractInspector.Proofs.Source.Balance
import ContractInspector.Proofs.Text.Outcomes

/-! What a scan takes from the masked source. The scans of two sources that mask alike report the same
but for payload texts, and the texts that are read without comments are the same too once the sources
agree without comments. -/
namespace ContractInspector.Contract

open Source (Block maskAll stripComments)
open Text (Match Pattern placeAt)

/-! A declaration without its payload: its name, its flags and its line. -/

def Circuit.head (circuit : Circuit) : Circuit :=
  { circuit with params := [], returnType := "" }

def Witness.head (witness : Witness) : Witness :=
  { witness with type := "", params := [] }

def LedgerItem.head (item : LedgerItem) : LedgerItem :=
  { item with type := "" }

def TypeAlias.head (declared : TypeAlias) : TypeAlias :=
  { declared with definition := "" }

def Struct.head (declared : Struct) : Struct :=
  { declared with fields := [] }

def Enumeration.head (declared : Enumeration) : Enumeration :=
  { declared with variants := [] }

/-- A block without its parameters. -/
def CodeBlock.head (block : CodeBlock) : CodeBlock :=
  { block with params := [] }

theorem blocks_ext {first second : List CodeBlock}
    (heads : first.map CodeBlock.head = second.map CodeBlock.head)
    (params : first.map CodeBlock.params = second.map CodeBlock.params) : first = second := by
  induction first generalizing second with
  | nil => exact (List.map_eq_nil_iff.mp heads.symm).symm
  | cons block blocks ih =>
    obtain ⟨other, others, rfl, head, behind⟩ := List.map_eq_cons_iff.mp heads.symm
    obtain ⟨own, rest⟩ := List.cons.inj params
    rw [ih behind.symm rest]
    cases block
    cases other
    simp_all [CodeBlock.head]

/-- All declarations without their payloads. -/
def Structure.heads (declared : Structure) : Structure where
  circuits := declared.circuits.map Circuit.head
  witnesses := declared.witnesses.map Witness.head
  ledgerItems := declared.ledgerItems.map LedgerItem.head
  types := declared.types.map TypeAlias.head
  structs := declared.structs.map Struct.head
  enums := declared.enums.map Enumeration.head

section Heads

variable {first second : Structure}

theorem Structure.exports_heads (declared : Structure) : declared.heads.exports = declared.exports := by
  simp only [exports, heads, List.filter_map, List.map_map]
  rfl

theorem Structure.summary_heads (declared : Structure) : declared.heads.summary = declared.summary := by
  simp [summary, counted, heads]

theorem map_filterMap_congr {α β γ : Type} {read other : α → Option β} {view : β → γ}
    {items : List α} (same : ∀ item ∈ items, (read item).map view = (other item).map view) :
    (items.filterMap read).map view = (items.filterMap other).map view := by
  rw [List.map_filterMap, List.map_filterMap]
  exact List.filterMap_congr same

end Heads

namespace Scanned

/-- The masked source shows one of the characters that open a block at an offset. -/
def OpensAt (scanned : Scanned) (offset : Nat) : Prop :=
  ∃ opener closer, scanned.masked.text[offset]? = some opener ∧
    Source.closerOf? opener = some closer

theorem last_char {pattern : Pattern} {c : Char} {text : List Char} {found : Match}
    (fits : (pattern ++ .text [c]).Fits text found) : text[found.stop.offset - 1]? = some c := by
  obtain ⟨n, stop, rest, here⟩ := fits.last_text
  rw [stop, List.length_singleton, Nat.add_sub_cancel, ← List.head?_drop, ← here]
  rfl

theorem opensAt_last {scanned : Scanned} {form pattern : Pattern} {opener closer : Char}
    {found : Match} (member : found ∈ scanned.matchesOf form)
    (ends : form = pattern ++ .text [opener]) (opens : Source.closerOf? opener = some closer) :
    scanned.OpensAt (found.stop.offset - 1) := by
  subst ends
  exact ⟨opener, closer, last_char (Pattern.fits_of_mem_matchesIn member), opens⟩

theorem opensAt_stop {scanned : Scanned} {form : Pattern} {opener closer : Char} {found : Match}
    (member : found ∈ scanned.matchesOf form) (next : found.stop.rest.head? = some opener)
    (opens : Source.closerOf? opener = some closer) : scanned.OpensAt found.stop.offset := by
  have stop : found.stop = placeAt scanned.masked.text found.stop.offset :=
    (Pattern.reached_of_mem (Pattern.fits_of_mem_matchesIn member).mem_outcomes).place
  rw [stop, Text.rest_placeAt, List.head?_drop] at next
  exact ⟨opener, closer, next, opens⟩

theorem blockAt?_ofSource (source : List Char) (offset : Nat) :
    (ofSource source).blockAt? offset = Source.blockAt? source offset := by
  rw [blockAt?, Text.Indexed.drop_eq, Source.blockAt?]
  rfl

/-- Two sources in which a scan sees the same: their masked copies, their lines, and where a block
ends. -/
structure Alike (first second : Scanned) : Prop where
  masked : first.masked = second.masked
  lines : first.lines = second.lines
  blocks : ∀ offset, first.OpensAt offset →
    (first.blockAt? offset).map Block.ends = (second.blockAt? offset).map Block.ends

/-- Between the ends of their blocks the sources read the same without comments. -/
def SameBodies (first second : Scanned) : Prop :=
  ∀ offset, first.OpensAt offset →
    (first.blockAt? offset).map (stripComments ·.body) =
      (second.blockAt? offset).map (stripComments ·.body)

theorem alike_of_maskAll {first second : List Char} (same : maskAll first = maskAll second) :
    Alike (ofSource first) (ofSource second) where
  masked := congrArg Text.Indexed.ofText same
  lines := by
    have lines := congrArg Source.LineIndex.ofText same
    rwa [maskAll, maskAll, Source.ofText_mask, Source.ofText_mask] at lines
  blocks := by
    rintro offset ⟨opener, closer, kept, opens⟩
    rw [blockAt?_ofSource, blockAt?_ofSource]
    have here : (maskAll second)[offset]? = some opener := same ▸ kept
    rw [Source.blockAt?_eq kept opens, Source.blockAt?_eq here opens, same, Option.map_map,
      Option.map_map]
    rfl

theorem sameBodies_of_stripComments {first second : List Char}
    (masked : maskAll first = maskAll second) (same : stripComments first = stripComments second) :
    SameBodies (ofSource first) (ofSource second) := by
  rintro offset ⟨opener, closer, kept, opens⟩
  rw [blockAt?_ofSource, blockAt?_ofSource]
  have here : (maskAll second)[offset]? = some opener := masked ▸ kept
  have bodies : ∀ {text : List Char} (kept : (maskAll text)[offset]? = some opener),
      (Source.blockAt? text offset).map (stripComments ·.body) =
        (Source.blockAt? text offset).map fun block =>
          Text.slice (stripComments text) (block.ends.1 + 1) block.ends.2 := by
    intro text kept
    exact Option.map_congr fun block found => Source.mask_body kept opens found false
  have ends := (alike_of_maskAll masked).blocks offset ⟨opener, closer, kept, opens⟩
  rw [blockAt?_ofSource, blockAt?_ofSource] at ends
  have slices := congrArg (Option.map fun ends : Nat × Nat =>
    Text.slice (stripComments second) (ends.1 + 1) ends.2) ends
  rw [Option.map_map, Option.map_map] at slices
  exact (bodies kept).trans (same ▸ slices.trans (bodies here).symm)

variable {first second : Scanned} {found : Match}

theorem Alike.matchesOf (alike : Alike first second) (form : Pattern) :
    first.matchesOf form = second.matchesOf form := by
  rw [Scanned.matchesOf, alike.masked, ← Scanned.matchesOf]

theorem Alike.bodyAfter? (alike : Alike first second) (offset : Nat) :
    first.bodyAfter? offset = second.bodyAfter? offset := by
  rw [Scanned.bodyAfter?, alike.masked, ← Scanned.bodyAfter?]

theorem Alike.lineOf (alike : Alike first second) (found : Match) :
    first.lineOf found = second.lineOf found := by
  rw [Scanned.lineOf, alike.lines, ← Scanned.lineOf]

theorem Alike.closing {offset : Nat} (alike : Alike first second) (opens : first.OpensAt offset) :
    (first.blockAt? offset).map Block.closing = (second.blockAt? offset).map Block.closing := by
  have ends := congrArg (Option.map Prod.snd) (alike.blocks offset opens)
  rwa [Option.map_map, Option.map_map] at ends

theorem Alike.cases_block {offset : Nat} (alike : Alike first second) (opens : first.OpensAt offset) :
    (first.blockAt? offset = none ∧ second.blockAt? offset = none) ∨
      ∃ block other, first.blockAt? offset = some block ∧ second.blockAt? offset = some other ∧
        block.closing = other.closing := by
  have closing := alike.closing opens
  cases left : first.blockAt? offset with
  | none =>
    rw [left, Option.map_none, eq_comm, Option.map_eq_none_iff] at closing
    exact .inl ⟨rfl, closing⟩
  | some block =>
    rw [left, Option.map_some, eq_comm, Option.map_eq_some_iff] at closing
    obtain ⟨other, right, same⟩ := closing
    exact .inr ⟨block, other, rfl, right, same.symm⟩

theorem Alike.kept {α : Type} {offset : Nat} (alike : Alike first second)
    (opens : first.OpensAt offset) (value : α) :
    (first.blockAt? offset).map (fun _ => value) = (second.blockAt? offset).map fun _ => value := by
  have values := congrArg (Option.map fun _ => value) (alike.blocks offset opens)
  rwa [Option.map_map, Option.map_map] at values

theorem SameBodies.params {offset : Nat} (bodies : SameBodies first second)
    (opens : first.OpensAt offset) :
    (first.blockAt? offset).map paramsOf = (second.blockAt? offset).map paramsOf := by
  have params := congrArg (Option.map fun body => (Source.splitTop ',' body).map String.ofList)
    (bodies offset opens)
  rwa [Option.map_map, Option.map_map] at params

theorem SameBodies.members {offset : Nat} (bodies : SameBodies first second)
    (opens : first.OpensAt offset) :
    (first.blockAt? offset).map membersOf = (second.blockAt? offset).map membersOf := by
  have members := congrArg (Option.map fun body =>
    ((Source.splitTop ',' body).flatMap (Source.splitTop ';')).map String.ofList)
    (bodies offset opens)
  rwa [Option.map_map, Option.map_map] at members

section Circuits

/-- The head of a circuit and of its block depend on where the parameters end, not on what they
are. -/
theorem circuit?_head (alike : Alike first second) (member : found ∈ first.matchesOf Forms.circuit) :
    (first.circuit? found).map (fun read => (read.1.head, read.2.map CodeBlock.head)) =
      (second.circuit? found).map fun read => (read.1.head, read.2.map CodeBlock.head) := by
  simp only [circuit?, blockOf?, alike.masked, alike.lineOf, alike.bodyAfter?]
  rcases alike.cases_block (opensAt_last member rfl rfl) with
    ⟨left, right⟩ | ⟨block, other, left, right, closing⟩
  · simp [left, right]
  · simp [left, right, closing, Circuit.head, CodeBlock.head, Function.comp_def]

theorem circuit?_params (alike : Alike first second) (bodies : SameBodies first second)
    (member : found ∈ first.matchesOf Forms.circuit) :
    (first.circuit? found).map (fun read => (read.1.params, read.2.map CodeBlock.params)) =
      (second.circuit? found).map fun read => (read.1.params, read.2.map CodeBlock.params) := by
  have opens := opensAt_last member rfl rfl
  have params := bodies.params opens
  simp only [circuit?, blockOf?, alike.masked, alike.lineOf, alike.bodyAfter?]
  rcases alike.cases_block opens with ⟨left, right⟩ | ⟨block, other, left, right, closing⟩
  · simp [left, right]
  · have same : paramsOf block = paramsOf other := by simpa [left, right] using params
    simp [left, right, closing, same, Function.comp_def]

end Circuits

section Witnesses

/-- A witness that is read has the name of its match, and is exported and placed as that one is. -/
theorem exists_of_witness? {scanned : Scanned} {witness : Witness}
    (read : scanned.witness? found = some witness) : ∃ type params,
      witness = ⟨nameOf found, type, params, isExported found, scanned.lineOf found⟩ := by
  simp only [witness?, Option.bind_eq_bind, Option.pure_def, Option.bind_some] at read
  split at read
  · obtain ⟨parens, -, read⟩ := Option.bind_eq_some_iff.mp read
    obtain ⟨type, -, same⟩ := Option.bind_eq_some_iff.mp read
    exact ⟨_, _, (Option.some.inj same).symm⟩
  · obtain ⟨type, -, same⟩ := Option.bind_eq_some_iff.mp read
    exact ⟨_, _, (Option.some.inj same).symm⟩

theorem witness?_head (alike : Alike first second)
    (member : found ∈ first.matchesOf Forms.witness) :
    (first.witness? found).map Witness.head = (second.witness? found).map Witness.head := by
  simp only [witness?, alike.masked, alike.lineOf]
  by_cases next : found.stop.rest.head? = some '('
  · simp only [if_pos next]
    rcases alike.cases_block (opensAt_stop member next rfl) with
      ⟨left, right⟩ | ⟨block, other, left, right, closing⟩
    · simp [left, right]
    · simp [left, right, closing, Witness.head, Function.comp_def]
  · simp [next, Witness.head, Function.comp_def]

theorem witness?_params (alike : Alike first second) (bodies : SameBodies first second)
    (member : found ∈ first.matchesOf Forms.witness) :
    (first.witness? found).map Witness.params = (second.witness? found).map Witness.params := by
  simp only [witness?, alike.masked]
  by_cases next : found.stop.rest.head? = some '('
  · have opens := opensAt_stop member next rfl
    have params := bodies.params opens
    simp only [if_pos next]
    rcases alike.cases_block opens with ⟨left, right⟩ | ⟨block, other, left, right, closing⟩
    · simp [left, right]
    · have same : paramsOf block = paramsOf other := by simpa [left, right] using params
      simp [left, right, closing, same, Function.comp_def]
  · simp [next, Function.comp_def]

end Witnesses

section Lists

theorem circuits_heads (alike : Alike first second) :
    first.circuits.map (fun read => (read.1.head, read.2.map CodeBlock.head)) =
      second.circuits.map fun read => (read.1.head, read.2.map CodeBlock.head) := by
  rw [circuits, circuits, ← alike.matchesOf]
  exact map_filterMap_congr fun _ member => circuit?_head alike member

theorem circuits_params (alike : Alike first second) (bodies : SameBodies first second) :
    first.circuits.map (fun read => (read.1.params, read.2.map CodeBlock.params)) =
      second.circuits.map fun read => (read.1.params, read.2.map CodeBlock.params) := by
  rw [circuits, circuits, ← alike.matchesOf]
  exact map_filterMap_congr fun _ member => circuit?_params alike bodies member

theorem witnesses_heads (alike : Alike first second) :
    first.witnesses.map Witness.head = second.witnesses.map Witness.head := by
  rw [witnesses, witnesses, ← alike.matchesOf]
  exact map_filterMap_congr fun _ member => witness?_head alike member

theorem witnesses_params (alike : Alike first second) (bodies : SameBodies first second) :
    first.witnesses.map Witness.params = second.witnesses.map Witness.params := by
  rw [witnesses, witnesses, ← alike.matchesOf]
  exact map_filterMap_congr fun _ member => witness?_params alike bodies member

theorem ledgerItems_heads (alike : Alike first second) :
    first.ledgerItems.map LedgerItem.head = second.ledgerItems.map LedgerItem.head := by
  simp only [ledgerItems, ← alike.matchesOf, List.map_map, Function.comp_def, LedgerItem.head,
    alike.lineOf]

theorem types_heads (alike : Alike first second) :
    first.types.map TypeAlias.head = second.types.map TypeAlias.head := by
  simp only [types, ← alike.matchesOf, List.map_map, Function.comp_def, TypeAlias.head,
    alike.lineOf]

theorem structs_heads (alike : Alike first second) :
    first.structs.map Struct.head = second.structs.map Struct.head := by
  rw [structs, structs, ← alike.matchesOf]
  apply map_filterMap_congr
  intro found member
  simp only [blockOf?, Option.map_map, Function.comp_def, Struct.head, alike.lineOf]
  exact alike.kept (opensAt_last member rfl rfl) _

theorem structs_fields (alike : Alike first second) (bodies : SameBodies first second) :
    first.structs.map Struct.fields = second.structs.map Struct.fields := by
  rw [structs, structs, ← alike.matchesOf]
  apply map_filterMap_congr
  intro found member
  rw [Option.map_map, Option.map_map]
  exact bodies.members (opensAt_last member rfl rfl)

theorem enums_heads (alike : Alike first second) :
    first.enums.map Enumeration.head = second.enums.map Enumeration.head := by
  rw [enums, enums, ← alike.matchesOf]
  apply map_filterMap_congr
  intro found member
  simp only [blockOf?, Option.map_map, Function.comp_def, Enumeration.head, alike.lineOf]
  exact alike.kept (opensAt_last member rfl rfl) _

theorem enums_variants (alike : Alike first second) (bodies : SameBodies first second) :
    first.enums.map Enumeration.variants = second.enums.map Enumeration.variants := by
  rw [enums, enums, ← alike.matchesOf]
  apply map_filterMap_congr
  intro found member
  rw [Option.map_map, Option.map_map]
  exact bodies.members (opensAt_last member rfl rfl)

theorem constructors_heads (alike : Alike first second) :
    first.constructors.map CodeBlock.head = second.constructors.map CodeBlock.head := by
  rw [constructors, constructors, ← alike.matchesOf]
  apply map_filterMap_congr
  intro found member
  simp only [constructor?, blockOf?, alike.lineOf, alike.bodyAfter?]
  rcases alike.cases_block (opensAt_last member rfl rfl) with
    ⟨left, right⟩ | ⟨block, other, left, right, closing⟩
  · simp [left, right]
  · simp [left, right, closing, CodeBlock.head, Function.comp_def]

theorem constructors_params (alike : Alike first second) (bodies : SameBodies first second) :
    first.constructors.map CodeBlock.params = second.constructors.map CodeBlock.params := by
  rw [constructors, constructors, ← alike.matchesOf]
  apply map_filterMap_congr
  intro found member
  have opens := opensAt_last member rfl rfl
  have params := bodies.params opens
  simp only [constructor?, blockOf?, alike.bodyAfter?]
  rcases alike.cases_block opens with ⟨left, right⟩ | ⟨block, other, left, right, closing⟩
  · simp [left, right]
  · have same : paramsOf block = paramsOf other := by simpa [left, right] using params
    simp [left, right, closing, same, Function.comp_def]

end Lists

end Scanned

theorem Scan.stats_congr {first second : Scan} (lines : first.lines = second.lines)
    (heads : first.declared.heads = second.declared.heads) : first.stats = second.stats := by
  have lengths : ∀ {α β : Type} {view : α → β} {items others : List α},
      items.map view = others.map view → items.length = others.length := by
    intro α β view items others same
    simpa using congrArg List.length same
  have exports : first.declared.exports = second.declared.exports := by
    rw [← Structure.exports_heads, heads, Structure.exports_heads]
  injection heads with circuits witnesses ledgerItems types structs enums
  simp only [Scan.stats, lines, exports, lengths circuits, lengths witnesses, lengths ledgerItems,
    lengths types, lengths structs, lengths enums]

/-- Two scans report the same declarations and blocks, up to types, parameters and members. -/
structure Scan.SameOutline (first second : Scan) : Prop where
  heads : first.declared.heads = second.declared.heads
  exports : first.declared.exports = second.declared.exports
  stats : first.stats = second.stats
  summary : first.declared.summary = second.declared.summary
  circuitBlocks : first.circuitBlocks.map CodeBlock.head = second.circuitBlocks.map CodeBlock.head
  constructors : first.constructors.map CodeBlock.head = second.constructors.map CodeBlock.head

/-- Two scans report the same parameters, members, imports and version. -/
structure Scan.SameMembers (first second : Scan) : Prop where
  circuits : first.declared.circuits.map Circuit.params = second.declared.circuits.map Circuit.params
  witnesses :
    first.declared.witnesses.map Witness.params = second.declared.witnesses.map Witness.params
  structs : first.declared.structs.map Struct.fields = second.declared.structs.map Struct.fields
  enums :
    first.declared.enums.map Enumeration.variants = second.declared.enums.map Enumeration.variants
  circuitBlocks :
    first.circuitBlocks.map CodeBlock.params = second.circuitBlocks.map CodeBlock.params
  constructors : first.constructors.map CodeBlock.params = second.constructors.map CodeBlock.params
  imports : first.imports = second.imports
  languageVersion : first.languageVersion = second.languageVersion

section Scans

variable {first second : List Char}

/-- What a scan reports of the declarations themselves is decided by the masked source. -/
theorem scan_sameOutline (masked : maskAll first = maskAll second) :
    (scan first).SameOutline (scan second) := by
  have alike := Scanned.alike_of_maskAll masked
  have circuits := Scanned.circuits_heads alike
  have heads : (scan first).declared.heads = (scan second).declared.heads := by
    have here := congrArg (List.map Prod.fst) circuits
    rw [List.map_map, List.map_map] at here
    simp only [Structure.heads, scan, List.map_map, Scanned.witnesses_heads alike,
      Scanned.ledgerItems_heads alike, Scanned.types_heads alike, Scanned.structs_heads alike,
      Scanned.enums_heads alike]
    rw [Structure.mk.injEq]
    exact ⟨here, rfl, rfl, rfl, rfl, rfl⟩
  have blocks := congrArg (List.filterMap Prod.snd) circuits
  rw [List.filterMap_map, List.filterMap_map] at blocks
  constructor
  · exact heads
  · rw [← Structure.exports_heads, heads, Structure.exports_heads]
  · exact Scan.stats_congr alike.lines heads
  · rw [← Structure.summary_heads, heads, Structure.summary_heads]
  · simp only [scan, List.map_filterMap]
    exact blocks
  · exact Scanned.constructors_heads alike

/-- What a scan reads between brackets, and above the declarations, is decided once the sources agree
without comments. -/
theorem scan_sameMembers (masked : maskAll first = maskAll second)
    (uncommented : stripComments first = stripComments second) :
    (scan first).SameMembers (scan second) := by
  have alike := Scanned.alike_of_maskAll masked
  have bodies := Scanned.sameBodies_of_stripComments masked uncommented
  have params := Scanned.circuits_params alike bodies
  have own := congrArg (List.map Prod.fst) params
  rw [List.map_map, List.map_map] at own
  have blocks := congrArg (List.filterMap Prod.snd) params
  rw [List.filterMap_map, List.filterMap_map] at blocks
  constructor
  · simp only [scan, List.map_map]
    exact own
  · exact Scanned.witnesses_params alike bodies
  · exact Scanned.structs_fields alike bodies
  · exact Scanned.enums_variants alike bodies
  · simp only [scan, List.map_filterMap]
    exact blocks
  · exact Scanned.constructors_params alike bodies
  · exact congrArg importsIn uncommented
  · exact congrArg versionIn? uncommented

/-- What a scan reports depends on the masked source only, and on the source without comments where
it reports parameters, members, imports and the version. -/
theorem scan_congr (masked : maskAll first = maskAll second) :
    (scan first).SameOutline (scan second) ∧
      (stripComments first = stripComments second → (scan first).SameMembers (scan second)) := by
  refine ⟨scan_sameOutline masked, fun uncommented => ?_⟩
  exact scan_sameMembers masked uncommented

/-- Two contracts that differ within a comment. -/
theorem scan_congr_comment :
    let first := "circuit f(x, // (\ny): [] \x7b\x7d".toList
    let second := "circuit f(x, // \"\ny): [] \x7b\x7d".toList
    maskAll first = maskAll second ∧ stripComments first = stripComments second ∧
      (scan first).SameOutline (scan second) ∧ (scan first).SameMembers (scan second) := by
  intro first second
  have masked : maskAll first = maskAll second := by decide +kernel
  have uncommented : stripComments first = stripComments second := by decide +kernel
  exact ⟨masked, uncommented, (scan_congr masked).1, (scan_congr masked).2 uncommented⟩

end Scans

end ContractInspector.Contract
