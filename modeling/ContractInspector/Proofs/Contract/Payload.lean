import ContractInspector.Proofs.Contract.Masked
import ContractInspector.Proofs.Source.Comments

/-! Payloads that comments show up in. Types and definitions are cut from the source itself, comments
and all: `samePayloads_iff` says that a source and its copy without comments report the same ones
exactly if no visible character of a comment lies in any of them. -/
namespace ContractInspector.Contract

open Source (maskAll stripComments CommentFree StartsInCode)
open Text (Match Pattern slice strip)

/-- Two scans report the same types and definitions. -/
structure Scan.SamePayloads (first second : Scan) : Prop where
  returnTypes : first.declared.circuits.map Circuit.returnType =
    second.declared.circuits.map Circuit.returnType
  witnesses : first.declared.witnesses.map Witness.type = second.declared.witnesses.map Witness.type
  ledgerItems :
    first.declared.ledgerItems.map LedgerItem.type = second.declared.ledgerItems.map LedgerItem.type
  types :
    first.declared.types.map TypeAlias.definition = second.declared.types.map TypeAlias.definition

namespace Scanned

/-- The match of the type behind the parameters of a circuit. -/
def returnTypeOf? (scanned : Scanned) (found : Match) : Option Match := do
  let parens ← scanned.blockOf? found
  Forms.returnType.matchAt? (scanned.masked.cursorAt (parens.closing + 1))

/-- The match of the type behind the name or the parameters of a witness. -/
def witnessTypeOf? (scanned : Scanned) (found : Match) : Option Match :=
  (if found.stop.rest.head? = some '(' then
    (scanned.blockAt? found.stop.offset).map (·.closing + 1)
  else some found.stop.offset).bind fun after =>
    Forms.witnessType.matchAt? (scanned.masked.cursorAt after)

/-- The matches whose payloads a scan reports. -/
def payloads (scanned : Scanned) : List Match :=
  (scanned.matchesOf Forms.circuit).filterMap scanned.returnTypeOf? ++
    (scanned.matchesOf Forms.witness).filterMap scanned.witnessTypeOf? ++
    scanned.matchesOf Forms.ledgerItem ++ scanned.matchesOf Forms.typeAlias

/-- A payload is not empty, and starts in code unless it is a single blank of the masked source. -/
def HasPayload (scanned : Scanned) (found : Match) : Prop :=
  ∃ part, found.capture? Forms.payload = some part ∧ part.start < part.stop ∧
    StartsInCode scanned.masked.text part.start part.stop

theorem hasPayload_of_fits {scanned : Scanned} {form front : Pattern} {holds : Char → Bool}
    {found : Match} (fits : form.Fits scanned.masked.text found)
    (ends : form = front ++ .space ++ .capture Forms.payload (.oneOrMore holds)) :
    scanned.HasPayload found := by
  subst ends
  exact fits.last_part

theorem hasPayload_of_matchAt? {scanned : Scanned} {form front : Pattern} {holds : Char → Bool}
    {found : Match} {offset : Nat}
    (matched : form.matchAt? (scanned.masked.cursorAt offset) = some found)
    (ends : form = front ++ .space ++ .capture Forms.payload (.oneOrMore holds)) :
    scanned.HasPayload found := by
  rw [Text.cursorAt_eq_placeAt] at matched
  exact hasPayload_of_fits (Pattern.fits_of_matchAt? matched).2 ends

theorem hasPayload_returnType {scanned : Scanned} {found type : Match}
    (typed : scanned.returnTypeOf? found = some type) : scanned.HasPayload type := by
  obtain ⟨parens, -, matched⟩ := Option.bind_eq_some_iff.mp typed
  exact hasPayload_of_matchAt? matched rfl

theorem hasPayload_witnessType {scanned : Scanned} {found type : Match}
    (typed : scanned.witnessTypeOf? found = some type) : scanned.HasPayload type := by
  obtain ⟨after, -, matched⟩ := Option.bind_eq_some_iff.mp typed
  exact hasPayload_of_matchAt? matched rfl

/-- A return type as it is reported, which is `[]` if there is none. -/
def returnText (scanned : Scanned) (found : Match) : String :=
  let type := ((scanned.returnTypeOf? found).map (scanned.captured · Forms.payload)).getD ""
  if type.isEmpty then "[]" else type

theorem circuit?_returnType (scanned : Scanned) (found : Match) :
    (scanned.circuit? found).map (·.1.returnType) =
      (scanned.blockOf? found).map fun _ => scanned.returnText found := by
  rw [returnText, returnTypeOf?, circuit?]
  cases scanned.blockOf? found <;> rfl

theorem witness?_type (scanned : Scanned) (found : Match) :
    (scanned.witness? found).map Witness.type =
      (scanned.witnessTypeOf? found).map (scanned.captured · Forms.payload) := by
  rw [witness?, witnessTypeOf?]
  by_cases next : found.stop.rest.head? = some '('
  · cases parens : scanned.blockAt? found.stop.offset <;>
      simp [next, Option.map_eq_bind, Option.bind_assoc, Function.comp_def]
  · simp [next, Option.map_eq_bind, Option.bind_assoc, Function.comp_def]

variable {first second : Scanned} {found : Match}

theorem Alike.returnTypeOf? (alike : Alike first second)
    (member : found ∈ first.matchesOf Forms.circuit) :
    first.returnTypeOf? found = second.returnTypeOf? found := by
  simp only [Scanned.returnTypeOf?, blockOf?, alike.masked]
  rcases alike.cases_block (opensAt_last member rfl rfl) with
    ⟨left, right⟩ | ⟨block, other, left, right, closing⟩
  · simp [left, right]
  · simp [left, right, closing]

theorem Alike.witnessTypeOf? (alike : Alike first second)
    (member : found ∈ first.matchesOf Forms.witness) :
    first.witnessTypeOf? found = second.witnessTypeOf? found := by
  simp only [Scanned.witnessTypeOf?, alike.masked]
  by_cases next : found.stop.rest.head? = some '('
  · have closing := alike.closing (opensAt_stop member next rfl)
    have after := congrArg (Option.map (· + 1)) closing
    simp only [Option.map_map] at after
    simp only [if_pos next]
    exact congrArg (fun after : Option Nat => after.bind fun offset =>
      Forms.witnessType.matchAt? (second.masked.cursorAt offset)) after
  · simp only [if_neg next]

theorem captured_ofSource {source : List Char} {part : Text.Capture} {slot : Nat}
    (captures : found.capture? slot = some part) : (ofSource source).captured found slot =
      String.ofList (strip (slice source part.start part.stop)) := by
  simp only [captured, captures, Text.Indexed.slice, Text.Indexed.drop_eq, slice]
  rfl

end Scanned

/-- No visible character of a comment lies in the payload of a match. -/
def PayloadFree (source : List Char) (found : Match) : Prop :=
  ∀ part, found.capture? Forms.payload = some part → CommentFree source part.start part.stop

theorem map_filterMap_eq_iff {α β γ : Type} {read other : α → Option β} {view : β → γ}
    {items : List α} (aligned : ∀ item ∈ items, (read item).isSome = (other item).isSome) :
    (items.filterMap read).map view = (items.filterMap other).map view ↔
      ∀ item ∈ items, (read item).map view = (other item).map view := by
  induction items with
  | nil => simp
  | cons item items ih =>
    have behind := ih fun later member => aligned later (List.mem_cons_of_mem item member)
    have here := aligned item List.mem_cons_self
    cases left : read item <;> cases right : other item <;>
      simp_all

section Commented

variable {source : List Char} {found : Match}

theorem captured_iff (has : (Scanned.ofSource source).HasPayload found) :
    (Scanned.ofSource source).captured found Forms.payload =
        (Scanned.ofSource (stripComments source)).captured found Forms.payload ↔
      PayloadFree source found := by
  obtain ⟨part, captures, nonempty, inCode⟩ := has
  rw [Scanned.captured_ofSource captures, Scanned.captured_ofSource captures, String.ofList_inj,
    Source.strip_slice_iff nonempty inCode]
  constructor
  · intro free other same
    cases captures.symm.trans same
    exact free
  · intro free
    exact free part captures

/-- A payload of several characters without a slash has no comment in it. -/
theorem payloadFree_of_slash (has : (Scanned.ofSource source).HasPayload found) (shown : List Char)
    (same : (Scanned.ofSource source).captured found Forms.payload = String.ofList shown)
    (long : 1 < shown.length) (noSlash : '/' ∉ shown) : PayloadFree source found := by
  obtain ⟨part, captures, -, inCode⟩ := has
  rw [Scanned.captured_ofSource captures, String.ofList_inj] at same
  subst same
  intro other otherwise
  cases captures.symm.trans otherwise
  exact Source.commentFree_of_slash inCode long noSlash

theorem hasPayload_ledgerItem
    (member : found ∈ (Scanned.ofSource source).matchesOf Forms.ledgerItem) :
    (Scanned.ofSource source).HasPayload found :=
  Scanned.hasPayload_of_fits (Pattern.fits_of_mem_matchesIn member) rfl

theorem hasPayload_typeAlias
    (member : found ∈ (Scanned.ofSource source).matchesOf Forms.typeAlias) :
    (Scanned.ofSource source).HasPayload found :=
  Scanned.hasPayload_of_fits (Pattern.fits_of_mem_matchesIn member) rfl

/-- A missing return type is told from one that comments empty. -/
theorem returnText_iff (member : found ∈ (Scanned.ofSource source).matchesOf Forms.circuit) :
    (Scanned.ofSource source).returnText found =
        (Scanned.ofSource (stripComments source)).returnText found ↔
      ∀ type, (Scanned.ofSource source).returnTypeOf? found = some type →
        PayloadFree source type := by
  have alike := Scanned.alike_of_maskAll (Source.maskAll_stripComments source).symm
  rw [Scanned.returnText, Scanned.returnText, ← alike.returnTypeOf? member]
  cases typed : (Scanned.ofSource source).returnTypeOf? found with
  | none => simp
  | some type =>
    have has := Scanned.hasPayload_returnType typed
    simp only [Option.map_some, Option.getD_some, Option.some.injEq, forall_eq', ← captured_iff has]
    refine ⟨?_, fun same => by rw [same]⟩
    intro same
    obtain ⟨part, captures, nonempty, inCode⟩ := has
    rw [Scanned.captured_ofSource captures, Scanned.captured_ofSource captures] at same ⊢
    have short := Source.length_slice_le inCode nonempty
    have empties := @Source.strip_slice_eq_nil source part.start part.stop
    have shorter := Source.length_strip_le (slice source part.start part.stop)
    generalize strip (slice source part.start part.stop) = raw at same empties shorter ⊢
    generalize strip (slice (stripComments source) part.start part.stop) = bare at same short empties ⊢
    cases raw with
    | nil => rw [empties rfl]
    | cons c raw =>
      cases bare with
      | nil =>
        have brackets : c :: raw = ['[', ']'] := by simpa [← String.toList_inj] using same
        have := short rfl
        rw [brackets, List.length_cons, List.length_cons] at shorter
        omega
      | cons d bare => simpa [← String.toList_inj] using same

theorem returnTypes_iff (source : List Char) :
    (scan source).declared.circuits.map Circuit.returnType =
        (scan (stripComments source)).declared.circuits.map Circuit.returnType ↔
      ∀ found ∈ ((Scanned.ofSource source).matchesOf Forms.circuit).filterMap
        (Scanned.ofSource source).returnTypeOf?, PayloadFree source found := by
  have alike := Scanned.alike_of_maskAll (Source.maskAll_stripComments source).symm
  simp only [scan, Scanned.circuits, ← alike.matchesOf, List.map_map]
  have kept : ∀ found ∈ (Scanned.ofSource source).matchesOf Forms.circuit,
      ((Scanned.ofSource source).circuit? found).isSome =
        ((Scanned.ofSource (stripComments source)).circuit? found).isSome := by
    intro found member
    have heads := congrArg Option.isSome (Scanned.circuit?_head alike member)
    rwa [Option.isSome_map, Option.isSome_map] at heads
  rw [map_filterMap_eq_iff kept]
  have texts : ∀ scanned : Scanned, ∀ found, (scanned.circuit? found).map
      (Circuit.returnType ∘ Prod.fst) = (scanned.blockOf? found).map fun _ =>
        scanned.returnText found :=
    Scanned.circuit?_returnType
  simp only [List.mem_filterMap, texts]
  constructor
  · rintro same type ⟨found, member, typed⟩
    obtain ⟨parens, opened, -⟩ := Option.bind_eq_some_iff.mp typed
    have here := same found member
    rw [opened, Option.map_some, eq_comm, Option.map_eq_some_iff] at here
    obtain ⟨-, -, text⟩ := here
    exact (returnText_iff member).mp text.symm type typed
  · intro free found member
    rw [(returnText_iff member).mpr fun type typed => free type ⟨found, member, typed⟩]
    exact alike.kept (Scanned.opensAt_last member rfl rfl) _

theorem ledgerItems_iff (source : List Char) :
    (scan source).declared.ledgerItems.map LedgerItem.type =
        (scan (stripComments source)).declared.ledgerItems.map LedgerItem.type ↔
      ∀ found ∈ (Scanned.ofSource source).matchesOf Forms.ledgerItem, PayloadFree source found := by
  have alike := Scanned.alike_of_maskAll (Source.maskAll_stripComments source)
  simp only [scan, Scanned.ledgerItems, alike.matchesOf, List.map_map, List.map_inj_left]
  exact forall₂_congr fun found member => captured_iff (hasPayload_ledgerItem member)

theorem types_iff (source : List Char) :
    (scan source).declared.types.map TypeAlias.definition =
        (scan (stripComments source)).declared.types.map TypeAlias.definition ↔
      ∀ found ∈ (Scanned.ofSource source).matchesOf Forms.typeAlias, PayloadFree source found := by
  have alike := Scanned.alike_of_maskAll (Source.maskAll_stripComments source)
  simp only [scan, Scanned.types, alike.matchesOf, List.map_map, List.map_inj_left]
  exact forall₂_congr fun found member => captured_iff (hasPayload_typeAlias member)

theorem witnessTypes_iff (source : List Char) :
    (scan source).declared.witnesses.map Witness.type =
        (scan (stripComments source)).declared.witnesses.map Witness.type ↔
      ∀ found ∈ ((Scanned.ofSource source).matchesOf Forms.witness).filterMap
        (Scanned.ofSource source).witnessTypeOf?, PayloadFree source found := by
  have alike := Scanned.alike_of_maskAll (Source.maskAll_stripComments source).symm
  simp only [scan, Scanned.witnesses, ← alike.matchesOf]
  have kept : ∀ found ∈ (Scanned.ofSource source).matchesOf Forms.witness,
      ((Scanned.ofSource source).witness? found).isSome =
        ((Scanned.ofSource (stripComments source)).witness? found).isSome := by
    intro found member
    have heads := congrArg Option.isSome (Scanned.witness?_head alike member)
    rwa [Option.isSome_map, Option.isSome_map] at heads
  rw [map_filterMap_eq_iff kept]
  simp only [List.mem_filterMap]
  constructor
  · rintro same type ⟨found, member, typed⟩
    have types := same found member
    rw [Scanned.witness?_type, Scanned.witness?_type, ← alike.witnessTypeOf? member, typed] at types
    exact (captured_iff (Scanned.hasPayload_witnessType typed)).mp (Option.some.inj types)
  · intro free found member
    rw [Scanned.witness?_type, Scanned.witness?_type, ← alike.witnessTypeOf? member]
    apply Option.map_congr
    intro type typed
    exact (captured_iff (Scanned.hasPayload_witnessType typed)).mpr (free type ⟨found, member, typed⟩)

/-- A source and its copy without comments report the same payloads exactly if no comment shows up
in one. -/
theorem samePayloads_iff (source : List Char) :
    (scan source).SamePayloads (scan (stripComments source)) ↔
      ∀ found ∈ (Scanned.ofSource source).payloads, PayloadFree source found := by
  simp only [Scanned.payloads, List.mem_append, or_imp, forall_and, ← returnTypes_iff,
    ← witnessTypes_iff, ← ledgerItems_iff, ← types_iff]
  constructor
  · rintro ⟨returnTypes, witnesses, ledgerItems, types⟩
    exact ⟨⟨⟨returnTypes, witnesses⟩, ledgerItems⟩, types⟩
  · rintro ⟨⟨⟨returnTypes, witnesses⟩, ledgerItems⟩, types⟩
    exact ⟨returnTypes, witnesses, ledgerItems, types⟩

end Commented

end ContractInspector.Contract
