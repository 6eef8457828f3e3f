import ContractInspector.Proofs.Contract.Masked
import ContractInspector.Proofs.Source.Nesting
import ContractInspector.Proofs.Text.Parting

/-! The bodies of circuits and constructors. Each is found on its own, behind the parameters of its
declaration, but all of them are balanced blocks of one text, so no body straddles another. -/
namespace ContractInspector.Contract

open Source (Balanced Block Paired maskAll)
open Text (Match Pattern placeAt slice)

/-- How the blocks of a kind are declared. -/
def BlockKind.form : BlockKind → Pattern
  | circuit => Forms.circuit
  | constructor => Forms.constructor

/-- The blocks of a scan. -/
def Scan.blocks (scan : Scan) : List CodeBlock :=
  scan.circuitBlocks ++ scan.constructors

/-- The block of a declaration, if it has a body. -/
def Scanned.bodyOf? (scanned : Scanned) : BlockKind → Match → Option CodeBlock
  | .circuit, found => (scanned.circuit? found).bind (·.2)
  | .constructor, found => scanned.constructor? found

/-- Between two offsets of a text, no brace opens and no semicolon stands. -/
def Clear (text : List Char) (low high : Nat) : Prop :=
  ∀ n, low ≤ n → n < high → text[n]? ≠ some ';' ∧ text[n]? ≠ some '{'

/-- A block is balanced and stands between its braces, behind the parameters of a declaration of its kind,
and nothing else that could start a body or end the declaration stands between the two. -/
structure CodeBlock.WellFormed (source : List Char) (block : CodeBlock) : Prop where
  positive : 1 ≤ block.bodyStart
  ordered : block.bodyStart ≤ block.bodyEnd
  inside : block.bodyEnd < source.length
  opens : (maskAll source)[block.bodyStart - 1]? = some '{'
  closes : (maskAll source)[block.bodyEnd]? = some '}'
  balanced : Balanced '{' '}' (slice (maskAll source) block.bodyStart block.bodyEnd)
  declared : ∃ found ∈ (Scanned.ofSource source).matchesOf block.kind.form, ∃ parens,
    (Scanned.ofSource source).bodyOf? block.kind found = some block ∧
      (Scanned.ofSource source).blockOf? found = some parens ∧ parens.closing + 1 < block.bodyStart ∧
      Clear (maskAll source) (parens.closing + 1) (block.bodyStart - 1)

/-- One body is the other, or is apart from it, or is inside of it. -/
def CodeBlock.Laminar (first second : CodeBlock) : Prop :=
  (first.bodyStart = second.bodyStart ∧ first.bodyEnd = second.bodyEnd) ∨
    (first.bodyEnd < second.bodyStart ∨ second.bodyEnd < first.bodyStart) ∨
    (first.bodyStart < second.bodyStart ∧ second.bodyEnd < first.bodyEnd) ∨
    (second.bodyStart < first.bodyStart ∧ first.bodyEnd < second.bodyEnd)

section Clear

variable {text front part rest : List Char} {low middle high : Nat}

theorem Clear.trans (first : Clear text low middle) (second : Clear text middle high) :
    Clear text low high := by
  intro n above below
  rcases Nat.lt_or_ge n middle with before | behind
  · exact first n above before
  · exact second n behind below

theorem clear_append (free : ∀ c ∈ part, c ≠ ';' ∧ c ≠ '{') :
    Clear (front ++ (part ++ rest)) front.length (front.length + part.length) := by
  intro n above below
  have inside : n - front.length < part.length := by omega
  rw [List.getElem?_append_right above, List.getElem?_append_left inside, List.getElem?_eq_getElem inside]
  simpa using free _ (List.getElem_mem inside)

end Clear

namespace Scanned

variable {source : List Char} {offset : Nat} {found : Match} {block : CodeBlock}

/-- A body starts at the first brace behind an offset, in front of any semicolon. -/
theorem body_of_bodyAfter? {bodyStart bodyEnd : Nat}
    (found : (ofSource source).bodyAfter? offset = some (bodyStart, bodyEnd)) :
    ∃ brace, bodyStart = brace + 1 ∧ offset ≤ brace ∧ Clear (maskAll source) offset brace ∧
      Paired '{' '}' (maskAll source) brace bodyEnd := by
  have masked : (ofSource source).masked.text = maskAll source := rfl
  obtain ⟨part, rest, cut, spans⟩ :=
    Text.exists_spans (fun c => c ≠ '{' && c ≠ ';') ((maskAll source).drop offset)
  have held : ∀ c ∈ part, c ≠ ';' ∧ c ≠ '{' := fun c member => by
    simpa [and_comm] using spans.inside c member
  rw [bodyAfter?, Option.map_eq_some_iff] at found
  simp only [Text.Indexed.drop_eq, masked, cut, spans.takeWhile] at found
  obtain ⟨block, found, ends⟩ := found
  obtain ⟨rfl, rfl⟩ := Prod.mk.inj ends
  have behind : (maskAll source).drop (offset + part.length) = rest := by
    rw [← List.drop_drop, cut, List.drop_left]
  cases rest with
  | nil =>
    rw [behind] at found
    contradiction
  | cons c rest =>
    have kept : (maskAll source)[offset + part.length]? = some c := by
      rw [← List.head?_drop, behind, List.head?_cons]
    have opens : c = '{' := by
      have either : c = '{' ∨ c = ';' := by simpa [or_iff_not_imp_left] using spans.ends c rfl
      refine either.resolve_right ?_
      rintro rfl
      rw [behind] at found
      contradiction
    subst opens
    have inside : offset ≤ (maskAll source).length := by
      have := (List.getElem?_eq_some_iff.mp kept).1
      omega
    obtain ⟨brace, pair⟩ := Source.paired_of_blockAt? (Source.maskAll_maskAll source) kept rfl found
    refine ⟨offset + part.length, by rw [brace], Nat.le_add_right _ _, ?_, pair⟩
    have clear := @clear_append ((maskAll source).take offset) _ ('{' :: rest) held
    rwa [← cut, List.take_append_drop, List.length_take, Nat.min_eq_left inside] at clear

/-- Where braces belong together and the way there is clear, there is a body. -/
theorem bodyAfter?_of_paired {brace bodyEnd : Nat} (le : offset ≤ brace)
    (clear : Clear (maskAll source) offset brace) (pair : Paired '{' '}' (maskAll source) brace bodyEnd) :
    (ofSource source).bodyAfter? offset = some (brace + 1, bodyEnd) := by
  have masked : (ofSource source).masked.text = maskAll source := rfl
  obtain ⟨inside, opener⟩ := List.getElem?_eq_some_iff.mp pair.opens
  have cut : (maskAll source).drop offset =
      slice (maskAll source) offset brace ++ '{' :: (maskAll source).drop (brace + 1) := by
    have rest := List.drop_eq_getElem_cons inside
    rw [opener] at rest
    rw [← rest, slice, ← Nat.add_sub_cancel' le, Nat.add_sub_cancel_left, ← List.drop_drop, List.take_append_drop]
  have length : (slice (maskAll source) offset brace).length = brace - offset := by
    rw [slice, List.length_take, List.length_drop]
    omega
  have spans : Text.Spans (fun c => c ≠ '{' && c ≠ ';') (slice (maskAll source) offset brace)
      ('{' :: (maskAll source).drop (brace + 1)) := by
    refine Text.spans_cons (fun c member => ?_) (by decide)
    obtain ⟨i, above, below, here⟩ := Text.mem_slice_iff.mp member
    have free := clear i above below
    rw [here] at free
    simpa using ⟨fun same => free.2 (same ▸ rfl), fun same => free.1 (same ▸ rfl)⟩
  have passed : ((maskAll source).drop offset).takeWhile (fun c => c ≠ '{' && c ≠ ';') =
      slice (maskAll source) offset brace := by
    rw [cut, spans.takeWhile]
  obtain ⟨block, found, closes, -⟩ :=
    Source.exists_blockAt?_of_paired (Source.maskAll_maskAll source) rfl pair
  have opening := (Source.paired_of_blockAt? (Source.maskAll_maskAll source) pair.opens rfl found).1
  rw [Source.blockAt?] at found
  rw [bodyAfter?]
  simp only [Text.Indexed.drop_eq, masked, passed, length, Nat.add_sub_cancel' le, found, Option.map_some,
    opening, closes]

/-- Nothing that could start a body stands in front of the end of a return type. -/
theorem clear_returnType {type : Match} (inside : offset ≤ (maskAll source).length)
    (matched : Forms.returnType.matchAt? ((ofSource source).masked.cursorAt offset) = some type) :
    offset ≤ type.stop.offset ∧ Clear (maskAll source) offset type.stop.offset := by
  obtain ⟨front, text, split, rfl, place⟩ := Text.exists_between inside
  have masked : (ofSource source).masked.text = maskAll source := rfl
  rw [Text.cursorAt_eq_placeAt, masked] at matched
  obtain ⟨start, fits⟩ := Pattern.fits_of_matchAt? matched
  have way := fits.mem_outcomes
  rw [start, place, Forms.returnType, Pattern.mem_outcomes_append] at way
  obtain ⟨middle, way, last⟩ := way
  obtain ⟨middle', way, blanks'⟩ := Pattern.mem_outcomes_append.mp way
  obtain ⟨middle'', blanks, colon⟩ := Pattern.mem_outcomes_append.mp way
  obtain ⟨before, text', rfl, blank, rfl⟩ := Pattern.mem_outcomes_many.mp blanks
  obtain ⟨text'', rfl, rfl⟩ := Pattern.mem_outcomes_text.mp colon
  obtain ⟨behind, text''', rfl, blank', rfl⟩ := Pattern.mem_outcomes_many.mp blanks'
  obtain ⟨payload, rest, rfl, -, held, same⟩ := Pattern.mem_outcomes_capture.mp last
  have stop : type.stop.offset = front.length + (before ++ (":".toList ++ (behind ++ payload))).length := by
    have stop := congrArg (·.1.offset) same
    simpa [Nat.add_assoc] using stop
  have free : ∀ c ∈ before ++ (":".toList ++ (behind ++ payload)), c ≠ ';' ∧ c ≠ '{' := by
    have blanks : ∀ c, Text.isBlank c = true → c ≠ ';' ∧ c ≠ '{' := by
      rintro c blank
      constructor <;> rintro rfl <;> contradiction
    simp only [List.forall_mem_append]
    refine ⟨fun c member => blanks c (blank c member), by decide, fun c member => blanks c (blank' c member), ?_⟩
    intro c member
    have outside : c ≠ '{' ∧ c ≠ '\n' ∧ c ≠ ';' := by simpa using held c member
    exact ⟨outside.2.2, outside.1⟩
  have clear := @clear_append front _ rest free
  rw [stop, split]
  refine ⟨Nat.le_add_right _ _, ?_⟩
  simpa using clear

/-- The parameters of a declaration end inside of the source. -/
theorem closing_lt {kind : BlockKind} {parens : Block} (member : found ∈ (ofSource source).matchesOf kind.form)
    (parameters : (ofSource source).blockOf? found = some parens) :
    parens.closing < (maskAll source).length := by
  have opensAt : (ofSource source).OpensAt (found.stop.offset - 1) := by
    cases kind <;> exact opensAt_last member rfl rfl
  obtain ⟨opener, closer, kept, opens⟩ := opensAt
  rw [blockOf?, blockAt?_ofSource] at parameters
  exact (List.getElem?_eq_some_iff.mp (Source.closer_of_blockAt? kept opens parameters)).1

/-- The body of a circuit is looked for behind its parameters or, if it has one, behind its return type,
and that of a constructor behind its parameters. -/
theorem bodyOf?_cases {scanned : Scanned} {kind : BlockKind}
    (body : scanned.bodyOf? kind found = some block) : block.kind = kind ∧
      ∃ parens offset, scanned.blockOf? found = some parens ∧
        scanned.bodyAfter? offset = some (block.bodyStart, block.bodyEnd) ∧
        (offset = parens.closing + 1 ∨ ∃ type, offset = type.stop.offset ∧
          Forms.returnType.matchAt? (scanned.masked.cursorAt (parens.closing + 1)) = some type) := by
  cases kind with
  | circuit =>
    obtain ⟨⟨circuit, body?⟩, read, rfl⟩ := Option.bind_eq_some_iff.mp body
    obtain ⟨parens, parameters, same⟩ := Option.map_eq_some_iff.mp read
    obtain ⟨⟨bodyStart, bodyEnd⟩, after, rfl⟩ := Option.map_eq_some_iff.mp (Prod.mk.inj same).2
    refine ⟨rfl, parens, _, parameters, after, ?_⟩
    cases Forms.returnType.matchAt? (scanned.masked.cursorAt (parens.closing + 1)) with
    | none => exact .inl rfl
    | some type => exact .inr ⟨type, rfl, rfl⟩
  | constructor =>
    obtain ⟨parens, parameters, read⟩ := Option.bind_eq_some_iff.mp body
    obtain ⟨⟨bodyStart, bodyEnd⟩, after, same⟩ := Option.bind_eq_some_iff.mp read
    obtain rfl := Option.some.inj same
    exact ⟨rfl, parens, _, parameters, after, .inl rfl⟩

theorem paired_of_bodyOf? {kind : BlockKind} (member : found ∈ (ofSource source).matchesOf kind.form)
    (body : (ofSource source).bodyOf? kind found = some block) :
    ∃ parens brace, (ofSource source).blockOf? found = some parens ∧ block.bodyStart = brace + 1 ∧
      parens.closing + 1 ≤ brace ∧ Clear (maskAll source) (parens.closing + 1) brace ∧
      Paired '{' '}' (maskAll source) brace block.bodyEnd := by
  obtain ⟨-, parens, offset, parameters, after, from_⟩ := bodyOf?_cases body
  obtain ⟨brace, start, le, clear, pair⟩ := body_of_bodyAfter? after
  refine ⟨parens, brace, parameters, start, ?_⟩
  rcases from_ with rfl | ⟨type, rfl, matched⟩
  · exact ⟨le, clear, pair⟩
  · obtain ⟨le', clear'⟩ := clear_returnType (closing_lt member parameters) matched
    exact ⟨Nat.le_trans le' le, clear'.trans clear, pair⟩

theorem wellFormed_of_bodyOf? {kind : BlockKind} (member : found ∈ (ofSource source).matchesOf kind.form)
    (body : (ofSource source).bodyOf? kind found = some block) : block.WellFormed source := by
  obtain ⟨rfl, -⟩ := bodyOf?_cases body
  obtain ⟨parens, brace, parameters, start, le, clear, pair⟩ := paired_of_bodyOf? member body
  have before := pair.before
  have inside := (List.getElem?_eq_some_iff.mp pair.closes).1
  have opening : block.bodyStart - 1 = brace := by omega
  exact {
    positive := by omega
    ordered := by omega
    inside := by rwa [maskAll, Source.length_mask] at inside
    opens := opening ▸ pair.opens
    closes := pair.closes
    balanced := start ▸ pair.balanced (by decide)
    declared := ⟨found, member, parens, body, parameters, by omega, opening ▸ clear⟩ }

theorem laminar_of_paired {first second : CodeBlock} {brace brace' : Nat} {text : List Char}
    (start : first.bodyStart = brace + 1) (start' : second.bodyStart = brace' + 1)
    (pair : Paired '{' '}' text brace first.bodyEnd) (pair' : Paired '{' '}' text brace' second.bodyEnd) :
    first.Laminar second := by
  have before := pair.before
  have before' := pair'.before
  unfold CodeBlock.Laminar
  rcases Nat.lt_trichotomy brace brace' with left | rfl | right
  · have := pair.apart_or_inside pair' left
    omega
  · have := pair.closing_unique pair'
    omega
  · have := pair'.apart_or_inside pair right
    omega

theorem exists_bodyOf? (member : block ∈ (scan source).blocks) :
    ∃ kind, ∃ found ∈ (ofSource source).matchesOf kind.form,
      (ofSource source).bodyOf? kind found = some block := by
  rcases List.mem_append.mp member with circuit | constructor
  · obtain ⟨read, among, body⟩ := List.mem_filterMap.mp circuit
    obtain ⟨found, matched, reads⟩ := List.mem_filterMap.mp among
    exact ⟨.circuit, found, matched, Option.bind_eq_some_iff.mpr ⟨read, reads, body⟩⟩
  · obtain ⟨found, matched, body⟩ := List.mem_filterMap.mp constructor
    exact ⟨.constructor, found, matched, body⟩

end Scanned

/-- Every block of a scan is balanced and follows the parameters of its declaration, and of two blocks
neither straddles the other. -/
theorem blocks_laminar (source : List Char) :
    (∀ block ∈ (scan source).blocks, block.WellFormed source) ∧
      ∀ first ∈ (scan source).blocks, ∀ second ∈ (scan source).blocks, first.Laminar second := by
  refine ⟨fun block member => ?_, fun first member second member' => ?_⟩
  · obtain ⟨kind, found, matched, body⟩ := Scanned.exists_bodyOf? member
    exact Scanned.wellFormed_of_bodyOf? matched body
  · obtain ⟨kind, found, matched, body⟩ := Scanned.exists_bodyOf? member
    obtain ⟨kind', found', matched', body'⟩ := Scanned.exists_bodyOf? member'
    obtain ⟨-, brace, -, start, -, -, pair⟩ := Scanned.paired_of_bodyOf? matched body
    obtain ⟨-, brace', -, start', -, -, pair'⟩ := Scanned.paired_of_bodyOf? matched' body'
    exact Scanned.laminar_of_paired start start' pair pair'

/-- A constructor inside of a circuit. -/
def nestedBlocks : List Char :=
  "circuit f()\x7bconstructor()\x7b\x7d\x7d".toList

theorem blocks_laminar_nested :
    let outer : CodeBlock := ⟨.circuit, "f", [], false, 1, 12, 27⟩
    let inner : CodeBlock := ⟨.constructor, "constructor", [], false, 1, 26, 26⟩
    (outer ∈ (scan nestedBlocks).blocks ∧ inner ∈ (scan nestedBlocks).blocks) ∧
      outer.WellFormed nestedBlocks ∧ outer.Laminar inner := by
  intro outer inner
  have circuit : outer ∈ (scan nestedBlocks).blocks := by decide +kernel
  have constructor : inner ∈ (scan nestedBlocks).blocks := by decide +kernel
  obtain ⟨wellFormed, laminar⟩ := blocks_laminar nestedBlocks
  exact ⟨⟨circuit, constructor⟩, wellFormed outer circuit, laminar outer circuit inner constructor⟩

end ContractInspector.Contract
