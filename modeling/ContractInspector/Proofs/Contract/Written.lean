import ContractInspector.Proofs.Contract.Behind
import ContractInspector.Proofs.Contract.Heading
import ContractInspector.Proofs.Source.Comments

/-! What is read off a declaration that starts a source. Its form takes it from its first keyword on, and
the types, parameters and members behind the name are read as they are written. -/
namespace ContractInspector.Contract

open Source (Block Plain maskAll separated stripComments)
open Text (Capture Cursor Match Pattern isBlank isWord placeAt strip)
open Text.Pattern (Takes captureOf takes_append)

variable {front part rest tail : List Char} {captures : List Capture}

/-! The texts of types and parameters as they are listed. -/

def TypeExpr.shown (type : TypeExpr) : String :=
  String.ofList type.text

def Param.shown (param : Param) : String :=
  String.ofList param.text

section Blocks

theorem stripComments_plain (plain : Plain part) : stripComments part = part := by
  have masked := Source.mask_plain plain false []
  rwa [List.append_nil, Source.mask_nil, List.append_nil] at masked

theorem paramsOf_separated {items : List (List Char)} (pieces : ∀ item ∈ items, Piece item)
    (opening closing : Nat) :
    Scanned.paramsOf ⟨opening, closing, separated items⟩ = items.map String.ofList := by
  have split : Source.splitTop ',' ([] ++ (separated items ++ [])) = items :=
    Source.splitTop_separated (fun item member => (pieces item member).item) (by simp) (by simp)
  rw [List.nil_append, List.append_nil] at split
  rw [Scanned.paramsOf, stripComments_plain (inert_separated pieces).plain, split]

theorem membersOf_separated {items : List (List Char)} (pieces : ∀ item ∈ items, Piece item)
    (opening closing : Nat) :
    Scanned.membersOf ⟨opening, closing, ' ' :: (separated items ++ [' '])⟩ = items.map String.ofList := by
  have isItem : ∀ item ∈ items, Source.Item item := fun item member => (pieces item member).item
  have plain : Plain (' ' :: (separated items ++ [' '])) :=
    (inert_mark (by decide) (inert_append (by decide) (inert_separated pieces) inert_nil)).plain
  have commas : Source.splitTop ',' ([' '] ++ (separated items ++ [' '])) = items :=
    Source.splitTop_separated isItem (by simp) (by simp)
  rw [List.singleton_append] at commas
  have single : items.flatMap (Source.splitTop ';') = items.flatMap fun item => [item] := by
    refine List.flatMap_congr fun item member => ?_
    have absent : ';' ∉ item := (pieces item member).tame.not_mem (by decide) (by decide)
    exact Source.splitTop_of_not_mem absent (isItem item member)
  rw [Scanned.membersOf, stripComments_plain plain, commas, single, List.flatMap_singleton']

variable {scanned : Scanned} {found : Match}

/-- A block of plain source text behind some other text. -/
theorem blockAt?_between {opener closer : Char} (opens : Source.closerOf? opener = some closer)
    (plain : Plain part) (noOpener : opener ∉ part) (noCloser : closer ∉ part)
    (split : scanned.source.text = front ++ opener :: (part ++ closer :: rest)) :
    scanned.blockAt? front.length = some ⟨front.length, front.length + 1 + part.length, part⟩ := by
  rw [Scanned.blockAt?, Text.Indexed.drop_eq, split, List.drop_left]
  exact Source.blockFrom?_plain opens plain noOpener noCloser front.length rest

theorem captured_captureOf {slot : Nat} {behind : List Char}
    (captured : found.capture? slot = some (captureOf slot front part behind))
    (split : scanned.source.text = front ++ (part ++ rest)) :
    scanned.captured found slot = String.ofList (strip part) := by
  have slice : scanned.source.slice front.length (front.length + part.length) = part := by
    rw [Text.Indexed.slice, Text.Indexed.drop_eq, split, List.drop_left, Nat.add_sub_cancel_left,
      List.take_left]
  rw [Scanned.captured, captured]
  exact congrArg (String.ofList <| strip ·) slice

theorem matchAt?_between {form : Pattern} (split : scanned.masked.text = front ++ (part ++ rest))
    (takes : form.Takes front part rest [] captures) :
    form.matchAt? (scanned.masked.cursorAt front.length) =
      some ⟨.between front (part ++ rest), .between (front ++ part) rest, captures⟩ := by
  rw [Text.cursorAt_eq_placeAt, split, Text.placeAt_length]
  exact Pattern.matchAt?_of_takes takes

end Blocks

section Forms

theorem takes_noTypeParams {excluded : List Char} {mark : Char} (other : mark ≠ '<') :
    (Forms.typeParams excluded).Takes front [] (mark :: rest) captures captures := by
  have absent : ¬"<".toList <+: mark :: rest := by simp [other.symm]
  refine Text.Pattern.takes_optional_nil ?_
  rw [Text.Pattern.outcomes_append, Text.Pattern.outcomes_append, Text.Pattern.outcomes_append,
    outcomes_word_nil absent]
  rfl

/-- A payload up to a character that it excludes. -/
theorem takes_payload {excluded : List Char} (nonempty : part ≠ []) (inside : ∀ c ∈ part, c ∉ excluded)
    (ends : ∀ c, rest.head? = some c → c ∈ excluded) :
    (Pattern.capture Forms.payload (Forms.upTo excluded)).Takes front part rest captures
      (captureOf Forms.payload front part rest :: captures) := by
  refine Text.Pattern.takes_capture (Text.Pattern.takes_oneOrMore nonempty ?_ ?_)
  · intro c member
    simpa using inside c member
  · intro c first
    simpa using ends c first

theorem Tame.semicolonFree (tame : Tame part) : ∀ c ∈ part, c ∉ [';'] := by
  intro c member listed
  obtain rfl := List.mem_singleton.mp listed
  exact tame.not_mem (by decide) (by decide) member

/-- A mark, blanks and a payload. -/
theorem takes_typed {mark : String} {excluded blanks : List Char} (blank : ∀ c ∈ blanks, isBlank c = true)
    (nonempty : part ≠ []) (visible : part.head?.any isBlank = false) (inside : ∀ c ∈ part, c ∉ excluded)
    (ends : ∀ c, rest.head? = some c → c ∈ excluded) :
    (Pattern.word mark ++ .space ++ .capture Forms.payload (Forms.upTo excluded)).Takes front
      (mark.toList ++ blanks ++ part) rest captures
      (captureOf Forms.payload (front ++ (mark.toList ++ blanks)) part rest :: captures) := by
  have spelled : (Pattern.word mark).Takes front mark.toList (blanks ++ (part ++ rest)) captures captures :=
    Text.Pattern.takes_text mark.toList
  have space : Pattern.space.Takes (front ++ mark.toList) blanks (part ++ rest) captures captures := by
    refine Text.Pattern.takes_many blank fun c first => ?_
    obtain ⟨d, others, rfl⟩ := List.exists_cons_of_ne_nil nonempty
    obtain rfl := Option.some.inj first
    exact visible
  exact takes_append (takes_append spelled space) (takes_payload nonempty inside ends)

end Forms

section Found

variable {form last : Pattern} {sought : List String} {text taken more : List Char} {payload : List Capture}
  {name : Ident} {found : Match}

/-- What starts a source with a name is found by a form, as the only match in it. -/
structure Matched (name : Ident) (text : List Char) (form : Pattern) (taken rest tail : List Char)
    (payload : List Capture) (found : Match) : Prop where
  adds : Scanned.Adds [found] text form (.ofSource tail) (.ofSource (text ++ tail))
  start : found.start = .between [] (taken ++ (rest ++ maskAll tail))
  stop : found.stop = .between taken (rest ++ maskAll tail)
  name : Scanned.nameOf found = name.name
  payload : payload <+: found.captures

theorem matched_of_takes (isSought : Sought form sought)
    (takes : form.Takes [] taken (rest ++ maskAll tail) [] (payload ++ captures))
    (masked : maskAll (text ++ tail) = text ++ maskAll tail) (split : text = taken ++ rest) (nonempty : taken ≠ [])
    (free : Free rest) (marked : Text.Pattern.Marked rest)
    (named : ∀ found : Match, found.captures = payload ++ captures → Scanned.nameOf found = name.name) :
    ∃ found, found.captures = payload ++ captures ∧ Matched name text form taken rest tail payload found := by
  have matched := isSought.matchesIn_own takes nonempty free marked
  rw [← split, ← masked] at matched
  refine ⟨⟨.between [] (taken ++ (rest ++ maskAll tail)), .between taken (rest ++ maskAll tail),
    payload ++ captures⟩, rfl, ?_⟩
  constructor
  case adds => exact matched
  case start => rfl
  case stop => rfl
  case name => exact named _ rfl
  case payload => exact List.prefix_append _ _

namespace Matched

theorem line (matched : Matched name text form taken rest tail payload found) :
    (Scanned.ofSource (text ++ tail)).lineOf found = 1 := by
  rw [Scanned.lineOf, matched.start]
  exact Source.LineIndex.lineOf_ofText (text ++ tail) 0

theorem captured {behind : List Char}
    (matched : Matched name text form taken rest tail [captureOf Forms.payload front part behind] found)
    (split : ∃ others, text = front ++ (part ++ others)) :
    (Scanned.ofSource (text ++ tail)).captured found Forms.payload = String.ofList (strip part) := by
  obtain ⟨others, rfl⟩ := split
  obtain ⟨captures, same⟩ := matched.payload
  have captured : found.capture? Forms.payload = some (captureOf Forms.payload front part behind) := by
    rw [Match.capture?, ← same]
    exact List.find?_cons_of_pos (by simp)
  refine @captured_captureOf front part (others ++ tail) _ _ _ behind captured ?_
  change front ++ (part ++ others) ++ tail = _
  rw [List.append_assoc, List.append_assoc]

/-- The last character of a match opens a block. -/
theorem blockOf? {opener : Char}
    (matched : Matched name text form (front ++ [opener]) rest tail payload found) :
    (Scanned.ofSource (text ++ tail)).blockOf? found = (Scanned.ofSource (text ++ tail)).blockAt? front.length := by
  have stop : found.stop.offset - 1 = front.length := by
    rw [matched.stop]
    simp
  rw [Scanned.blockOf?, stop]

end Matched

theorem block_written {opener closer : Char} {others : List Char} (opens : Source.closerOf? opener = some closer)
    (plain : Plain part) (noOpener : opener ∉ part) (noCloser : closer ∉ part)
    (split : text = front ++ opener :: (part ++ closer :: others)) (tail : List Char) :
    (Scanned.ofSource (text ++ tail)).blockAt? front.length =
      some ⟨front.length, front.length + 1 + part.length, part⟩ := by
  have source : (Scanned.ofSource (text ++ tail)).source.text =
      front ++ opener :: (part ++ closer :: (others ++ tail)) := by
    change text ++ tail = _
    rw [split]
    simp
  exact blockAt?_between opens plain noOpener noCloser source

/-- The type behind a colon, in a text that masking leaves as it is. -/
theorem type_written {excluded blanks inner back : List Char}
    (shape : form = .space ++ .word ":" ++ .space ++ .capture Forms.payload (Forms.upTo excluded))
    (masked : maskAll (text ++ tail) = text ++ maskAll tail)
    (split : text = front ++ (blanks ++ (":".toList ++ inner ++ part)) ++ back)
    (blank : ∀ c ∈ blanks, isBlank c = true) (between : ∀ c ∈ inner, isBlank c = true) (nonempty : part ≠ [])
    (visible : part.head?.any isBlank = false) (inside : ∀ c ∈ part, c ∉ excluded)
    (ends : back.head?.any (excluded.contains ·) = true) :
    ∃ type, form.matchAt? ((Scanned.ofSource (text ++ tail)).masked.cursorAt front.length) = some type ∧
      type.stop.offset = (front ++ (blanks ++ (":".toList ++ inner ++ part))).length ∧
      (Scanned.ofSource (text ++ tail)).captured type Forms.payload = String.ofList (strip part) := by
  have stops : ∀ c, (back ++ maskAll tail).head? = some c → c ∈ excluded := by
    intro c first
    cases back with
    | nil => contradiction
    | cons d back =>
      obtain rfl := Option.some.inj first
      simpa using ends
  have space : Pattern.space.Takes front blanks (":".toList ++ inner ++ part ++ (back ++ maskAll tail)) [] [] := by
    refine Text.Pattern.takes_many blank fun c first => ?_
    obtain rfl := Option.some.inj first
    decide
  have takes : form.Takes front (blanks ++ (":".toList ++ inner ++ part)) (back ++ maskAll tail) []
      [captureOf Forms.payload (front ++ blanks ++ (":".toList ++ inner)) part (back ++ maskAll tail)] := by
    have regrouped : form = .space ++ (.word ":" ++ .space ++ .capture Forms.payload (Forms.upTo excluded)) :=
      shape
    rw [regrouped]
    exact takes_append space (takes_typed between nonempty visible inside stops)
  have hidden : (Scanned.ofSource (text ++ tail)).masked.text =
      front ++ (blanks ++ (":".toList ++ inner ++ part) ++ (back ++ maskAll tail)) := by
    change maskAll (text ++ tail) = _
    rw [masked, split]
    simp
  have source : (Scanned.ofSource (text ++ tail)).source.text =
      (front ++ blanks ++ (":".toList ++ inner)) ++ (part ++ (back ++ tail)) := by
    change text ++ tail = _
    rw [split]
    simp
  exact ⟨_, matchAt?_between hidden takes, rfl, captured_captureOf rfl source⟩

/-- Parameters between parentheses and the type behind them, up to a character that ends the type. -/
structure Signed (excluded front params part back text : List Char) : Prop where
  cut : ∃ blanks inner,
    text = front ++ '(' :: (params ++ [')']) ++ (blanks ++ (":".toList ++ inner ++ part)) ++ back ∧
    (∀ c ∈ blanks, isBlank c = true) ∧ ∀ c ∈ inner, isBlank c = true
  plain : Plain params
  noOpener : '(' ∉ params
  noCloser : ')' ∉ params
  visible : ∃ c rest, part = c :: rest ∧ isBlank c = false
  inside : ∀ c ∈ part, c ∉ excluded
  ends : back.head?.any (excluded.contains ·) = true

namespace Signed

variable {excluded params back : List Char}

theorem read (signed : Signed excluded front params part back text)
    (shape : form = .space ++ .word ":" ++ .space ++ .capture Forms.payload (Forms.upTo excluded))
    (masked : maskAll (text ++ tail) = text ++ maskAll tail) :
    ∃ parens type taken, (Scanned.ofSource (text ++ tail)).blockAt? front.length = some parens ∧
      parens.body = params ∧
      form.matchAt? ((Scanned.ofSource (text ++ tail)).masked.cursorAt (parens.closing + 1)) = some type ∧
      (Scanned.ofSource (text ++ tail)).captured type Forms.payload = String.ofList (strip part) ∧
      text = taken ++ back ∧ type.stop.offset = taken.length := by
  obtain ⟨blanks, inner, split, blank, between⟩ := signed.cut
  obtain ⟨c, others, rfl, shown⟩ := signed.visible
  have opened : text = front ++ '(' :: (params ++ ')' :: (blanks ++ (":".toList ++ inner ++ c :: others) ++ back)) := by
    simp [split]
  have block := block_written rfl signed.plain signed.noOpener signed.noCloser opened tail
  obtain ⟨type, matched, stop, captured⟩ := type_written shape masked split blank between (by simp) shown
    signed.inside signed.ends
  have after : (front ++ '(' :: (params ++ [')'])).length = front.length + 1 + params.length + 1 := by
    simp only [List.length_append, List.length_cons, List.length_nil]
    omega
  rw [after] at matched
  exact ⟨_, type, _, block, rfl, matched, captured, split, stop⟩

end Signed

/-- A circuit with its parameters and its type, and the place from which its body is looked for. -/
theorem Matched.circuit? {params back : List Char}
    (matched : Matched name text Forms.circuit (front ++ ['(']) rest tail payload found)
    (masked : maskAll (text ++ tail) = text ++ maskAll tail)
    (signed : Signed ['{', '\n', ';'] front params part back text) :
    ∃ parens taken circuit body?, (Scanned.ofSource (text ++ tail)).circuit? found = some (circuit, body?) ∧
      parens.body = params ∧ text = taken ++ back ∧
      circuit = ⟨name.name, Scanned.paramsOf parens, String.ofList (strip part), Scanned.isExported found,
        Scanned.isModified found, 1⟩ ∧
      body? = ((Scanned.ofSource (text ++ tail)).bodyAfter? taken.length).map fun (bodyStart, bodyEnd) =>
        ⟨.circuit, circuit.name, circuit.params, circuit.isExported, circuit.line, bodyStart, bodyEnd⟩ := by
  obtain ⟨parens, type, taken, block, body, typed, captured, split, stop⟩ :=
    signed.read (show Forms.returnType = _ from rfl) masked
  obtain ⟨c, others, rfl, shown⟩ := signed.visible
  have written : (String.ofList (strip (c :: others))).isEmpty = false := by
    have kept : c ∈ strip (c :: others) := Source.mem_strip List.mem_cons_self shown
    simp [List.ne_nil_of_mem kept]
  refine ⟨parens, taken, _, _, ?_, body, split, rfl, rfl⟩
  rw [Scanned.circuit?, matched.blockOf?, block, Option.map_some]
  simp only [typed, Option.map_some, Option.getD_some, captured, stop, written, matched.name, matched.line]
  rfl

theorem Matched.witness? {params back : List Char}
    (matched : Matched name text Forms.witness front ('(' :: rest) tail payload found)
    (masked : maskAll (text ++ tail) = text ++ maskAll tail)
    (signed : Signed [';'] front params part back text) :
    ∃ parens, parens.body = params ∧ (Scanned.ofSource (text ++ tail)).witness? found =
      some ⟨name.name, String.ofList (strip part), Scanned.paramsOf parens, Scanned.isExported found, 1⟩ := by
  obtain ⟨parens, type, taken, block, body, typed, captured, -⟩ :=
    signed.read (show Forms.witnessType = _ from rfl) masked
  have next : found.stop.rest.head? = some '(' := by
    rw [matched.stop]
    rfl
  have stop : found.stop.offset = front.length := by
    rw [matched.stop]
    rfl
  rw [← stop] at block
  refine ⟨parens, body, ?_⟩
  rw [Scanned.witness?]
  simp only [if_pos next, Option.pure_def, Option.bind_eq_bind, Option.bind_some, block, typed, captured,
    matched.name, matched.line]

/-- A declaration that starts a source is found by a form, as the only match in it. -/
structure Declaration.Found (declaration : Declaration) (form : Pattern) (taken rest tail : List Char)
    (payload : List Capture) (found : Match) : Prop extends
    Matched declaration.name declaration.text form taken rest tail payload found where
  isExported : Scanned.isExported found = declaration.isExported
  isModified : Scanned.isModified found = declaration.content.isModified

theorem Declaration.maskAll_text (declaration : Declaration) (tail : List Char) :
    maskAll (declaration.text ++ tail) = declaration.text ++ maskAll tail :=
  (Line.declared declaration).mask_text true tail

variable {declaration : Declaration}

theorem Declaration.exists_found {blanks : List Char} (isSought : Sought form sought)
    (shape : form = .wordBoundary ++ declaration.content.opening ++ .word declaration.content.keyword ++
      .gap ++ Forms.named ++ .space ++ last)
    (cut : declaration.content.body = blanks ++ (more ++ rest))
    (blank : ∀ c ∈ blanks, isBlank c = true)
    (visible : ∀ c, (more ++ rest).head? = some c → isBlank c = false)
    (closing : Closing rest) (slots : ∀ part ∈ payload, part.slot = Forms.payload)
    (takes : ∀ captures, last.Takes (declaration.lead ++ (declaration.name.letters ++ blanks)) more
      (rest ++ maskAll tail) captures (payload ++ captures)) :
    ∃ found, declaration.Found form (declaration.lead ++ (declaration.name.letters ++ blanks) ++ more) rest tail
      payload found := by
  have nonempty : more ++ rest ≠ [] := by
    obtain ⟨mark, last, -⟩ := closing.marked
    rintro none
    rw [(List.append_eq_nil_iff.mp none).2] at last
    contradiction
  have starts : ∀ c, (blanks ++ (more ++ (rest ++ maskAll tail))).head? = some c → isWord c = false := by
    intro c first
    have body := declaration.content.head_body
    rw [← List.append_assoc more, ← List.append_assoc, ← cut,
      List.head?_append_of_ne_nil _ (by simp [cut, nonempty])] at first
    rwa [first] at body
  have shown : ∀ c, (more ++ (rest ++ maskAll tail)).head? = some c → isBlank c = false := by
    rwa [← List.append_assoc, List.head?_append_of_ne_nil _ nonempty]
  obtain ⟨captures, reads, head⟩ := declaration.takes_head blank starts shown
  have whole := takes_append head (takes captures)
  rw [← shape] at whole
  have text : declaration.text =
      declaration.lead ++ (declaration.name.letters ++ blanks) ++ more ++ rest := by
    simp [Declaration.text, cut]
  have some : declaration.lead ++ (declaration.name.letters ++ blanks) ++ more ≠ [] := by
    simp [declaration.name.nonempty]
  obtain ⟨found, captured, matched⟩ := matched_of_takes isSought whole (declaration.maskAll_text tail) text some
    closing.free closing.marked fun found captured => (reads found payload captured slots).1
  obtain ⟨-, isExported, isModified⟩ := reads found payload captured slots
  exact ⟨found, matched, isExported, isModified⟩

/-- The parameters and the type of a declaration. -/
theorem signed_written {excluded front part back : List Char} {params : List Param}
    (split : declaration.text = front ++ '(' :: (separated (params.map Param.text) ++ [')']) ++
      ([] ++ (":".toList ++ [' '] ++ part)) ++ back)
    (piece : Piece (strip part)) (visible : part.head?.any isBlank = false) (tame : Tame part)
    (marks : ∀ mark ∈ excluded, isWord mark = false ∧ mark ∉ typeMarks)
    (ends : back.head?.any (excluded.contains ·) = true) :
    Signed excluded front (separated (params.map Param.text)) part back declaration.text := by
  have params : Tame (separated (params.map Param.text)) :=
    tame_separated fun item member => (piece_params item member).tame
  constructor
  case cut => exact ⟨[], [' '], split, by simp, by decide⟩
  case plain => exact params.plain
  case noOpener => exact params.not_mem (by decide) (by decide)
  case noCloser => exact params.not_mem (by decide) (by decide)
  case visible =>
    cases part with
    | nil => exact absurd rfl piece.item.nonempty
    | cons c rest => exact ⟨c, rest, rfl, visible⟩
  case inside => exact fun c member listed => tame.not_mem (marks c listed).1 (marks c listed).2 member
  case ends => exact ends

theorem paramsOf_written {parens : Block} {params : List Param}
    (body : parens.body = separated (params.map Param.text)) :
    Scanned.paramsOf parens = params.map Param.shown := by
  have parsed := paramsOf_separated (@piece_params params) parens.opening parens.closing
  rw [← body, List.map_map] at parsed
  exact parsed

end Found

section Passed

variable (line : Line) (tail : List Char)

theorem Line.behind :
    Scanned.Behind line.text line.masked (.ofSource tail) (.ofSource (line.text ++ tail)) where
  source := rfl
  masked := line.mask_text true tail
  length := by
    have masked := line.mask_text true []
    rw [List.append_nil, Source.mask_nil, List.append_nil, if_pos rfl] at masked
    rw [← masked, Source.length_mask]
  lines := rfl
  moved_lines := rfl

variable {line}

/-- A line that does not start with the keyword of a form adds no matches. -/
theorem Line.adds_other {form : Pattern} {sought : List String} (isSought : Sought form sought)
    (others : ∀ keyword ∈ sought, keyword ∉ line.heads) :
    Scanned.Adds [] line.masked form (.ofSource tail) (.ofSource (line.text ++ tail)) := by
  have added := isSought.matchesIn_other line.heads_masked line.marked_masked others (maskAll tail)
  have masked : maskAll (line.text ++ tail) = line.masked ++ maskAll tail := line.mask_text true tail
  rw [← masked] at added
  exact added

variable {declaration : Declaration}

theorem Declaration.behind (declaration : Declaration) (tail : List Char) :
    Scanned.Behind declaration.text declaration.text (.ofSource tail) (.ofSource (declaration.text ++ tail)) :=
  (Line.declared declaration).behind tail

theorem Declaration.adds_other {form : Pattern} {keyword : String} (isSought : Sought form [keyword])
    (different : declaration.content.keyword ≠ keyword) (modifier : keyword ∉ ["export", "pure", "sealed"])
    (tail : List Char) :
    Scanned.Adds [] declaration.text form (.ofSource tail) (.ofSource (declaration.text ++ tail)) := by
  refine @Line.adds_other (.declared declaration) tail form [keyword] isSought ?_
  simp_all [Line.heads, Ne.symm different]

end Passed

section Structures

instance : Append Structure where
  append first second :=
    { circuits := first.circuits ++ second.circuits
      witnesses := first.witnesses ++ second.witnesses
      ledgerItems := first.ledgerItems ++ second.ledgerItems
      types := first.types ++ second.types
      structs := first.structs ++ second.structs
      enums := first.enums ++ second.enums }

/-- No declarations. -/
def Structure.none : Structure :=
  ⟨[], [], [], [], [], []⟩

/-- What a declaration on a line declares. -/
def Declaration.declared (declaration : Declaration) (line : Nat) : Structure :=
  let name := declaration.name.name
  let isExported := declaration.isExported
  match declaration.content with
  | .circuit isPure params type =>
    { Structure.none with circuits := [⟨name, params.map Param.shown, type.shown, isExported, isPure, line⟩] }
  | .witness params type =>
    { Structure.none with
      witnesses := [⟨name, type.shown, (params.getD []).map Param.shown, isExported, line⟩] }
  | .ledgerItem isSealed type =>
    { Structure.none with ledgerItems := [⟨name, type.shown, isExported, isSealed, line⟩] }
  | .typeAlias definition =>
    { Structure.none with types := [⟨name, definition.shown, isExported, line⟩] }
  | .struct fields =>
    { Structure.none with structs := [⟨name, fields.map Param.shown, isExported, line⟩] }
  | .enumeration variants =>
    { Structure.none with enums := [⟨name, variants.map Ident.name, isExported, line⟩] }

theorem ledgerItems_written (declaration : Declaration) (tail : List Char) :
    (Scanned.ofSource (declaration.text ++ tail)).ledgerItems = (declaration.declared 1).ledgerItems ++
      (Scanned.ofSource tail).ledgerItems.map (LedgerItem.behind declaration.text) := by
  have other (different : declaration.content.keyword ≠ "ledger") :=
    (declaration.behind tail).ledgerItems (Declaration.adds_other sought_ledgerItem different (by decide) tail)
  cases content : declaration.content with
  | ledgerItem isSealed type =>
    have cut : declaration.content.body = [] ++ ((":".toList ++ [' '] ++ type.text) ++ [';']) := by
      rw [content]
      rfl
    have closing : Closing [';'] := closing_last (by decide) (by decide) inert_nil
    have typed (captures : List Capture) : (Pattern.word ":" ++ .space ++ .capture Forms.payload
        (Forms.upTo [';'])).Takes (declaration.lead ++ (declaration.name.letters ++ []))
        (":".toList ++ [' '] ++ type.text) ([';'] ++ maskAll tail) captures
        ([captureOf _ _ _ _] ++ captures) :=
      takes_typed (by decide) type.piece.item.nonempty type.piece.item.first type.piece.tame.semicolonFree (by simp)
    obtain ⟨found, isFound⟩ := Declaration.exists_found sought_ledgerItem (by rw [content]; rfl) cut
      (by simp) (by simp +decide) closing (by simp) typed
    have text : (Scanned.ofSource (declaration.text ++ tail)).captured found Forms.payload = type.shown := by
      rw [isFound.captured ⟨[';'], by simp [Declaration.text, cut]⟩,
        Text.strip_eq_self type.piece.item.first type.piece.item.last]
      rfl
    rw [(declaration.behind tail).ledgerItems isFound.adds, List.map_singleton, Scanned.ledgerItemOf,
      isFound.name, isFound.isExported, isFound.isModified, isFound.line, text, Declaration.declared, content]
    rfl
  | _ =>
    rw [content] at other
    rw [other (by simp [Content.keyword]), Declaration.declared, content]
    rfl

theorem types_written (declaration : Declaration) (tail : List Char) :
    (Scanned.ofSource (declaration.text ++ tail)).types = (declaration.declared 1).types ++
      (Scanned.ofSource tail).types.map (TypeAlias.behind declaration.text) := by
  have other (different : declaration.content.keyword ≠ "type") :=
    (declaration.behind tail).types (Declaration.adds_other sought_typeAlias different (by decide) tail)
  cases content : declaration.content with
  | typeAlias definition =>
    have cut : declaration.content.body = [' '] ++ (([] ++ ("=".toList ++ [' '] ++ definition.text)) ++ [';']) := by
      rw [content]
      rfl
    have closing : Closing [';'] := closing_last (by decide) (by decide) inert_nil
    have defined (captures : List Capture) : (Forms.typeParams ['=', ';'] ++ (.word "=" ++ .space ++
        .capture Forms.payload (Forms.upTo [';']))).Takes
        (declaration.lead ++ (declaration.name.letters ++ [' ']))
        ([] ++ ("=".toList ++ [' '] ++ definition.text)) ([';'] ++ maskAll tail) captures
        ([captureOf _ _ _ _] ++ captures) :=
      takes_append (takes_noTypeParams (by decide)) (takes_typed (by decide) definition.piece.item.nonempty
        definition.piece.item.first definition.piece.tame.semicolonFree (by simp))
    obtain ⟨found, isFound⟩ := Declaration.exists_found sought_typeAlias (by rw [content]; rfl) cut
      (by decide) (by simp +decide) closing (by simp) defined
    have text : (Scanned.ofSource (declaration.text ++ tail)).captured found Forms.payload =
        definition.shown := by
      rw [isFound.captured ⟨[';'], by simp [Declaration.text, cut]⟩,
        Text.strip_eq_self definition.piece.item.first definition.piece.item.last]
      rfl
    rw [(declaration.behind tail).types isFound.adds, List.map_singleton, Scanned.typeAliasOf,
      isFound.name, isFound.isExported, isFound.line, text, Declaration.declared, content]
  | _ =>
    rw [content] at other
    rw [other (by simp [Content.keyword]), Declaration.declared, content]
    rfl

/-- The members between two braces behind a name. -/
theorem members_written {declaration : Declaration} {form : Pattern} {items : List (List Char)}
    {tail : List Char} {found : Match} (pieces : ∀ item ∈ items, Piece item)
    (cut : declaration.content.body = [' '] ++ (['{'] ++ (' ' :: (separated items ++ [' ', '}']))))
    (isFound : declaration.Found form (declaration.lead ++ (declaration.name.letters ++ [' ']) ++ ['{'])
      (' ' :: (separated items ++ [' ', '}'])) tail [] found) :
    ((Scanned.ofSource (declaration.text ++ tail)).blockOf? found).map Scanned.membersOf =
      some (items.map String.ofList) := by
  have inert : Inert (' ' :: (separated items ++ [' '])) :=
    inert_mark (by decide) (inert_append (by decide) (inert_separated pieces) inert_nil)
  have tame : Tame (' ' :: (separated items ++ [' '])) := by
    have inside := tame_separated fun item member => (pieces item member).tame
    exact tame_mark (by decide) (tame_append inside (tame_mark (by decide) (by simp [Tame])))
  have split : declaration.text = declaration.lead ++ (declaration.name.letters ++ [' ']) ++
      '{' :: (' ' :: (separated items ++ [' ']) ++ '}' :: []) := by
    simp [Declaration.text, cut]
  have block := block_written rfl inert.plain (tame.not_mem (by decide) (by decide))
    (tame.not_mem (by decide) (by decide)) split tail
  rw [isFound.blockOf?, block, Option.map_some, membersOf_separated pieces]

/-- A declaration with members between braces is found, and read with its members. -/
theorem Declaration.exists_braced {declaration : Declaration} {form last : Pattern} {sought : List String}
    {items : List (List Char)} {tail : List Char} {α : Type} (make : String → List String → Bool → Nat → α)
    (isSought : Sought form sought)
    (shape : form = .wordBoundary ++ declaration.content.opening ++ .word declaration.content.keyword ++
      .gap ++ Forms.named ++ .space ++ last)
    (pieces : ∀ item ∈ items, Piece item)
    (body : declaration.content.body = [' '] ++ (['{'] ++ (' ' :: (separated items ++ [' ', '}']))))
    (opened : ∀ front rest captures, last.Takes front ['{'] (' ' :: rest) captures captures) :
    let scanned := Scanned.ofSource (declaration.text ++ tail)
    ∃ found, Scanned.Adds [found] declaration.text form (.ofSource tail) scanned ∧
      (scanned.blockOf? found).map (fun braces => make (Scanned.nameOf found) (Scanned.membersOf braces)
        (Scanned.isExported found) (scanned.lineOf found)) =
        some (make declaration.name.name (items.map String.ofList) declaration.isExported 1) := by
  intro scanned
  have opens (captures : List Capture) : last.Takes
      (declaration.lead ++ (declaration.name.letters ++ [' '])) ['{']
      (' ' :: (separated items ++ [' ', '}']) ++ maskAll tail) captures ([] ++ captures) :=
    opened _ _ captures
  obtain ⟨found, isFound⟩ := Declaration.exists_found isSought shape body (by decide) (by simp +decide)
    (closing_members pieces) (by simp) opens
  obtain ⟨braces, block, members⟩ := Option.map_eq_some_iff.mp (members_written pieces body isFound)
  refine ⟨found, isFound.adds, ?_⟩
  rw [block, Option.map_some, members, isFound.name, isFound.isExported, isFound.line]

theorem structs_written (declaration : Declaration) (tail : List Char) :
    (Scanned.ofSource (declaration.text ++ tail)).structs = (declaration.declared 1).structs ++
      (Scanned.ofSource tail).structs.map (Struct.behind declaration.text) := by
  have other (different : declaration.content.keyword ≠ "struct") :=
    (declaration.behind tail).structs (Declaration.adds_other sought_struct different (by decide) tail)
  cases content : declaration.content with
  | struct fields =>
    obtain ⟨found, adds, read⟩ := Declaration.exists_braced Struct.mk sought_struct (by rw [content]; rfl)
      (@piece_params fields) (by rw [content]; rfl) fun _ _ _ =>
        takes_append (takes_noTypeParams (by decide)) (Text.Pattern.takes_text ['{'])
    rw [(declaration.behind tail).structs adds, List.filterMap_cons_some (f := Scanned.struct? _) read,
      Declaration.declared, content, List.map_map]
    rfl
  | _ =>
    rw [content] at other
    rw [other (by simp [Content.keyword]), Declaration.declared, content]
    rfl

theorem enums_written (declaration : Declaration) (tail : List Char) :
    (Scanned.ofSource (declaration.text ++ tail)).enums = (declaration.declared 1).enums ++
      (Scanned.ofSource tail).enums.map (Enumeration.behind declaration.text) := by
  have other (different : declaration.content.keyword ≠ "enum") :=
    (declaration.behind tail).enums (Declaration.adds_other sought_enumeration different (by decide) tail)
  cases content : declaration.content with
  | enumeration variants =>
    obtain ⟨found, adds, read⟩ := Declaration.exists_braced Enumeration.mk sought_enumeration
      (by rw [content]; rfl) (@piece_variants variants) (by rw [content]; rfl) fun _ _ _ =>
        Text.Pattern.takes_text ['{']
    rw [(declaration.behind tail).enums adds, List.filterMap_cons_some (f := Scanned.enum? _) read,
      Declaration.declared, content, List.map_map]
    rfl
  | _ =>
    rw [content] at other
    rw [other (by simp [Content.keyword]), Declaration.declared, content]
    rfl

/-- A witness that is found is read with its type, and with its parameters if it has any. -/
theorem Declaration.Found.witness? {declaration : Declaration} {tail : List Char} {found : Match}
    {params : Option (List Param)} {type : TypeExpr} {mark : Char} {rest : List Char}
    (isFound : declaration.Found Forms.witness (declaration.lead ++ (declaration.name.letters ++ []) ++ [])
      (mark :: rest) tail [] found)
    (content : declaration.content = .witness params type) (body : declaration.content.body = mark :: rest) :
    (Scanned.ofSource (declaration.text ++ tail)).witness? found =
      some ⟨declaration.name.name, type.shown, (params.getD []).map Param.shown, declaration.isExported, 1⟩ := by
  have item := type.piece.item
  have bare : Text.strip type.text = type.text := Text.strip_eq_self item.first item.last
  have text : declaration.text = declaration.lead ++ (declaration.name.letters ++ []) ++ mark :: rest := by
    simp [Declaration.text, body]
  rw [content] at body
  cases params with
  | none =>
    obtain ⟨rfl, rfl⟩ := List.cons.inj (show ':' :: _ = mark :: rest from body)
    have stop : found.stop.offset = (declaration.lead ++ (declaration.name.letters ++ [])).length := by
      rw [isFound.stop, List.append_nil]
      rfl
    have other : found.stop.rest.head? ≠ some '(' := by simp [isFound.stop]
    have split : declaration.text = declaration.lead ++ (declaration.name.letters ++ []) ++
        ([] ++ (":".toList ++ [' '] ++ type.text)) ++ [';'] := by
      simp [text]
    obtain ⟨typed, matched, -, captured⟩ := type_written (show Forms.witnessType = _ from rfl)
      (declaration.maskAll_text tail) split (by simp) (by decide) item.nonempty item.first
      type.piece.tame.semicolonFree (by decide)
    rw [← stop] at matched
    rw [Scanned.witness?]
    simp only [if_neg other, Option.pure_def, Option.bind_eq_bind, Option.bind_some, matched, captured, bare,
      isFound.name, isFound.isExported, isFound.line]
    rfl
  | some params =>
    obtain ⟨rfl, rfl⟩ := List.cons.inj (show '(' :: _ = mark :: rest from body)
    have matched := isFound.toMatched
    rw [List.append_nil] at matched
    have signed := @signed_written declaration [';'] (declaration.lead ++ (declaration.name.letters ++ []))
      type.text [';'] params (by simp [text]) (bare.symm ▸ type.piece) item.first type.piece.tame (by decide)
      (by decide)
    obtain ⟨parens, body, read⟩ := matched.witness? (declaration.maskAll_text tail) signed
    rw [read, bare, paramsOf_written body, isFound.isExported]
    rfl

theorem witnesses_written (declaration : Declaration) (tail : List Char) :
    (Scanned.ofSource (declaration.text ++ tail)).witnesses = (declaration.declared 1).witnesses ++
      (Scanned.ofSource tail).witnesses.map (Witness.behind declaration.text) := by
  have other (different : declaration.content.keyword ≠ "witness") :=
    (declaration.behind tail).witnesses (Declaration.adds_other sought_witness different (by decide) tail)
  cases content : declaration.content with
  | witness params type =>
    obtain ⟨mark, rest, body, noAngle, shown⟩ : ∃ mark rest, declaration.content.body = mark :: rest ∧
        mark ≠ '<' ∧ isBlank mark = false := by
      rw [content]
      cases params with
      | none => exact ⟨_, _, rfl, by decide⟩
      | some params => exact ⟨_, _, rfl, by decide⟩
    have cut : declaration.content.body = [] ++ ([] ++ mark :: rest) := body
    have visible : ∀ c, ([] ++ mark :: rest).head? = some c → isBlank c = false := by
      intro c first
      obtain rfl := Option.some.inj first
      exact shown
    have passed (captures : List Capture) : (Forms.typeParams ['<', '>', '(', ':']).Takes
        (declaration.lead ++ (declaration.name.letters ++ [])) [] (mark :: rest ++ maskAll tail) captures
        ([] ++ captures) := takes_noTypeParams noAngle
    obtain ⟨found, isFound⟩ := Declaration.exists_found sought_witness (by rw [content]; rfl) cut
      (by simp) visible (body ▸ declaration.content.closing_body) (by simp) passed
    rw [(declaration.behind tail).witnesses isFound.adds, List.filterMap_cons_some (isFound.witness? content body),
      Declaration.declared, content]
    rfl
  | _ =>
    rw [content] at other
    rw [other (by simp [Content.keyword]), Declaration.declared, content]
    rfl

theorem circuits_written (declaration : Declaration) (tail : List Char) :
    (Scanned.ofSource (declaration.text ++ tail)).circuits.map (·.1) = (declaration.declared 1).circuits ++
      ((Scanned.ofSource tail).circuits.map (·.1)).map (Circuit.behind declaration.text) := by
  have other (different : declaration.content.keyword ≠ "circuit") :=
    (declaration.behind tail).circuits (Declaration.adds_other sought_circuit different (by decide) tail)
  cases content : declaration.content with
  | circuit isPure params type =>
    have cut : declaration.content.body = [] ++ (['('] ++ (separated (params.map Param.text) ++
        ')' :: ':' :: ' ' :: (type.text ++ [' ', '{', '}']))) := by
      rw [content]
      rfl
    have closing : Closing (separated (params.map Param.text) ++
        ')' :: ':' :: ' ' :: (type.text ++ [' ', '{', '}'])) := by
      have whole := declaration.content.closing_body
      rw [cut] at whole
      exact @Closing.behind [] _ '(' whole (by decide) (by simp)
    have opened (captures : List Capture) : (Forms.typeParams ['<', '>', '('] ++ .word "(").Takes
        (declaration.lead ++ (declaration.name.letters ++ [])) ['(']
        (separated (params.map Param.text) ++ ')' :: ':' :: ' ' :: (type.text ++ [' ', '{', '}']) ++ maskAll tail)
        captures ([] ++ captures) :=
      takes_append (takes_noTypeParams (by decide)) (Text.Pattern.takes_text ['('])
    obtain ⟨found, isFound⟩ := Declaration.exists_found sought_circuit (by rw [content]; rfl) cut
      (by simp) (by simp +decide) closing (by simp) opened
    have bare : strip (type.text ++ [' ']) = type.text := by
      rw [Text.strip_append_right (by decide) type.piece.item.first,
        Text.strip_eq_self type.piece.item.first type.piece.item.last]
    have visible : (type.text ++ [' ']).head?.any isBlank = false := by
      rw [List.head?_append_of_ne_nil _ type.piece.item.nonempty]
      exact type.piece.item.first
    have signed := @signed_written declaration ['{', '\n', ';'] (declaration.lead ++ (declaration.name.letters ++ []))
      (type.text ++ [' ']) ['{', '}'] params (by simp [Declaration.text, cut]) (bare.symm ▸ type.piece) visible
      (tame_append type.piece.tame (by simp [Tame, typeMarks])) (by decide) (by decide)
    obtain ⟨parens, taken, circuit, body?, here, body, -, read, -⟩ :=
      isFound.circuit? (declaration.maskAll_text tail) signed
    have first : circuit =
        ⟨declaration.name.name, params.map Param.shown, type.shown, declaration.isExported, isPure, 1⟩ := by
      rw [read, bare, paramsOf_written body, isFound.isExported, isFound.isModified, content]
      rfl
    rw [(declaration.behind tail).circuits isFound.adds, List.filterMap_cons_some here, List.filterMap_nil,
      List.singleton_append, List.map_cons, first, Declaration.declared, content, List.map_map, List.map_map]
    rfl
  | _ =>
    rw [content] at other
    rw [other (by simp [Content.keyword]), Declaration.declared, content]
    simp [Structure.none, Function.comp_def]

end Structures

end ContractInspector.Contract
