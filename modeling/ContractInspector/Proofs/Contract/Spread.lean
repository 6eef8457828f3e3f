import ContractInspector.Proofs.Contract.Layout
import ContractInspector.Proofs.Contract.Written

/-! Declarations in any layout. The types of witnesses, ledger items and aliases are read to the semicolon
behind them, so no layout changes them; the type of a circuit is read to the end of its line. -/
namespace ContractInspector.Contract

open Source (Plain maskAll visible)
open Text (Capture Match Pattern isBlank isWord strip)
open Text.Pattern (Marked Takes captureOf takes_append)

variable {front rest tail text typed inner : List Char} {keyword : String} {name : Ident}

section Headings

/-- A keyword and a name, with the blanks behind them. -/
def Heading (keyword : String) (name : Ident) (front : List Char) : Prop :=
  ∃ gap blanks, front = keyword.toList ++ gap ++ name.letters ++ blanks ∧ gap ≠ [] ∧ Blank gap ∧ Blank blanks

/-- A keyword, and behind a gap tokens with any blanks between them. -/
def Opens (keyword : String) (tokens : List (List Char)) (text : List Char) : Prop :=
  ∃ gap rest, text = keyword.toList ++ (gap ++ rest) ∧ gap ≠ [] ∧ Blank gap ∧ Spaced tokens rest

/-- The tokens of a name, of parameters in parentheses, and of the colon behind them. -/
def signature (name : Ident) (params : List Param) : List (List Char) :=
  name.letters :: ['('] :: (listed (params.map Param.tokens) ++ [[')'], [':']])

theorem Heading.plain (heading : Heading keyword name front) (member : keyword ∈ keywords) : Plain front := by
  obtain ⟨gap, blanks, rfl, -, between, blank⟩ := heading
  have letters : Plain keyword.toList := (tame_of_isWord (letters_of_keyword keyword member)).plain
  exact Source.plain_append (Source.plain_append (Source.plain_append letters between.loose.plain)
    name.loose.plain) blank.loose.plain

theorem Heading.nonempty (heading : Heading keyword name front) : front ≠ [] := by
  obtain ⟨gap, blanks, rfl, apart, -⟩ := heading
  simp [apart]

/-- What opens with a name is a heading, the mark behind it and the tokens behind the mark. -/
theorem Opens.cut {mark : Char} {tokens : List (List Char)}
    (opens : Opens keyword (name.letters :: [mark] :: tokens) text) :
    ∃ front blanks rest, text = front ++ mark :: (blanks ++ rest) ∧ Heading keyword name front ∧ Blank blanks ∧
      Spaced tokens rest := by
  obtain ⟨gap, rest, rfl, apart, between, spaced⟩ := opens
  obtain ⟨blanks, rest, rfl, blank, spaced⟩ := Spaced.cons_iff.mp spaced
  obtain ⟨inner, rest, rfl, blank', spaced⟩ := Spaced.cons_iff.mp spaced
  exact ⟨keyword.toList ++ gap ++ name.letters ++ blanks, inner, rest, by simp,
    ⟨gap, blanks, rfl, apart, between, blank⟩, blank', spaced⟩

/-- A form without modifiers finds a declaration that starts a source. -/
theorem Heading.exists_matched {form opening last : Pattern} {sought : List String} {more : List Char}
    {payload : List Capture} (heading : Heading keyword name front) (member : keyword ∈ keywords)
    (isSought : Sought form sought)
    (shape : form = .wordBoundary ++ opening ++ .word keyword ++ .gap ++ Forms.named ++ .space ++ last)
    (bare : ∀ rest, opening.Takes [] [] (keyword.toList ++ rest) [] [])
    (takes : ∀ captures, last.Takes front more (rest ++ maskAll tail) captures (payload ++ captures))
    (slots : ∀ part ∈ payload, part.slot = Forms.payload)
    (starts : ∃ c others, more ++ rest = c :: others ∧ isWord c = false ∧ isBlank c = false)
    (plain : Plain text) (free : Free rest) (marked : Marked rest) (split : text = front ++ more ++ rest) :
    ∃ found, Matched name text form (front ++ more) rest tail payload found := by
  have masked : maskAll (text ++ tail) = text ++ maskAll tail := Source.mask_plain plain true tail
  have nonempty : front ++ more ≠ [] := by simp [heading.nonempty]
  obtain ⟨gap, blanks, rfl, apart, between, blank⟩ := heading
  obtain ⟨c, others, first, noWord, shown⟩ := starts
  have behind : more ++ (rest ++ maskAll tail) = c :: (others ++ maskAll tail) := by
    rw [← List.append_assoc, first, List.cons_append]
  have ends : ∀ d, (blanks ++ (more ++ (rest ++ maskAll tail))).head? = some d → isWord d = false := by
    intro d head
    have starts := blank.head (show (more ++ (rest ++ maskAll tail)).head?.any isWord = false by
      rw [behind]
      exact noWord)
    rwa [head] at starts
  have visible : ∀ d, (more ++ (rest ++ maskAll tail)).head? = some d → isBlank d = false := by
    intro d head
    rw [behind] at head
    exact Option.some.inj head ▸ shown
  have word := head_keyword member []
  rw [List.append_nil] at word
  have head := @takes_heading (more ++ (rest ++ maskAll tail)) [] opening keyword [] gap blanks name (bare _) word
    apart between blank ends visible
  have whole := takes_append head (takes _)
  rw [← shape] at whole
  obtain ⟨found, -, matched⟩ := matched_of_takes isSought whole masked split nonempty free marked
    fun found captured => nameOf_captures captured slots
  exact ⟨found, matched⟩

end Headings

section Signatures

variable {params : List Param} {head list line others close : List Char}

/-- A declaration with parameters in parentheses, a type behind a colon, and what closes it. -/
structure Laid (front list typed close text : List Char) : Prop where
  cut : ∃ blanks inner, text = front ++ '(' :: (list ++ [')']) ++ (blanks ++ (":".toList ++ inner ++ typed)) ++ close ∧
    Blank blanks ∧ Blank inner
  looseList : Loose typeMarks list
  looseType : Loose typeMarks typed
  looseClose : Loose lineMarks close
  starts : close.head?.any isWord = false
  marked : Marked close

theorem Opens.exists_laid (opens : Opens keyword (signature name params) head) (looseType : Loose typeMarks typed)
    (looseClose : Loose lineMarks close) (starts : close.head?.any isWord = false) (marked : Marked close) :
    ∃ front list, Heading keyword name front ∧ Laid front list typed close (head ++ typed ++ close) := by
  obtain ⟨front, blanks, rest, rfl, heading, blank, spaced⟩ := opens.cut
  obtain ⟨list, back, rfl, listed, spaced⟩ := spaced.exists_append
  obtain ⟨behind, rest, rfl, blank', spaced⟩ := Spaced.cons_iff.mp spaced
  obtain ⟨inner, rfl, blank''⟩ := spaced.eq_blank
  have loose : Loose typeMarks list := by
    refine loose_listed (fun tokens member => ?_) listed
    obtain ⟨param, -, rfl⟩ := List.mem_map.mp member
    exact param.loose
  exact ⟨front, blanks ++ list, heading, ⟨behind, inner, by simp, blank', blank''⟩, loose.behindBlanks blank,
    looseType, looseClose, starts, marked⟩

namespace Laid

/-- Behind the parenthesis stands no keyword. -/
theorem exists_rest (laid : Laid front list typed close text) :
    ∃ rest, text = front ++ '(' :: rest ∧ Loose lineMarks rest ∧ Marked rest := by
  obtain ⟨blanks, inner, rfl, blank, between⟩ := laid.cut
  refine ⟨list ++ ')' :: (blanks ++ ':' :: (inner ++ (typed ++ close))), by simp, ?_, ?_⟩
  · have typed := (laid.looseType.within.append laid.looseClose laid.starts).behindBlanks between
    have colon := (typed.behindMark (show ':' ∈ lineMarks by decide) (by decide)).behindBlanks blank
    exact laid.looseList.within.append (colon.behindMark (by decide) (by decide)) (by rfl)
  · have split : list ++ ')' :: (blanks ++ ':' :: (inner ++ (typed ++ close))) =
        (list ++ ')' :: (blanks ++ ':' :: (inner ++ typed))) ++ close := by simp
    rw [split]
    exact Text.Pattern.marked_append _ laid.marked

theorem plain (laid : Laid front list typed close text) (heading : Heading keyword name front)
    (member : keyword ∈ keywords) : Plain text := by
  obtain ⟨rest, cut, loose, -⟩ := laid.exists_rest
  rw [cut]
  exact Source.plain_append (heading.plain member) (loose.behindMark (show '(' ∈ lineMarks by decide) (by decide)).plain

theorem signed {excluded : List Char} (laid : Laid front list typed close text) (broken : typed = line ++ others)
    (visible : ∃ c rest, line = c :: rest ∧ isBlank c = false) (inside : ∀ c ∈ line, c ∉ excluded)
    (ends : (others ++ close).head?.any (excluded.contains ·) = true) :
    Signed excluded front list line (others ++ close) text := by
  obtain ⟨blanks, inner, split, blank, between⟩ := laid.cut
  constructor
  case cut => exact ⟨blanks, inner, by simp [split, broken], blank, between⟩
  case plain => exact laid.looseList.within.plain
  case noOpener => exact laid.looseList.not_mem (by decide) (by decide) (by decide)
  case noCloser => exact laid.looseList.not_mem (by decide) (by decide) (by decide)
  case visible => exact visible
  case inside => exact inside
  case ends => exact ends

end Laid

theorem Scanned.behind_plain (plain : Plain text) (tail : List Char) :
    Scanned.Behind text text (.ofSource tail) (.ofSource (text ++ tail)) where
  source := rfl
  masked := Source.mask_plain plain true tail
  length := rfl
  lines := rfl
  moved_lines := rfl

theorem bodyAfter?_between {scanned : Scanned} {before : List Char}
    (split : scanned.masked.text = front ++ (before ++ '{' :: (inner ++ '}' :: rest)))
    (outside : ∀ c ∈ before, c ≠ '{' ∧ c ≠ ';') (blank : Blank inner) :
    scanned.bodyAfter? front.length =
      some (front.length + before.length + 1, front.length + before.length + 1 + inner.length) := by
  have loose : Loose [] inner := blank.loose
  have noOpener : '{' ∉ inner := loose.not_mem (by decide) (by decide) (by decide)
  have noCloser : '}' ∉ inner := loose.not_mem (by decide) (by decide) (by decide)
  have spans : Text.Spans (fun c => c ≠ '{' && c ≠ ';') before ('{' :: (inner ++ '}' :: rest)) :=
    Text.spans_cons (fun c member => by simp [outside c member]) (by decide)
  have behind : scanned.masked.drop (front.length + before.length) = '{' :: (inner ++ '}' :: rest) := by
    rw [Text.Indexed.drop_eq, split, ← List.append_assoc, ← List.length_append, List.drop_left]
  rw [Scanned.bodyAfter?, Text.Indexed.drop_eq, split, List.drop_left, spans.takeWhile]
  simp only [behind, Source.blockFrom?_plain rfl (Blank.loose blank).plain noOpener noCloser, Option.map_some]

/-- The type of a circuit is what stands of it on its first line, and its body is what the braces enclose. -/
theorem circuit_spread (opens : Opens "circuit" (signature name params) head) (typed : Loose typeMarks (line ++ others))
    (visible : ∃ c rest, line = c :: rest ∧ isBlank c = false) (inLine : '\n' ∉ line)
    (breaks : ∀ c, others.head? = some c → c = '\n') (blank : Blank inner)
    (split : text = head ++ (line ++ others) ++ '{' :: (inner ++ ['}'])) (tail : List Char) :
    ∃ circuit block, (Scanned.ofSource (text ++ tail)).circuits = (circuit, some block) ::
        (Scanned.ofSource tail).circuits.map (fun read => (read.1.behind text, read.2.map (CodeBlock.behind text))) ∧
      circuit.name = name.name ∧ circuit.returnType = String.ofList (strip line) ∧
      block.name = name.name ∧ block.bodyStart = (head ++ (line ++ others)).length + 1 ∧
      block.bodyEnd = block.bodyStart + inner.length := by
  have close : Loose lineMarks ('{' :: (inner ++ ['}'])) :=
    ((loose_nil.behindMark (show '}' ∈ lineMarks by decide) (by decide)).behindBlanks blank).behindMark (by decide)
      (by decide)
  have marked : Marked ('{' :: (inner ++ ['}'])) :=
    Text.Pattern.marked_append ('{' :: inner) ⟨'}', rfl, by decide, by decide⟩
  obtain ⟨front, list, heading, laid⟩ := opens.exists_laid typed close (by rfl) marked
  rw [← split] at laid
  obtain ⟨rest, cut, loose, ends⟩ := laid.exists_rest
  have plain : Plain text := laid.plain heading (by decide)
  have opened (captures : List Capture) : (Forms.typeParams ['<', '>', '('] ++ .word "(").Takes front ['(']
      (rest ++ maskAll tail) captures ([] ++ captures) :=
    takes_append (takes_noTypeParams (by decide)) (Text.Pattern.takes_text ['('])
  have bare (rest : List Char) := @takes_both "pure" "circuit" (by decide) (by decide) (by decide) false false rest
  obtain ⟨found, matched⟩ := heading.exists_matched (by decide) sought_circuit rfl bare opened (by simp)
    ⟨'(', rest, rfl, by decide, by decide⟩ plain loose.free ends (by simp [cut])
  have absent : ∀ mark ∈ ['{', ';'], mark ∉ line ++ others := fun mark listed =>
    typed.not_mem (by revert mark; decide) (by revert mark; decide) (by revert mark; decide)
  -- the form ends the type at the newline, so the other lines are passed by the search for the body
  have signed : Signed ['{', '\n', ';'] front list line (others ++ '{' :: (inner ++ ['}'])) text := by
    refine laid.signed rfl visible (fun c member excluded => ?_) ?_
    · have marks : ∀ mark ∈ ['{', '\n', ';'], mark = '\n' ∨ mark ∈ ['{', ';'] := by decide
      rcases marks c excluded with rfl | listed
      · exact inLine member
      · exact absent c listed (List.mem_append_left _ member)
    · cases others with
      | nil => rfl
      | cons c others =>
        obtain rfl := breaks c rfl
        rfl
  have masked : maskAll (text ++ tail) = text ++ maskAll tail := Source.mask_plain plain true tail
  obtain ⟨parens, taken, circuit, body?, here, -, split', read, code⟩ := matched.circuit? masked signed
  have hidden : (Scanned.ofSource (text ++ tail)).masked.text =
      taken ++ (others ++ '{' :: (inner ++ '}' :: maskAll tail)) := by
    change maskAll (text ++ tail) = _
    rw [masked, split']
    simp
  have outside : ∀ c ∈ others, c ≠ '{' ∧ c ≠ ';' := fun c member =>
    ⟨fun same => absurd (List.mem_append_right line member) (same ▸ absent '{' (by decide)),
      fun same => absurd (List.mem_append_right line member) (same ▸ absent ';' (by decide))⟩
  rw [bodyAfter?_between hidden outside blank, Option.map_some] at code
  have offset : taken.length + others.length = (head ++ (line ++ others)).length := by
    have lengths := congrArg List.length (split.symm.trans split')
    simp only [List.length_append] at lengths ⊢
    omega
  have all := (Scanned.behind_plain plain tail).circuits matched.adds
  rw [List.filterMap_cons_some here, List.filterMap_nil, code] at all
  refine ⟨circuit, _, all, by rw [read], by rw [read], by rw [read], ?_, rfl⟩
  exact congrArg (· + 1) offset

/-- The type of a witness is all that stands in front of the semicolon. -/
theorem witness_spread (opens : Opens "witness" (signature name params) head) (loose : Loose typeMarks typed)
    (visible : ∃ c rest, typed = c :: rest ∧ isBlank c = false) (split : text = head ++ typed ++ [';'])
    (tail : List Char) :
    ∃ witness, (Scanned.ofSource (text ++ tail)).witnesses =
        witness :: (Scanned.ofSource tail).witnesses.map (Witness.behind text) ∧
      witness.name = name.name ∧ witness.type = String.ofList (strip typed) := by
  have close : Loose lineMarks [';'] := loose_nil.behindMark (by decide) (by decide)
  obtain ⟨front, list, heading, laid⟩ := opens.exists_laid loose close (by rfl) ⟨';', rfl, by decide, by decide⟩
  rw [← split] at laid
  obtain ⟨rest, cut, looseRest, ends⟩ := laid.exists_rest
  have plain : Plain text := laid.plain heading (by decide)
  have passed (captures : List Capture) : (Forms.typeParams ['<', '>', '(', ':']).Takes front []
      ('(' :: rest ++ maskAll tail) captures ([] ++ captures) :=
    takes_noTypeParams (by decide)
  have bare (rest : List Char) := @takes_exported "witness" (by decide) (by decide) false rest
  obtain ⟨found, matched⟩ := heading.exists_matched (by decide) sought_witness rfl bare passed (by simp)
    ⟨'(', rest, rfl, by decide, by decide⟩ plain (free_mark (by decide) looseRest.free)
    (Text.Pattern.marked_append ['('] ends) (by simp [cut])
  rw [List.append_nil] at matched
  have absent : ';' ∉ typed := loose.not_mem (by decide) (by decide) (by decide)
  have signed : Signed [';'] front list typed ([] ++ [';']) text := by
    refine laid.signed (List.append_nil typed).symm visible (fun c member excluded => ?_) (by decide)
    exact absurd member (List.mem_singleton.mp excluded ▸ absent)
  obtain ⟨parens, -, here⟩ := matched.witness? (Source.mask_plain plain true tail) signed
  have all := (Scanned.behind_plain plain tail).witnesses matched.adds
  rw [List.filterMap_cons_some here, List.filterMap_nil] at all
  exact ⟨_, all, rfl, rfl⟩

end Signatures

section Definitions

variable {head : List Char} {mark : Char}

theorem takes_until {mark : String} {blanks : List Char} {captures : List Capture} (blank : Blank blanks)
    (loose : Loose typeMarks typed) (visible : ∃ c rest, typed = c :: rest ∧ isBlank c = false) :
    (Pattern.word mark ++ .space ++ .capture Forms.payload (Forms.upTo [';'])).Takes front
      (mark.toList ++ blanks ++ typed) ([';'] ++ rest) captures
      ([captureOf Forms.payload (front ++ (mark.toList ++ blanks)) typed ([';'] ++ rest)] ++ captures) := by
  obtain ⟨c, others, rfl, shown⟩ := visible
  have absent : ';' ∉ c :: others := loose.not_mem (by decide) (by decide) (by decide)
  refine takes_typed blank (by simp) shown (fun d member excluded => ?_) (by simp)
  exact absurd member (List.mem_singleton.mp excluded ▸ absent)

/-- A type that is defined behind a mark, up to a semicolon. -/
theorem Opens.exists_matched {form opening last : Pattern} {sought : List String}
    (opens : Opens keyword [name.letters, [mark]] head) (member : keyword ∈ keywords) (isSought : Sought form sought)
    (shape : form = .wordBoundary ++ opening ++ .word keyword ++ .gap ++ Forms.named ++ .space ++ last)
    (bare : ∀ rest, opening.Takes [] [] (keyword.toList ++ rest) [] [])
    (takes : ∀ front blanks captures, Blank blanks → last.Takes front (mark :: (blanks ++ typed))
      ([';'] ++ maskAll tail) captures
      ([captureOf Forms.payload (front ++ mark :: blanks) typed ([';'] ++ maskAll tail)] ++ captures))
    (isMark : mark ∈ lineMarks) (shown : isBlank mark = false) (loose : Loose typeMarks typed)
    (split : text = head ++ typed ++ [';']) :
    ∃ found, Scanned.Adds [found] text form (.ofSource tail) (.ofSource (text ++ tail)) ∧
      Scanned.Behind text text (.ofSource tail) (.ofSource (text ++ tail)) ∧ Scanned.nameOf found = name.name ∧
      (Scanned.ofSource (text ++ tail)).captured found Forms.payload = String.ofList (strip typed) := by
  obtain ⟨front, blanks, rest, rfl, heading, blank, ⟨⟩⟩ := opens.cut
  have cut : text = front ++ mark :: (blanks ++ typed) ++ [';'] := by simp [split]
  have close : Loose lineMarks [';'] := loose_nil.behindMark (by decide) (by decide)
  have body : Loose lineMarks (mark :: (blanks ++ (typed ++ [';']))) :=
    ((loose.within.append close (by rfl)).behindBlanks blank).behindMark isMark (isWord_lineMark mark isMark)
  have plain : Plain text := by
    have regrouped : text = front ++ mark :: (blanks ++ (typed ++ [';'])) := by simp [cut]
    rw [regrouped]
    exact Source.plain_append (heading.plain member) body.plain
  obtain ⟨found, matched⟩ := heading.exists_matched member isSought shape bare (takes front blanks · blank) (by simp)
    ⟨mark, _, rfl, isWord_lineMark mark isMark, shown⟩ plain close.free ⟨';', rfl, by decide, by decide⟩ cut
  exact ⟨found, matched.adds, Scanned.behind_plain plain tail, matched.name, matched.captured ⟨[';'], by simp [cut]⟩⟩

/-- The type of a ledger item is all that stands in front of the semicolon. -/
theorem ledgerItem_spread (opens : Opens "ledger" [name.letters, [':']] head) (loose : Loose typeMarks typed)
    (visible : ∃ c rest, typed = c :: rest ∧ isBlank c = false) (split : text = head ++ typed ++ [';'])
    (tail : List Char) :
    ∃ item, (Scanned.ofSource (text ++ tail)).ledgerItems =
        item :: (Scanned.ofSource tail).ledgerItems.map (LedgerItem.behind text) ∧
      item.name = name.name ∧ item.type = String.ofList (strip typed) := by
  have bare (rest : List Char) := @takes_both "sealed" "ledger" (by decide) (by decide) (by decide) false false rest
  obtain ⟨found, adds, behind, named, captured⟩ := opens.exists_matched (by decide) sought_ledgerItem rfl bare
    (fun front blanks captures blank => @takes_until front _ typed ":" blanks captures blank loose visible)
    (by decide) (by decide) loose split
  exact ⟨_, behind.ledgerItems adds, named, captured⟩

/-- The definition of an alias is all that stands in front of the semicolon. -/
theorem typeAlias_spread (opens : Opens "type" [name.letters, ['=']] head) (loose : Loose typeMarks typed)
    (visible : ∃ c rest, typed = c :: rest ∧ isBlank c = false) (split : text = head ++ typed ++ [';'])
    (tail : List Char) :
    ∃ declared, (Scanned.ofSource (text ++ tail)).types =
        declared :: (Scanned.ofSource tail).types.map (TypeAlias.behind text) ∧
      declared.name = name.name ∧ declared.definition = String.ofList (strip typed) := by
  have bare (rest : List Char) := @takes_exported "type" (by decide) (by decide) false rest
  have defined (front blanks : List Char) (captures : List Capture) (blank : Blank blanks) :
      (Forms.typeParams ['=', ';'] ++ (.word "=" ++ .space ++ .capture Forms.payload (Forms.upTo [';']))).Takes front
        ("=".toList ++ blanks ++ typed) ([';'] ++ maskAll tail) captures
        ([captureOf Forms.payload (front ++ ("=".toList ++ blanks)) typed ([';'] ++ maskAll tail)] ++ captures) := by
    have passed : (Forms.typeParams ['=', ';']).Takes front []
        ("=".toList ++ blanks ++ typed ++ ([';'] ++ maskAll tail)) captures captures := takes_noTypeParams (by decide)
    have whole := takes_append passed (takes_until blank loose visible)
    rwa [List.append_nil] at whole
  obtain ⟨found, adds, behind, named, captured⟩ := opens.exists_matched (by decide) sought_typeAlias (by rfl)
    bare defined (by decide) (by decide) loose split
  exact ⟨_, behind.types adds, named, captured⟩

end Definitions

section Types

variable {type : TypeExpr}

theorem visible_typed (laid : Spaced type.tokens typed) : visible typed = visible type.text := by
  rw [visible_spaced laid, type.visible_tokens]

theorem visible_stripped (text : List Char) : visible (String.ofList (strip text)).toList = visible text := by
  rw [String.toList_ofList, Source.visible_strip]

/-- The first line of a type shows all of it exactly if the others show nothing. -/
theorem visible_takeWhile_iff (laid : Spaced type.tokens typed) :
    visible (typed.takeWhile (· ≠ '\n')) = visible type.text ↔ Blank (typed.dropWhile (· ≠ '\n')) := by
  have broken : visible (typed.takeWhile (· ≠ '\n')) ++ visible (typed.dropWhile (· ≠ '\n')) = visible type.text := by
    rw [← visible_append, List.takeWhile_append_dropWhile, visible_typed laid]
  rw [← broken, eq_comm, List.append_right_eq_self, visible, List.filter_eq_nil_iff]
  simp [Blank]

theorem exists_takeWhile (laid : Spaced type.tokens typed) :
    ∃ c others, typed.takeWhile (· ≠ '\n') = c :: others ∧ isBlank c = false := by
  obtain ⟨c, others, rfl, shown⟩ := type.starts laid
  have noNewline : c ≠ '\n' := by
    rintro rfl
    contradiction
  exact ⟨c, _, List.takeWhile_cons_of_pos (by simpa using noNewline), shown⟩

/-- A circuit is read with its body, and with what stands of its type in front of the first newline. -/
theorem circuit_typed {params : List Param} {head : List Char} (laid : Spaced type.tokens typed)
    (opens : Opens "circuit" (signature name params) head) (blank : Blank inner)
    (split : text = head ++ typed ++ '{' :: (inner ++ ['}'])) (tail : List Char) :
    ∃ circuit block,
      (scan (text ++ tail)).declared.circuits = circuit :: (scan tail).declared.circuits.map (Circuit.behind text) ∧
      (scan (text ++ tail)).circuitBlocks = block :: (scan tail).circuitBlocks.map (CodeBlock.behind text) ∧
      circuit.name = name.name ∧ block.name = name.name ∧
      block.bodyStart = (head ++ typed).length + 1 ∧ block.bodyEnd = block.bodyStart + inner.length ∧
      visible circuit.returnType.toList = visible (typed.takeWhile (· ≠ '\n')) := by
  have loose := type.loose typed laid
  have broken : typed.takeWhile (· ≠ '\n') ++ typed.dropWhile (· ≠ '\n') = typed := List.takeWhile_append_dropWhile
  obtain ⟨inLine, breaks⟩ := Text.spans_ne_iff.mp (Text.spans_takeWhile (· ≠ '\n') typed)
  rw [← broken] at loose split
  obtain ⟨circuit, block, circuits, named, returnType, blockNamed, bodyStart, bodyEnd⟩ :=
    circuit_spread opens loose (exists_takeWhile laid) inLine breaks blank split tail
  rw [broken] at bodyStart
  refine ⟨circuit, block, ?_, ?_, named, blockNamed, bodyStart, bodyEnd, by rw [returnType, visible_stripped]⟩
  · simp only [scan, circuits, List.map_cons, List.map_map]
    rfl
  · simp only [scan, circuits, List.filterMap_cons, List.filterMap_map, List.map_filterMap]
    rfl

/-- In any layout witnesses, ledger items and aliases are read with their whole types, and circuits with their
bodies. The type of a circuit is whole exactly if nothing of it stands behind its first line. -/
theorem types_spread (name : Ident) (params : List Param) (type : TypeExpr) (typed tail : List Char)
    (laid : Spaced type.tokens typed) :
    (∀ head inner text, Opens "circuit" (signature name params) head → Blank inner →
      text = head ++ typed ++ '{' :: (inner ++ ['}']) → ∃ circuit block,
        (scan (text ++ tail)).declared.circuits = circuit :: (scan tail).declared.circuits.map (Circuit.behind text) ∧
        (scan (text ++ tail)).circuitBlocks = block :: (scan tail).circuitBlocks.map (CodeBlock.behind text) ∧
        circuit.name = name.name ∧ block.name = name.name ∧
        block.bodyStart = (head ++ typed).length + 1 ∧ block.bodyEnd = block.bodyStart + inner.length ∧
        visible circuit.returnType.toList = visible (typed.takeWhile (· ≠ '\n')) ∧
        (visible circuit.returnType.toList = visible type.text ↔ Blank (typed.dropWhile (· ≠ '\n')))) ∧
    (∀ head text, Opens "witness" (signature name params) head → text = head ++ typed ++ [';'] → ∃ witness,
      (scan (text ++ tail)).declared.witnesses = witness :: (scan tail).declared.witnesses.map (Witness.behind text) ∧
      witness.name = name.name ∧ visible witness.type.toList = visible type.text) ∧
    (∀ head text, Opens "ledger" [name.letters, [':']] head → text = head ++ typed ++ [';'] → ∃ item,
      (scan (text ++ tail)).declared.ledgerItems =
        item :: (scan tail).declared.ledgerItems.map (LedgerItem.behind text) ∧
      item.name = name.name ∧ visible item.type.toList = visible type.text) ∧
    (∀ head text, Opens "type" [name.letters, ['=']] head → text = head ++ typed ++ [';'] → ∃ declared,
      (scan (text ++ tail)).declared.types = declared :: (scan tail).declared.types.map (TypeAlias.behind text) ∧
      declared.name = name.name ∧ visible declared.definition.toList = visible type.text) := by
  have loose := type.loose typed laid
  have starts := type.starts laid
  refine ⟨?_, ?_, ?_, ?_⟩
  · intro head inner text opens blank split
    obtain ⟨circuit, block, circuits, blocks, named, blockNamed, bodyStart, bodyEnd, shown⟩ :=
      circuit_typed laid opens blank split tail
    exact ⟨circuit, block, circuits, blocks, named, blockNamed, bodyStart, bodyEnd, shown,
      by rw [shown, visible_takeWhile_iff laid]⟩
  · intro head text opens split
    obtain ⟨witness, witnesses, named, written⟩ := witness_spread opens loose starts split tail
    exact ⟨witness, witnesses, named, by rw [written, visible_stripped, visible_typed laid]⟩
  · intro head text opens split
    obtain ⟨item, items, named, written⟩ := ledgerItem_spread opens loose starts split tail
    exact ⟨item, items, named, by rw [written, visible_stripped, visible_typed laid]⟩
  · intro head text opens split
    obtain ⟨declared, types, named, written⟩ := typeAlias_spread opens loose starts split tail
    exact ⟨declared, types, named, by rw [written, visible_stripped, visible_typed laid]⟩

theorem types_spread_tuple :
    Spaced (TypeExpr.tuple []).tokens "[ ]\n".toList ∧
      Opens "circuit" (signature ⟨['f'], by decide, by decide, by decide⟩ []) "circuit f( )\n: ".toList ∧ Blank [' '] ∧
      ∃ circuit block, (scan "circuit f( )\n: [ ]\n{ }".toList).declared.circuits = [circuit] ∧
        (scan "circuit f( )\n: [ ]\n{ }".toList).circuitBlocks = [block] ∧ circuit.name = "f" ∧
        block.bodyStart = 20 ∧ block.bodyEnd = 21 ∧ visible circuit.returnType.toList = ['[', ']'] := by
  have laid : Spaced (TypeExpr.tuple []).tokens "[ ]\n".toList :=
    Spaced.cons_iff.mpr ⟨[' '], "]\n".toList, rfl, by decide,
      Spaced.cons_iff.mpr ⟨['\n'], [], rfl, by decide, .nil⟩⟩
  have opens : Opens "circuit" (signature ⟨['f'], by decide, by decide, by decide⟩ []) "circuit f( )\n: ".toList :=
    ⟨[' '], "f( )\n: ".toList, rfl, by decide, by decide,
      Spaced.cons_iff.mpr ⟨[], "( )\n: ".toList, rfl, by decide,
        Spaced.cons_iff.mpr ⟨[' '], ")\n: ".toList, rfl, by decide,
          Spaced.cons_iff.mpr ⟨['\n'], ": ".toList, rfl, by decide,
            Spaced.cons_iff.mpr ⟨[' '], [], rfl, by decide, .nil⟩⟩⟩⟩⟩
  obtain ⟨circuit, block, circuits, blocks, named, -, bodyStart, bodyEnd, shown, -⟩ :=
    (types_spread ⟨['f'], by decide, by decide, by decide⟩ [] (.tuple []) _ [] laid).1 _ [' '] _ opens (by decide) rfl
  have none : (scan []).declared.circuits = [] ∧ (scan []).circuitBlocks = [] := by decide +kernel
  rw [none.1] at circuits
  rw [none.2] at blocks
  rw [bodyStart] at bodyEnd
  exact ⟨laid, opens, by decide, circuit, block, circuits, blocks, named, bodyStart, bodyEnd, shown⟩

/-- A newline inside its type cuts the type of a circuit. -/
theorem not_spread_newline :
    ¬∀ (name : Ident) (params : List Param) (type : TypeExpr) (head typed inner : List Char),
      Spaced type.tokens typed → Opens "circuit" (signature name params) head → Blank inner →
      ∃ circuit, (scan (head ++ typed ++ '{' :: (inner ++ ['}']))).declared.circuits = [circuit] ∧
        visible circuit.returnType.toList = visible type.text := by
  intro whole
  have laid : Spaced [['M', 'a', 'p'], ['<'], "Field".toList, ['>']] "Map<\nField> ".toList :=
    Spaced.cons_iff.mpr ⟨[], "<\nField> ".toList, rfl, by decide,
      Spaced.cons_iff.mpr ⟨['\n'], "Field> ".toList, rfl, by decide,
        Spaced.cons_iff.mpr ⟨[], "> ".toList, rfl, by decide,
          Spaced.cons_iff.mpr ⟨[' '], [], rfl, by decide, .nil⟩⟩⟩⟩
  have opens : Opens "circuit" (signature ⟨['f'], by decide, by decide, by decide⟩ []) "circuit f(): ".toList :=
    ⟨[' '], "f(): ".toList, rfl, by decide, by decide,
      Spaced.cons_iff.mpr ⟨[], "(): ".toList, rfl, by decide,
        Spaced.cons_iff.mpr ⟨[], "): ".toList, rfl, by decide,
          Spaced.cons_iff.mpr ⟨[], ": ".toList, rfl, by decide,
            Spaced.cons_iff.mpr ⟨[' '], [], rfl, by decide, .nil⟩⟩⟩⟩⟩
  obtain ⟨circuit, circuits, shown⟩ := whole ⟨['f'], by decide, by decide, by decide⟩ []
    (.applied ⟨['M', 'a', 'p'], by decide, by decide, by decide⟩
      [.named ⟨"Field".toList, by decide, by decide, by decide⟩]) _ _ [] laid opens (by decide)
  have cut : (scan "circuit f(): Map<\nField> {}".toList).declared.circuits.map (·.returnType) = ["Map<"] := by
    decide +kernel
  have returnType : circuit.returnType = "Map<" := by
    have same : [circuit.returnType] = ["Map<"] := by
      rw [← cut]
      exact (congrArg (List.map (·.returnType)) circuits).symm
    exact List.head_eq_of_cons_eq same
  rw [returnType] at shown
  exact absurd shown (by decide)

end Types

end ContractInspector.Contract
