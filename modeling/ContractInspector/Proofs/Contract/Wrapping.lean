import ContractInspector.Proofs.Contract.Blocks
import ContractInspector.Proofs.Source.Wrapping

/-! Scanning a source in which a piece has been wrapped as the argument of a call. Constructors are found
where they have been moved, with the same parameters, unless the piece is a part of these
(`constructor_place`), and what has been declared as a ledger field is still declared (`item_place`). -/
namespace ContractInspector.Contract

open Source (Balanced Block Paired Wrapping maskAll)
open Text (Match Pattern StandsAt isBlank isWord placeAt slice)

variable {wrapping : Wrapping} {text head name : List Char} {n : Nat} {found : Match} {block : CodeBlock}
  {parens : Block}

/-- A block in the source after a wrapping. -/
def CodeBlock.moved (wrapping : Wrapping) (block : CodeBlock) : CodeBlock :=
  { block with
    bodyStart := wrapping.place (block.bodyStart - 1) + 1
    bodyEnd := wrapping.place block.bodyEnd }

section Items

variable {name' part rest front : List Char} {word : String} {slot : Nat} {captures : List Text.Capture}
  {outcome : Text.Outcome}

/-- A modifier with the blanks behind it, or nothing. -/
def Flagged (word : String) (part : List Char) : Prop :=
  part = [] ∨ ∃ gap, part = word.toList ++ gap ∧ gap ≠ [] ∧ ∀ c ∈ gap, isBlank c = true

/-- The beginning of a ledger item, up to the colon behind its name. -/
structure ItemHead (name head : List Char) : Prop where
  split : ∃ first second gap blanks,
    head = first ++ (second ++ ("ledger".toList ++ (gap ++ (name ++ blanks)))) ++ [':'] ∧
      Flagged "export" first ∧ Flagged "sealed" second ∧ gap ≠ [] ∧ (∀ c ∈ gap, isBlank c = true) ∧
      ∀ c ∈ blanks, isBlank c = true
  nonempty : name ≠ []
  letters : ∀ c ∈ name, isWord c = true

theorem flagged_of_mem (way : outcome ∈ (Forms.modified slot word).outcomes (.between front text) captures) :
    ∃ part rest captured, text = part ++ rest ∧ Flagged word part ∧
      outcome = (.between (front ++ part) rest, captured) := by
  rcases Pattern.mem_outcomes_optional.mp way with taken | rfl
  · obtain ⟨_, way, behind⟩ := Pattern.mem_outcomes_append.mp taken
    obtain ⟨_, spelled, rfl⟩ := List.mem_map.mp way
    obtain ⟨rest, rfl, rfl⟩ := Pattern.mem_outcomes_text.mp spelled
    obtain ⟨gap, rest, rfl, some, blank, rfl⟩ := Pattern.mem_outcomes_oneOrMore.mp behind
    exact ⟨word.toList ++ gap, rest, _, by simp, .inr ⟨gap, rfl, some, blank⟩, by rw [List.append_assoc]⟩
  · exact ⟨[], text, captures, rfl, .inl rfl, by simp⟩

theorem exists_flagged (flagged : Flagged word part) (slot : Nat) (front rest : List Char)
    (captures : List Text.Capture) : ∃ captured, (.between (front ++ part) rest, captured) ∈
      (Forms.modified slot word).outcomes (.between front (part ++ rest)) captures := by
  rcases flagged with rfl | ⟨gap, rfl, some, blank⟩
  · exact ⟨captures, Pattern.mem_outcomes_optional.mpr (.inr (by simp))⟩
  · let captured := Pattern.captureOf slot front word.toList (gap ++ rest) :: captures
    have spelled : (.between (front ++ word.toList) (gap ++ rest), captured) ∈
        (Pattern.capture slot (.word word)).outcomes (.between front (word.toList ++ (gap ++ rest))) captures := by
      rw [Pattern.outcomes, List.mem_map]
      exact ⟨_, Pattern.mem_outcomes_text.mpr ⟨gap ++ rest, rfl, rfl⟩, by simp [captured, Pattern.captureOf]⟩
    have spaced : (.between (front ++ word.toList ++ gap) rest, captured) ∈
        Pattern.gap.outcomes (.between (front ++ word.toList) (gap ++ rest)) captured :=
      Pattern.mem_outcomes_oneOrMore.mpr ⟨gap, rest, rfl, some, blank, rfl⟩
    rw [List.append_assoc, ← List.append_assoc front]
    exact ⟨captured, Pattern.mem_outcomes_optional.mpr (.inl (Pattern.mem_outcomes_append.mpr ⟨_, spelled, spaced⟩))⟩

theorem Flagged.starts (flagged : Flagged word part) (first : word.toList.head?.any isWord = true)
    (behind : rest.head?.any isWord = true) : (part ++ rest).head?.any isWord = true := by
  rcases flagged with rfl | ⟨gap, rfl, -, -⟩
  · exact behind
  · exact Text.head_append (Text.head_append first _) _

theorem Flagged.chars (flagged : Flagged word part) (letters : ∀ c ∈ word.toList, isWord c = true) :
    ∀ c ∈ part, isWord c = true ∨ isBlank c = true := by
  rcases flagged with rfl | ⟨gap, rfl, -, blank⟩
  · simp
  · exact fun c member => (List.mem_append.mp member).imp (letters c) (blank c)

/-- The text of a beginning in front of its colon. -/
theorem ItemHead.exists_stem (item : ItemHead name head) : ∃ stem, head = stem ++ [':'] ∧
    stem.head?.any isWord = true ∧ ∀ c ∈ stem, isWord c = true ∨ isBlank c = true := by
  obtain ⟨first, second, gap, blanks, rfl, one, two, -, between, blank⟩ := item.split
  have inLedger : ∀ c ∈ "ledger".toList, isWord c = true := by decide
  have inFirst := one.chars (by decide)
  have inSecond := two.chars (by decide)
  have starts : "ledger".toList.head?.any isWord = true := by decide
  refine ⟨_, rfl, one.starts (by decide) (two.starts (by decide) (Text.head_append starts _)), ?_⟩
  generalize "ledger".toList = ledger at *
  intro c member
  simp only [List.mem_append] at member
  rcases member with member | member | member | member | member | member
  · exact inFirst c member
  · exact inSecond c member
  · exact .inl (inLedger c member)
  · exact .inr (between c member)
  · exact .inl (item.letters c member)
  · exact .inr (blank c member)

theorem ItemHead.ne_nil (item : ItemHead name head) : head ≠ [] := by
  obtain ⟨stem, rfl, -, -⟩ := item.exists_stem
  simp

theorem last_word {lead gap blanks : List Char} (letters : ∀ c ∈ name, isWord c = true) (nonempty : name ≠ [])
    (some : gap ≠ []) (between : ∀ c ∈ gap, isBlank c = true) (blank : ∀ c ∈ blanks, isBlank c = true) :
    (((lead ++ (gap ++ (name ++ blanks))).reverse.dropWhile isBlank).takeWhile isWord).reverse = name := by
  obtain ⟨init, c, rfl⟩ := (List.eq_nil_or_concat' gap).resolve_left some
  obtain ⟨letter, d, rfl⟩ := (List.eq_nil_or_concat' name).resolve_left nonempty
  have isLetter := letters d (by simp)
  have other := Text.isWord_of_isBlank (between c (by simp))
  have letters' : ∀ e ∈ letter.reverse, isWord e = true := fun e member =>
    letters e (List.mem_append_left _ (List.mem_reverse.mp member))
  have blank' : ∀ e ∈ blanks.reverse, isBlank e = true := fun e member => blank e (List.mem_reverse.mp member)
  have reversed : (lead ++ (init ++ [c] ++ (letter ++ [d] ++ blanks))).reverse =
      blanks.reverse ++ d :: (letter.reverse ++ c :: (init.reverse ++ lead.reverse)) := by simp
  rw [reversed, List.dropWhile_append_of_pos blank', List.dropWhile_cons_of_neg (by simp [Text.isBlank_of_isWord isLetter]),
    List.takeWhile_cons_of_pos isLetter, List.takeWhile_append_of_pos letters',
    List.takeWhile_cons_of_neg (by simp [other])]
  simp

/-- A beginning determines the name that it ends with. -/
theorem ItemHead.name_unique (item : ItemHead name head) (other : ItemHead name' head) : name = name' := by
  obtain ⟨first, second, gap, blanks, rfl, -, -, some, between, blank⟩ := item.split
  obtain ⟨first', second', gap', blanks', same, -, -, some', between', blank'⟩ := other.split
  have stems := (List.append_inj' same rfl).1
  rw [← List.append_assoc second, ← List.append_assoc first, ← List.append_assoc second',
    ← List.append_assoc first'] at stems
  have one := @last_word _ (first ++ (second ++ "ledger".toList)) gap blanks item.letters item.nonempty some
    between blank
  have two := @last_word _ (first' ++ (second' ++ "ledger".toList)) gap' blanks' other.letters other.nonempty
    some' between' blank'
  rw [← one, ← two, stems]

theorem text_of_captures {front' payload rest' : List Char}
    (captured : found.captures = Pattern.captureOf Forms.payload front' payload rest' ::
      Pattern.captureOf Forms.name front name rest :: captures) : found.text Forms.name = name := by
  rw [Match.text, Match.text?, Match.capture?, captured, List.find?_cons_of_neg (by simp; decide),
    List.find?_cons_of_pos (by simp)]
  simp

/-- Where a ledger item is found, its beginning stands, and something of its type behind it. -/
theorem standsAt_of_item (inside : n ≤ text.length)
    (matched : Forms.ledgerItem.matchAt? (placeAt text n) = some found) :
    ∃ head, ItemHead (found.text Forms.name) head ∧ StandsAt isWord head text n ∧
      ∃ c, text[n + head.length]? = some c ∧ c ≠ ';' := by
  obtain ⟨front, behind, outcome, rfl, rfl, way, rfl⟩ := Pattern.exists_way inside matched
  obtain ⟨_, way, typed⟩ := Pattern.mem_outcomes_append.mp (List.mem_of_mem_head? way)
  obtain ⟨_, way, spaced⟩ := Pattern.mem_outcomes_append.mp way
  obtain ⟨_, way, colon⟩ := Pattern.mem_outcomes_append.mp way
  obtain ⟨_, way, passed⟩ := Pattern.mem_outcomes_append.mp way
  obtain ⟨_, way, named⟩ := Pattern.mem_outcomes_append.mp way
  obtain ⟨_, way, between⟩ := Pattern.mem_outcomes_append.mp way
  obtain ⟨_, way, spelled⟩ := Pattern.mem_outcomes_append.mp way
  obtain ⟨_, way, second⟩ := Pattern.mem_outcomes_append.mp way
  obtain ⟨_, edge, first⟩ := Pattern.mem_outcomes_append.mp way
  obtain ⟨bounded, rfl⟩ := Pattern.mem_outcomes_wordBoundary.mp edge
  obtain ⟨exported, _, _, rfl, isExported, rfl⟩ := flagged_of_mem first
  obtain ⟨modifier, _, _, rfl, isSealed, rfl⟩ := flagged_of_mem second
  obtain ⟨_, rfl, rfl⟩ := Pattern.mem_outcomes_text.mp spelled
  obtain ⟨gap, _, rfl, some, blank, rfl⟩ := Pattern.mem_outcomes_oneOrMore.mp between
  obtain ⟨name, _, rfl, nonempty, letters, rfl⟩ := Pattern.mem_outcomes_capture.mp named
  obtain ⟨behind, _, rfl, blanks, rfl⟩ := Pattern.mem_outcomes_many.mp passed
  obtain ⟨_, rfl, rfl⟩ := Pattern.mem_outcomes_text.mp colon
  obtain ⟨space, _, rfl, spaces, rfl⟩ := Pattern.mem_outcomes_many.mp spaced
  obtain ⟨payload, rest, rfl, some', held, same⟩ := Pattern.mem_outcomes_capture.mp typed
  let head := exported ++ (modifier ++ ("ledger".toList ++ (gap ++ (name ++ behind)))) ++ [':']
  have item : ItemHead name head :=
    ⟨⟨exported, modifier, gap, behind, rfl, isExported, isSealed, some, blank, blanks⟩, nonempty, letters⟩
  have split : front ++ (exported ++ (modifier ++ ("ledger".toList ++ (gap ++ (name ++ (behind ++
      (":".toList ++ (space ++ (payload ++ rest))))))))) = front ++ (head ++ (space ++ (payload ++ rest))) := by
    have colon : ":".toList = [':'] := rfl
    rw [colon]
    simp only [head, List.append_assoc]
  obtain ⟨stem, shape, starts, -⟩ := item.exists_stem
  rw [List.append_cancel_left split, Text.atWordBoundary_between, Bool.not_eq_true'] at bounded
  · rw [split]
    refine ⟨head, ?_, (Text.standsAt_iff item.ne_nil).mpr ⟨front, _, rfl, rfl, bounded⟩, ?_⟩
    · rw [text_of_captures (congrArg Prod.snd same)]
      exact item
    · rw [← List.append_assoc, ← List.length_append, List.getElem?_append_right (Nat.le_refl _), Nat.sub_self]
      cases space with
      | nil =>
        obtain ⟨c, others, rfl⟩ := List.exists_cons_of_ne_nil some'
        exact ⟨c, rfl, by simpa using held c List.mem_cons_self⟩
      | cons c others =>
        refine ⟨c, rfl, ?_⟩
        rintro rfl
        exact nomatch spaces ';' List.mem_cons_self
  · rw [shape, List.append_assoc]
    exact Text.head_append starts _

/-- There is one beginning at most at a place. -/
theorem ItemHead.head_unique {head' : List Char} (item : ItemHead name head) (other : ItemHead name' head')
    (here : head <+: text) (here' : head' <+: text) : head = head' := by
  obtain ⟨stem, rfl, -, chars⟩ := item.exists_stem
  obtain ⟨stem', rfl, -, chars'⟩ := other.exists_stem
  obtain ⟨rest, rfl⟩ := here
  obtain ⟨rest', same⟩ := here'
  have spans {stem : List Char} (chars : ∀ c ∈ stem, isWord c = true ∨ isBlank c = true) (rest : List Char) :
      Text.Spans (fun c => isWord c || isBlank c) stem (':' :: rest) :=
    Text.spans_cons (fun c member => by simpa using chars c member) (by decide)
  rw [List.append_assoc, List.append_assoc] at same
  obtain ⟨stems, -⟩ := (spans chars' rest').unique (spans chars rest) same
  rw [stems]

/-- Behind a word boundary, the beginning of a ledger item and something of its type match. -/
theorem exists_matchAt?_ledgerItem {c : Char} (item : ItemHead name head)
    (whole : front.getLast?.any isWord = false) (other : c ≠ ';') (rest : List Char) :
    ∃ found, Forms.ledgerItem.matchAt? (.between front (head ++ c :: rest)) = some found := by
  have bounded : (Text.Cursor.between front (head ++ c :: rest)).atWordBoundary = true := by
    obtain ⟨stem, shape, starts, -⟩ := item.exists_stem
    rw [Text.atWordBoundary_between, whole]
    · rfl
    · rw [shape, List.append_assoc]
      exact Text.head_append starts _
  obtain ⟨first, second, gap, blanks, split, one, two, some, between, blank⟩ := item.split
  have spread : head ++ c :: rest = first ++ (second ++ ("ledger".toList ++ (gap ++ (name ++ (blanks ++
      (":".toList ++ (c :: rest))))))) := by
    have colon : ":".toList = [':'] := rfl
    rw [split, colon]
    simp only [List.append_assoc]
  rw [spread] at bounded ⊢
  have named (front rest : List Char) (captures : List Text.Capture) :
      (.between (front ++ name) rest, Pattern.captureOf Forms.name front name rest :: captures) ∈
        Forms.named.outcomes (.between front (name ++ rest)) captures :=
    Pattern.mem_outcomes_capture.mpr ⟨name, rest, rfl, item.nonempty, item.letters, rfl⟩
  have unspaced (front rest : List Char) (captures : List Text.Capture) :
      (.between front rest, captures) ∈ Pattern.space.outcomes (.between front rest) captures :=
    Pattern.mem_outcomes_many.mpr ⟨[], rest, rfl, by simp, by simp⟩
  have typed (front rest : List Char) (captures : List Text.Capture) :
      (.between (front ++ [c]) rest, Pattern.captureOf Forms.payload front [c] rest :: captures) ∈
        (Pattern.capture Forms.payload (Forms.upTo [';'])).outcomes (.between front (c :: rest)) captures :=
    Pattern.mem_outcomes_capture.mpr ⟨[c], rest, rfl, by simp, by simpa using other, rfl⟩
  obtain ⟨_, exported⟩ := exists_flagged one Forms.exported front
    (second ++ ("ledger".toList ++ (gap ++ (name ++ (blanks ++ (":".toList ++ (c :: rest))))))) []
  obtain ⟨_, isSealed⟩ := exists_flagged two Forms.modifier (front ++ first)
    ("ledger".toList ++ (gap ++ (name ++ (blanks ++ (":".toList ++ (c :: rest)))))) _
  have way := Pattern.mem_outcomes_append.mpr ⟨_, Pattern.mem_outcomes_wordBoundary.mpr ⟨bounded, rfl⟩, exported⟩
  have way := Pattern.mem_outcomes_append.mpr ⟨_, way, isSealed⟩
  have way := Pattern.mem_outcomes_append.mpr ⟨_, way, Pattern.mem_outcomes_text.mpr ⟨_, rfl, rfl⟩⟩
  have way := Pattern.mem_outcomes_append.mpr ⟨_, way,
    Pattern.mem_outcomes_oneOrMore.mpr ⟨gap, _, rfl, some, between, rfl⟩⟩
  have way := Pattern.mem_outcomes_append.mpr ⟨_, way, named _ _ _⟩
  have way := Pattern.mem_outcomes_append.mpr ⟨_, way, Pattern.mem_outcomes_many.mpr ⟨blanks, _, rfl, blank, rfl⟩⟩
  have way := Pattern.mem_outcomes_append.mpr ⟨_, way, Pattern.mem_outcomes_text.mpr ⟨_, rfl, rfl⟩⟩
  have way := Pattern.mem_outcomes_append.mpr ⟨_, way, unspaced _ _ _⟩
  exact Pattern.exists_matchAt?_of_mem (Pattern.mem_outcomes_append.mpr ⟨_, way, typed _ _ _⟩)

/-- Where the beginning of a ledger item stands and something of its type behind it, the item is found. -/
theorem exists_item {c : Char} (item : ItemHead name head) (stands : StandsAt isWord head text n)
    (next : text[n + head.length]? = some c) (other : c ≠ ';') :
    ∃ found, Forms.ledgerItem.matchAt? (placeAt text n) = some found ∧ found.text Forms.name = name := by
  have inside : n ≤ text.length := by
    have bound := (List.getElem?_eq_some_iff.mp next).1
    omega
  obtain ⟨found, matched⟩ : ∃ found, Forms.ledgerItem.matchAt? (placeAt text n) = some found := by
    obtain ⟨front, rest, rfl, rfl, whole⟩ := (Text.standsAt_iff item.ne_nil).mp stands
    rw [← List.append_assoc, ← List.length_append, List.getElem?_append_right (Nat.le_refl _), Nat.sub_self,
      ← List.head?_eq_getElem?, List.head?_eq_some_iff] at next
    obtain ⟨rest, rfl⟩ := next
    rw [Text.placeAt_length]
    exact exists_matchAt?_ledgerItem item whole other rest
  refine ⟨found, matched, ?_⟩
  obtain ⟨head', item', stands', -⟩ := standsAt_of_item inside matched
  obtain rfl := item.head_unique item' stands.here stands'.here
  exact item'.name_unique item

theorem ItemHead.free {c : Char} (item : ItemHead name head) (noWord : isWord c = false)
    (visible : isBlank c = false) (other : c ≠ ':') : c ∉ head := by
  obtain ⟨stem, rfl, -, chars⟩ := item.exists_stem
  intro member
  rcases List.mem_append.mp member with inStem | last
  · rcases chars c inStem with letter | blank
    · exact nomatch noWord.symm.trans letter
    · exact nomatch visible.symm.trans blank
  · exact other (List.mem_singleton.mp last)

/-- The colon of a beginning is its last character. -/
theorem ItemHead.colon_iff {i : Nat} (item : ItemHead name head) :
    head[i]? = some ':' ↔ i + 1 = head.length := by
  obtain ⟨stem, rfl, -, chars⟩ := item.exists_stem
  rw [List.length_append, List.length_singleton, Nat.add_right_cancel_iff]
  rcases Nat.lt_trichotomy i stem.length with inStem | rfl | behind
  · rw [List.getElem?_append_left inStem, List.getElem?_eq_getElem inStem]
    refine iff_of_false (fun same => ?_) (by omega)
    have held := chars _ (List.getElem_mem inStem)
    rw [Option.some.inj same] at held
    exact absurd held (by decide)
  · simp
  · rw [List.getElem?_eq_none (by simp; omega)]
    exact iff_of_false (by simp) (by omega)

theorem ItemHead.exists_first (item : ItemHead name head) : ∃ first d others, head = first ++ d :: others ∧
    first ≠ [] ∧ (∀ c ∈ first, isWord c = true) ∧ isWord d = false ∧ d ≠ '(' := by
  obtain ⟨stem, rfl, starts, chars⟩ := item.exists_stem
  obtain ⟨first, behind, rfl, spans⟩ := Text.exists_spans isWord stem
  have nonempty : first ≠ [] := by
    rintro rfl
    rw [List.nil_append, Option.any_eq_true] at starts
    obtain ⟨c, here, letter⟩ := starts
    exact Bool.false_ne_true ((spans.ends c here).symm.trans letter)
  cases behind with
  | nil => exact ⟨first, ':', [], by simp, nonempty, spans.inside, by decide, by decide⟩
  | cons d others =>
    refine ⟨first, d, others ++ [':'], by simp, nonempty, spans.inside, spans.ends d rfl, ?_⟩
    rintro rfl
    exact absurd (chars '(' (List.mem_append_right _ List.mem_cons_self)) (by decide)

/-- A ledger item runs up to its semicolon. -/
theorem runsTo_ledgerItem : Forms.ledgerItem.RunsTo ';' where
  solid := rfl
  unread := by decide
  stops := by
    refine Pattern.Stops.append (Pattern.Stops.capture (Pattern.stops_oneOrMore fun d other => ?_) _) _
    simpa using other

/-- An item that stands behind another one's beginning stands behind its colon. -/
theorem ItemHead.behind {head' : List Char} {c : Char} {m : Nat} (item : ItemHead name head)
    (earlier : ItemHead name' head') (here : head <+: text.drop n) (there : head' <+: text.drop m)
    (before : m < n) (ends : text[m + head'.length]? = some ';') (next : text[n + head.length]? = some c)
    (other : c ≠ ';') : m + head'.length < n := by
  by_contra reaches
  have positive : 0 < head.length := List.length_pos_iff.mpr item.ne_nil
  rcases Nat.lt_or_ge (m + head'.length) (n + head.length) with inside | beyond
  · have within : m + head'.length - n < head.length := by omega
    have semicolon := Text.getElem?_of_standing here within
    rw [Nat.add_sub_cancel' (Nat.le_of_not_lt reaches), ends] at semicolon
    exact item.free (by decide) (by decide) (by decide) (Option.some.inj semicolon ▸ List.getElem_mem within)
  · have within : n + (head.length - 1) - m < head'.length := by omega
    have last := Text.getElem?_of_standing there within
    have colon := item.colon_iff.mpr (Nat.sub_add_cancel positive)
    have within' : head.length - 1 < head.length := by omega
    rw [Nat.add_sub_cancel' (by omega), Text.getElem?_of_standing here within',
      ← List.getElem?_eq_getElem within', ← List.getElem?_eq_getElem within, colon, eq_comm,
      earlier.colon_iff] at last
    have same : n + head.length = m + head'.length := by omega
    rw [same, ends, Option.some.injEq] at next
    exact other next.symm

section Seated

variable (seated : wrapping.Seated)
include seated

theorem standsAt_item_place (item : ItemHead name head) :
    StandsAt isWord head wrapping.after (wrapping.place n) ↔ StandsAt isWord head wrapping.before n := by
  refine seated.standsAt_place item.ne_nil ?_ ?_ ?_ (by decide) (by decide)
  · exact fun member => item.free (by decide) (by decide) (by decide) (List.dropLast_subset _ member)
  · exact item.free (by decide) (by decide) (by decide)
  · exact item.free (by decide) (by decide) (by decide)

/-- Behind the beginning of an item stands what stood there before, unless its type was missing. -/
theorem next_item_place (item : ItemHead name head) (here : head <+: wrapping.before.drop n) :
    wrapping.after[wrapping.place n + head.length]? = wrapping.before[n + head.length]? ∨
      n + head.length = wrapping.front.length + wrapping.piece.length := by
  have equals : '=' ∉ head := item.free (by decide) (by decide) (by decide)
  have nonempty := item.ne_nil
  rcases seated.next_place nonempty (fun member => equals (List.dropLast_subset _ member))
    (item.free (by decide) (by decide) (by decide)) here with same | ⟨front, -⟩ | ⟨piece, -, -⟩
  · exact .inl same
  · have positive := List.length_pos_iff.mpr nonempty
    have inside : head.length - 1 < head.length := by omega
    have last := Text.getElem?_of_standing here inside
    rw [seated.before_front (by omega)] at last
    exact absurd (Option.some.inj last ▸ List.getElem_mem inside) equals
  · exact .inr piece

/-- What has been declared as a ledger item is still declared. -/
theorem item_place (member : found ∈ Forms.ledgerItem.matchesIn wrapping.before) :
    ∃ moved ∈ Forms.ledgerItem.matchesIn wrapping.after, moved.text Forms.name = found.text Forms.name := by
  obtain ⟨n, inside, matched, first⟩ := runsTo_ledgerItem.mem_matchesIn_iff.mp member
  obtain ⟨head, item, stands, c, next, other⟩ := standsAt_of_item inside matched
  have moved := next_item_place seated item stands.here
  have semicolon := seated.before_rest
  have next' : wrapping.after[wrapping.place n + head.length]? = some c := by
    rcases moved with same | piece
    · rw [same, next]
    · rw [piece, semicolon, Option.some.injEq] at next
      exact absurd next.symm other
  obtain ⟨found', matched', name⟩ := exists_item item ((standsAt_item_place seated item).mpr stands) next' other
  have bound : wrapping.place n ≤ wrapping.after.length := by
    have := (List.getElem?_eq_some_iff.mp next').1
    omega
  refine ⟨found', runsTo_ledgerItem.mem_matchesIn_iff.mpr ⟨_, bound, matched', fun m before earlier => ?_⟩, name⟩
  -- what comes earlier after the wrapping came earlier before, or an item there has got a type
  obtain ⟨here, earlier⟩ := Option.isSome_iff_exists.mp earlier
  obtain ⟨head', item', stands', d, next', other'⟩ := standsAt_of_item (by omega) earlier
  obtain ⟨word, e, others, shape, nonempty, letters, noWord, noParen⟩ := item'.exists_first
  obtain ⟨m, rfl⟩ := seated.exists_place_of_standsAt nonempty letters noWord (fun _ => id) (.inr noParen)
    (shape ▸ stands')
  have standsThere := (standsAt_item_place seated item').mp stands'
  have less := Wrapping.lt_of_place_lt before
  rw [wrapping.mem_slice_place ⟨seated.not_mem_word (by decide), by decide, by decide⟩]
  rcases next_item_place seated item' standsThere.here with same | piece
  · rw [same] at next'
    obtain ⟨there, matchedThere, -⟩ := exists_item item' standsThere next' other'
    exact first m less (by rw [matchedThere]; rfl)
  · rw [← piece] at semicolon
    exact Text.mem_slice_iff.mpr ⟨_, Nat.le_add_right _ _,
      item.behind item' stands.here standsThere.here less semicolon next other, semicolon⟩

end Seated

end Items

namespace Scanned

theorem clear_place (fits : wrapping.Fits) {low high : Nat} (clear : Clear (maskAll wrapping.before) (low + 1) high) :
    Clear (maskAll wrapping.after) (wrapping.place low + 1) (wrapping.place high) := by
  have free (c : Char) (other : isWord c = false) (noOpener : c ≠ '(') (noCloser : c ≠ ')')
      (never : ∀ n, low + 1 ≤ n → n < high → (maskAll wrapping.before)[n]? ≠ some c) :
      ∀ n, wrapping.place low + 1 ≤ n → n < wrapping.place high → (maskAll wrapping.after)[n]? ≠ some c := by
    intro n above below here
    rw [fits.masked_after] at here
    obtain ⟨m, rfl⟩ := wrapping.masked.exists_place ⟨fits.not_mem_word other, noOpener, noCloser⟩ here
    rw [Wrapping.getElem?_place, ← fits.masked_before] at here
    rw [Wrapping.place_masked] at above below
    exact never m (Wrapping.lt_of_place_lt above) (Wrapping.lt_of_place_lt below) here
  intro n above below
  exact ⟨free ';' (by decide) (by decide) (by decide) (fun m le lt => (clear m le lt).1) n above below,
    free '{' (by decide) (by decide) (by decide) (fun m le lt => (clear m le lt).2) n above below⟩

theorem lineOf_place (fits : wrapping.Fits) (n : Nat) :
    (ofSource wrapping.after).lines.lineOf (wrapping.place n) = (ofSource wrapping.before).lines.lineOf n := by
  have same := wrapping.count_take_place
    ⟨fits.not_mem_word (show isWord '\n' = false by decide), by decide, by decide⟩ n
  rw [ofSource, ofSource]
  dsimp only
  rw [Source.LineIndex.lineOf_ofText, Source.LineIndex.lineOf_ofText, same]

/-- What a word opens is found where it has been moved. -/
theorem opening_place (fits : wrapping.Fits) {word : List Char} (starts : word.head?.any isWord = true)
    (letters : ∀ c ∈ word, isWord c = true)
    (member : found ∈ (Pattern.opening word).matchesIn (maskAll wrapping.before)) :
    ∃ moved ∈ (Pattern.opening word).matchesIn (maskAll wrapping.after),
      moved.start.offset = wrapping.place found.start.offset ∧
      moved.stop.offset - 1 = wrapping.place (found.stop.offset - 1) := by
  rw [fits.masked_before] at member
  rw [fits.masked_after]
  obtain ⟨n, inside, matched⟩ := Pattern.matchAt?_of_mem_matchesIn member
  rw [(Pattern.fits_of_matchAt? matched).1]
  obtain ⟨gap, blank, stands, stop⟩ := Text.standsAt_of_opening starts inside matched
  have positive : 0 < (word ++ (gap ++ ['('])).length := List.length_pos_iff.mpr (by simp)
  have free (c : Char) (visible : isBlank c = false) (noWord : isWord c = false) (noOpener : c ≠ '(') :
      c ∉ word ++ (gap ++ ['(']) := by
    simp only [List.mem_append, List.mem_singleton, not_or]
    refine ⟨fun member => ?_, fun member => ?_, noOpener⟩
    · rw [letters c member] at noWord
      contradiction
    · rw [blank c member] at visible
      contradiction
  have equals : '=' ∉ (word ++ (gap ++ ['('])).dropLast := fun member =>
    free '=' (by decide) (by decide) (by decide) (List.dropLast_subset _ member)
  have semicolon := free ';' (by decide) (by decide) (by decide)
  have standsThere := (fits.seated.standsAt_place (by simp) equals semicolon
    (free ')' (by decide) (by decide) (by decide)) (by decide) (by decide)).mpr stands
  obtain ⟨moved, matched', stop'⟩ := Text.exists_opening starts blank standsThere
  have last := fits.seated.place_prefix equals semicolon stands.here
    (show (word ++ (gap ++ ['('])).length - 1 < _ by omega)
  have inside' : wrapping.masked.place n ≤ wrapping.masked.after.length := by
    have here := Text.getElem?_of_standing standsThere.here positive
    exact Nat.le_of_lt (List.getElem?_eq_some_iff.mp here).1
  refine ⟨moved, Text.mem_matchesIn_opening starts letters inside' matched', ?_, ?_⟩
  · rw [(Pattern.fits_of_matchAt? matched').1, Wrapping.place_masked]
  · have here : found.stop.offset - 1 = n + ((word ++ (gap ++ ['('])).length - 1) := by omega
    rw [here, ← Wrapping.place_masked, last]
    omega

/-- A constructor whose parameters do not hold the piece is found where it has been moved. -/
theorem constructor_place (fits : wrapping.Fits) (balanced : Balanced '(' ')' wrapping.piece)
    (member : found ∈ (ofSource wrapping.before).matchesOf Forms.constructor)
    (parameters : (ofSource wrapping.before).blockOf? found = some parens)
    (read : (ofSource wrapping.before).constructor? found = some block)
    (apart : parens.closing < wrapping.front.length ∨ wrapping.front.length ≤ parens.opening) :
    ∃ moved ∈ (ofSource wrapping.after).matchesOf Forms.constructor,
      moved.start.offset = wrapping.place found.start.offset ∧
      (ofSource wrapping.after).blockOf? moved =
        some ⟨wrapping.place parens.opening, wrapping.place parens.closing, parens.body⟩ ∧
      (ofSource wrapping.after).constructor? moved = some (block.moved wrapping) := by
  have letters : ∀ c ∈ "constructor".toList, isWord c = true := by decide
  obtain ⟨parens', brace, parameters', bodyStart, le, clear, pair⟩ :=
    @paired_of_bodyOf? _ _ _ .constructor member read
  obtain rfl := Option.some.inj (parameters.symm.trans parameters')
  obtain ⟨moved, among, start, stop⟩ := opening_place fits rfl letters member
  have opens : (maskAll wrapping.before)[found.stop.offset - 1]? = some '(' :=
    last_char (Pattern.fits_of_mem_matchesIn member)
  have opening : parens.opening = found.stop.offset - 1 := by
    have found := parameters
    rw [blockOf?, blockAt?_ofSource, Source.blockAt?_eq opens rfl, Option.map_eq_some_iff] at found
    obtain ⟨closing, -, rfl⟩ := found
    rfl
  have parametersThere : (ofSource wrapping.after).blockOf? moved =
      some ⟨wrapping.place parens.opening, wrapping.place parens.closing, parens.body⟩ := by
    rw [blockOf?, blockAt?_ofSource] at parameters ⊢
    rw [stop, opening]
    exact fits.blockAt?_place balanced opens parameters (opening ▸ apart)
  have leThere : wrapping.place parens.closing + 1 ≤ wrapping.place brace := Wrapping.place_lt le
  have bodyThere := bodyAfter?_of_paired leThere (clear_place fits clear) (fits.paired_braces pair)
  refine ⟨moved, among, start, parametersThere, ?_⟩
  have line : (ofSource wrapping.after).lineOf moved = (ofSource wrapping.before).lineOf found := by
    rw [lineOf, lineOf, start, lineOf_place fits]
  obtain ⟨others, parametersToo, read⟩ := Option.bind_eq_some_iff.mp read
  obtain rfl := Option.some.inj (parameters.symm.trans parametersToo)
  obtain ⟨⟨bodyStart', bodyEnd⟩, -, same⟩ := Option.bind_eq_some_iff.mp read
  obtain rfl := Option.some.inj same
  dsimp only at bodyStart bodyThere
  rw [constructor?, parametersThere]
  dsimp only [Option.bind_eq_bind, Option.bind_some]
  rw [bodyThere, line, CodeBlock.moved, bodyStart, Nat.add_sub_cancel]
  rfl

end Scanned

end ContractInspector.Contract
