import ContractInspector.Proofs.Source.Seams

/-! Balanced blocks and a counter that knows no lexemes. Both the source and its masked copy close a
block where the counter over the masked copy first reaches zero. -/
namespace ContractInspector.Source

/-- The two offsets of a block. -/
def Block.ends (block : Block) : Nat × Nat :=
  (block.opening, block.closing)

/-- The offset at which a counter that stands at `count` before `offset` first reaches zero. An
opener adds one and a closer takes one away, whatever stands around them. -/
def counterStop (opener closer : Char) : (count offset : Nat) → List Char → Option Nat
  | _, _, [] => none
  | count, offset, c :: rest =>
    let next := if c = opener then count + 1 else if c = closer then count - 1 else count
    if next = 0 then some offset else counterStop opener closer next (offset + 1) rest

/-- The counter behind the first `n` characters of a text, if one block is open before it. -/
def counterAfter (opener closer : Char) (text : List Char) (n : Nat) : Int :=
  1 + (text.take n).count opener - (text.take n).count closer

/-- How many openers more than closers stand in front of an offset. -/
def level (opener closer : Char) (text : List Char) (n : Nat) : Int :=
  (text.take n).count opener - (text.take n).count closer

variable {opener closer : Char}

theorem codeOnly_of_closerOf? (opens : closerOf? opener = some closer) :
    CodeOnly opener ∧ CodeOnly closer ∧ opener ≠ closer := by
  unfold closerOf? at opens
  split at opens <;> first | contradiction | (cases opens; decide)

section Levels

variable {text : List Char}

theorem level_add (start n : Nat) : level opener closer text (start + n) =
    level opener closer text start + level opener closer (text.drop start) n := by
  rw [level, level, level, List.take_add, List.count_append, List.count_append]
  omega

theorem level_zero (text : List Char) : level opener closer text 0 = 0 := by
  rw [level, List.take_zero, List.count_nil, List.count_nil, Int.sub_self]

theorem level_succ {c : Char} {n : Nat} (here : text[n]? = some c) :
    level opener closer text (n + 1) =
      level opener closer text n + (if c = opener then 1 else 0) - (if c = closer then 1 else 0) := by
  have only : (text.drop n).take 1 = [c] := by
    rw [List.take_one, List.head?_drop, here, Option.toList_some]
  have step : level opener closer (text.drop n) 1 =
      (if c = opener then 1 else 0) - (if c = closer then 1 else 0) := by
    rw [level, only, List.count_singleton, List.count_singleton]
    simp only [beq_iff_eq]
    split <;> split <;> rfl
  rw [level_add, step]
  omega

theorem level_cons (c : Char) (rest : List Char) (n : Nat) : level opener closer (c :: rest) (n + 1) =
    (if c = opener then 1 else 0) - (if c = closer then 1 else 0) + level opener closer rest n := by
  rw [Nat.add_comm n 1, level_add, List.drop_one, List.tail_cons, level_succ (n := 0) rfl, level_zero, Int.zero_add]

theorem counterAfter_eq (text : List Char) (n : Nat) :
    counterAfter opener closer text n = 1 + level opener closer text n :=
  Int.add_sub_assoc 1 _ _

theorem level_opener (different : opener ≠ closer) {n : Nat} (here : text[n]? = some opener) :
    level opener closer text (n + 1) = level opener closer text n + 1 := by
  rw [level_succ here, if_pos rfl, if_neg different, Int.sub_zero]

theorem level_closer (different : opener ≠ closer) {n : Nat} (here : text[n]? = some closer) :
    level opener closer text (n + 1) = level opener closer text n - 1 := by
  rw [level_succ here, if_neg different.symm, if_pos rfl, Int.add_zero]

end Levels

section Counter

theorem counterStop_skip {part : List Char} (passed : opener ∉ part ∧ closer ∉ part)
    (count offset : Nat) (rest : List Char) :
    counterStop opener closer (count + 1) offset (part ++ rest) =
      counterStop opener closer (count + 1) (offset + part.length) rest := by
  induction part generalizing offset with
  | nil => rfl
  | cons c part ih =>
    simp only [List.mem_cons, not_or] at passed
    obtain ⟨⟨notOpener, opened⟩, notCloser, closed⟩ := passed
    rw [List.cons_append, counterStop, if_neg (Ne.symm notOpener), if_neg (Ne.symm notCloser),
      if_neg (Nat.succ_ne_zero count), ih ⟨opened, closed⟩, List.length_cons,
      Nat.add_right_comm offset, Nat.add_assoc]

/-- A counter that never stops has passed only positive values, and one that stops has passed zero. -/
theorem counterStop_eq_none_iff (different : opener ≠ closer) (count offset : Nat)
    (text : List Char) :
    counterStop opener closer (count + 1) offset text = none ↔
      ∀ n, (count : Int) + counterAfter opener closer text n ≠ 0 := by
  induction text generalizing count offset with
  | nil =>
    simp only [counterStop, counterAfter, List.take_nil, List.count_nil, true_iff]
    omega
  | cons c rest ih =>
    have start : (count : Int) + counterAfter opener closer (c :: rest) 0 ≠ 0 := by
      rw [counterAfter_eq, level_zero]
      omega
    have split : (∀ n, (count : Int) + counterAfter opener closer (c :: rest) n ≠ 0) ↔
        ∀ n, (count : Int) + counterAfter opener closer (c :: rest) (n + 1) ≠ 0 :=
      ⟨fun all n => all (n + 1), fun later n => n.casesOn start later⟩
    have shift (n : Nat) : (count : Int) + counterAfter opener closer (c :: rest) (n + 1) =
        count + ((if c = opener then 1 else 0) - (if c = closer then 1 else 0)) +
          counterAfter opener closer rest n := by
      rw [counterAfter_eq, counterAfter_eq, level_cons]
      omega
    simp only [split, shift]
    rw [counterStop]
    by_cases isOpener : c = opener
    · have closes : c ≠ closer := isOpener ▸ different
      simp only [if_pos isOpener, if_neg closes, Nat.succ_ne_zero, if_false, ih, Int.sub_zero, Int.natCast_succ]
    by_cases isCloser : c = closer
    · simp only [if_neg isOpener, if_pos isCloser, Nat.add_sub_cancel]
      cases count with
      | zero =>
        have zero : counterAfter opener closer rest 0 = 1 := by simp [counterAfter]
        simp only [if_true, reduceCtorEq, false_iff, not_forall, not_not]
        exact ⟨0, by simp [zero]⟩
      | succ count => simp [ih, Int.add_neg_cancel_right]
    · simp only [if_neg isOpener, if_neg isCloser, Nat.succ_ne_zero, if_false, ih, Int.sub_zero, Int.add_zero]

/-- A counter that stops has passed only positive values before, and is at zero behind the closer. -/
theorem levels_of_counterStop (different : opener ≠ closer) {count offset stop : Nat}
    {text : List Char} (stops : counterStop opener closer (count + 1) offset text = some stop) :
    ∃ k, stop = offset + k ∧ text[k]? = some closer ∧
      (∀ n ≤ k, 0 ≤ (count : Int) + level opener closer text n) ∧
      (count : Int) + 1 + level opener closer text (k + 1) = 0 := by
  induction text generalizing count offset with
  | nil => contradiction
  | cons c rest ih =>
    have later (next : Nat)
        (step : (next : Int) = count + ((if c = opener then 1 else 0) - (if c = closer then 1 else 0)))
        (found : counterStop opener closer (next + 1) (offset + 1) rest = some stop) :
        ∃ k, stop = offset + k ∧ (c :: rest)[k]? = some closer ∧
          (∀ n ≤ k, 0 ≤ (count : Int) + level opener closer (c :: rest) n) ∧
          (count : Int) + 1 + level opener closer (c :: rest) (k + 1) = 0 := by
      obtain ⟨k, stop, here, above, back⟩ := ih found
      refine ⟨k + 1, by omega, by rw [List.getElem?_cons_succ, here], fun n le => ?_, ?_⟩
      · cases n with
        | zero =>
          rw [level_zero]
          omega
        | succ n =>
          have above := above n (Nat.le_of_succ_le_succ le)
          rw [level_cons]
          omega
      · rw [level_cons]
        omega
    rw [counterStop] at stops
    by_cases isOpener : c = opener
    · have closes : c ≠ closer := isOpener ▸ different
      simp only [if_pos isOpener, if_neg closes] at stops later
      exact later (count + 1) (by omega) (by simpa using stops)
    by_cases isCloser : c = closer
    · simp only [if_neg isOpener, if_pos isCloser] at stops later
      cases count with
      | zero =>
        obtain rfl : offset = stop := by simpa using stops
        refine ⟨0, rfl, by simp [isCloser], fun n le => ?_, ?_⟩
        · rw [Nat.le_zero.mp le, level_zero]
          omega
        · rw [level_cons, level_zero, if_neg isOpener, if_pos isCloser]
          omega
      | succ count => exact later count (by omega) (by simpa using stops)
    · simp only [if_neg isOpener, if_neg isCloser] at stops later
      exact later count (by omega) (by simpa using stops)

end Counter

section Closing

theorem Reads.masked_passed {text after : List Char} {lexeme : Lexeme} {c : Char}
    (reads : Reads text lexeme after) (codeOnly : CodeOnly c) (noCode : ∀ d, lexeme ≠ .code d) :
    c ∉ lexeme.masked true := by
  intro member
  obtain ⟨n, found⟩ := List.mem_iff_getElem?.mp member
  exact noCode c (reads.masked_codeOnly found codeOnly).2

/-- A source closes a block where the counter over its masked copy stops. -/
theorem closingFrom_eq (opens : closerOf? opener = some closer) (inner offset : Nat)
    (text : List Char) :
    closingFrom opener closer inner offset text =
      counterStop opener closer (inner + 1) offset (maskAll text) := by
  obtain ⟨openerCode, closerCode, different⟩ := codeOnly_of_closerOf? opens
  induction text using lexing_induction generalizing inner offset with
  | nil => simp [closingFrom, counterStop, maskAll]
  | @reads text lexeme after reads ih =>
    have masked : maskAll text = lexeme.masked true ++ maskAll after := reads.mask true
    have skip : (∀ d, lexeme ≠ .code d) →
        counterStop opener closer (inner + 1) offset (maskAll text) =
          counterStop opener closer (inner + 1) (offset + lexeme.length) (maskAll after) := by
      intro noCode
      rw [masked, counterStop_skip ⟨reads.masked_passed openerCode noCode,
        reads.masked_passed closerCode noCode⟩, Lexeme.length_masked, Lexeme.length_source]
    obtain ⟨c, rest, rfl, read⟩ := reads.read
    rw [closingFrom, read]
    cases lexeme with
    | code d =>
      obtain rfl : c = d := (List.cons.inj reads.source).1
      rw [masked, Lexeme.masked, List.singleton_append, counterStop]
      simp only [ih]
      by_cases isOpener : c = opener
      · simp [isOpener]
      · by_cases isCloser : c = closer
        · cases inner <;> simp [isCloser, Ne.symm different]
        · simp [isOpener, isCloser]
    | comment text => exact (ih inner _).trans (skip (by simp)).symm
    | literal quote contents closed => exact (ih inner _).trans (skip (by simp)).symm

end Closing

section Blocks

variable {text : List Char} {start : Nat}

theorem blockAt?_eq (kept : (maskAll text)[start]? = some opener)
    (opens : closerOf? opener = some closer) :
    blockAt? text start =
      (counterStop opener closer 1 (start + 1) ((maskAll text).drop (start + 1))).map
        fun closing => ⟨start, closing, Text.slice text (start + 1) closing⟩ := by
  have codeOnly := (codeOnly_of_closerOf? opens).1
  obtain ⟨-, after, here, -⟩ := code_at kept codeOnly
  have behind : text.drop (start + 1) = after := by
    rw [← List.drop_drop, here, List.drop_one, List.tail_cons]
  rw [blockAt?, here, blockFrom?]
  simp only [opens, closingFrom_eq opens, Text.slice, behind]
  rw [maskAll, maskAll, ← (seam_behind kept codeOnly).mask_drop, behind]

/-- Behind the opener of a block, masked source is at no lower level up to the closer. -/
theorem levels_of_blockAt? (kept : (maskAll text)[start]? = some opener) (opens : closerOf? opener = some closer)
    {block : Block} (found : blockAt? text start = some block) :
    ∃ k, block.opening = start ∧ block.closing = start + 1 + k ∧
      (maskAll text)[start + 1 + k]? = some closer ∧
      (∀ n ≤ k, 0 ≤ level opener closer ((maskAll text).drop (start + 1)) n) ∧
      1 + level opener closer ((maskAll text).drop (start + 1)) (k + 1) = 0 := by
  have different := (codeOnly_of_closerOf? opens).2.2
  rw [blockAt?_eq kept opens] at found
  obtain ⟨closing, stops, rfl⟩ := Option.map_eq_some_iff.mp found
  obtain ⟨k, rfl, here, above, back⟩ := @levels_of_counterStop _ _ different 0 _ _ _ stops
  rw [List.getElem?_drop] at here
  refine ⟨k, rfl, rfl, here, fun n le => ?_, by omega⟩
  have above := above n le
  omega

theorem closer_of_blockAt? (kept : (maskAll text)[start]? = some opener) (opens : closerOf? opener = some closer)
    {block : Block} (found : blockAt? text start = some block) :
    (maskAll text)[block.closing]? = some closer := by
  obtain ⟨k, -, closing, here, -⟩ := levels_of_blockAt? kept opens found
  rwa [closing]

/-- A body is masked as it is masked in its place. -/
theorem mask_body (kept : (maskAll text)[start]? = some opener)
    (opens : closerOf? opener = some closer) {block : Block} (found : blockAt? text start = some block)
    (literals : Bool) :
    mask literals block.body =
      Text.slice (mask literals text) (block.opening + 1) block.closing := by
  obtain ⟨openerCode, closerCode, -⟩ := codeOnly_of_closerOf? opens
  have closes := closer_of_blockAt? kept opens found
  rw [blockAt?_eq kept opens] at found
  obtain ⟨closing, -, rfl⟩ := Option.map_eq_some_iff.mp found
  exact (seam_behind kept openerCode).mask_slice (code_at closes closerCode).1 literals

/-- At every opening delimiter that masking keeps, the source and its masked copy have a block with
the same ends, the one that a counter finds which walks the masked copy character by character; there
is none exactly if this counter never reaches zero. The body is what stands between the ends. -/
theorem blockAt?_counter (kept : (maskAll text)[start]? = some opener)
    (opens : closerOf? opener = some closer) :
    (blockAt? text start).map Block.ends =
        (counterStop opener closer 1 (start + 1) ((maskAll text).drop (start + 1))).map
          (start, ·) ∧
      (blockAt? (maskAll text) start).map Block.ends = (blockAt? text start).map Block.ends ∧
      (blockAt? text start = none ↔
        ∀ n, counterAfter opener closer ((maskAll text).drop (start + 1)) n ≠ 0) ∧
      (∀ block ∈ blockAt? text start,
        block.body = Text.slice text (block.opening + 1) block.closing) ∧
      ∀ block ∈ blockAt? (maskAll text) start,
        block.body = Text.slice (maskAll text) (block.opening + 1) block.closing := by
  have different := (codeOnly_of_closerOf? opens).2.2
  have raw := blockAt?_eq kept opens
  have masked := blockAt?_eq ((congrArg (·[start]?) (maskAll_maskAll text)).trans kept) opens
  rw [maskAll_maskAll] at masked
  refine ⟨?_, ?_, ?_, ?_, ?_⟩
  · rw [raw, Option.map_map]
    rfl
  · rw [raw, masked, Option.map_map, Option.map_map]
    rfl
  · rw [raw, Option.map_eq_none_iff, counterStop_eq_none_iff different]
    simp
  · intro block found
    rw [raw] at found
    obtain ⟨closing, -, rfl⟩ := Option.map_eq_some_iff.mp found
    rfl
  · intro block found
    rw [masked] at found
    obtain ⟨closing, -, rfl⟩ := Option.map_eq_some_iff.mp found
    rfl

/-- A call whose literal and comment hold brackets of their own. -/
theorem blockAt?_counter_quoted :
    let text := "f(')', /* ( */ x)".toList
    (maskAll text)[1]? = some '(' ∧
      (blockAt? text 1).map Block.ends = some (1, 16) ∧
      (blockAt? (maskAll text) 1).map Block.ends = some (1, 16) := by
  intro text
  have kept : (maskAll text)[1]? = some '(' := by decide +kernel
  have counts := blockAt?_counter kept rfl
  have stop : counterStop '(' ')' 1 2 ((maskAll text).drop 2) = some 16 := by decide +kernel
  have ends : (blockAt? text 1).map Block.ends = some (1, 16) := by rw [counts.1, stop]; rfl
  exact ⟨kept, ends, counts.2.1.trans ends⟩

end Blocks

end ContractInspector.Source
