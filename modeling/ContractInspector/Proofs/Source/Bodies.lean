import ContractInspector.Proofs.Source.Nesting
import ContractInspector.Proofs.Text.Parting

/-! The body of a block, read on its own. It is cut at two delimiters of code, so it masks as it masks in its
place, and it has the blocks that close inside of it in the whole text, and no others (`bodies_agree`). -/
namespace ContractInspector.Source

open Text (slice)

/-- A block of a text, in a longer one where the text stands behind some characters. -/
def Block.moved (count : Nat) (block : Block) : Block :=
  { block with opening := count + block.opening, closing := count + block.closing }

variable {opener closer opener' closer' : Char} {text : List Char} {start n : Nat} {block : Block}

/-- A counter that sees the front of a text only stops where it stops in the text, if that is in front. -/
theorem counterStop_take (count offset : Nat) (inside : n ≤ text.length) :
    counterStop opener closer (count + 1) offset (text.take n) =
      (counterStop opener closer (count + 1) offset text).filter (· < offset + n) := by
  have length : (text.take n).length = n := List.length_take_of_le inside
  rcases @counterStop_append opener closer count offset (text.take n) with
    ⟨stop, below, stops⟩ | ⟨next, passes⟩
  · have alone := stops []
    have whole := stops (text.drop n)
    rw [List.append_nil] at alone
    rw [List.take_append_drop] at whole
    rw [alone, whole, Option.filter_some, if_pos (by simpa [length] using below)]
  · have alone := passes []
    have whole := passes (text.drop n)
    rw [List.append_nil, counterStop] at alone
    rw [List.take_append_drop, length] at whole
    rw [alone, whole, eq_comm, Option.filter_eq_none_iff]
    intro stop stops
    simpa using le_counterStop stops

section Bodies

variable (kept : (maskAll text)[start]? = some opener) (opens : closerOf? opener = some closer)
  (found : blockAt? text start = some block)
include kept opens found

theorem cut_of_blockAt? : block.opening = start ∧ block.body = slice text (start + 1) block.closing := by
  rw [blockAt?_eq kept opens] at found
  obtain ⟨closing, -, rfl⟩ := Option.map_eq_some_iff.mp found
  exact ⟨rfl, rfl⟩

/-- At a place of a body, reading on its own finds the block of the whole text if this closes inside of the
body, and none otherwise. -/
theorem blockAt?_body (above : start < n) (below : n < block.closing) (kept' : (maskAll text)[n]? = some opener')
    (opens' : closerOf? opener' = some closer') :
    (blockAt? block.body (n - (start + 1))).map (Block.moved (start + 1)) =
      (blockAt? text n).filter (·.closing < block.closing) := by
  obtain ⟨m, rfl⟩ := Nat.exists_eq_add_of_le (show start + 1 ≤ n from above)
  obtain ⟨opening, body⟩ := cut_of_blockAt? kept opens found
  have masked : maskAll block.body = slice (maskAll text) (start + 1) block.closing :=
    opening ▸ mask_body kept opens found true
  have inside := (List.getElem?_eq_some_iff.mp (closer_of_blockAt? kept opens found)).1
  have keptAlone : (maskAll block.body)[m]? = some opener' := by
    rw [masked, ← kept', ← Text.getElem?_slice (Nat.le_add_right _ m) below, Nat.add_sub_cancel_left]
  have front : (maskAll block.body).drop (m + 1) =
      ((maskAll text).drop (start + 1 + m + 1)).take (block.closing - (start + 1 + m + 1)) := by
    rw [masked, Text.drop_slice]
    rfl
  have shorter : block.closing - (start + 1 + m + 1) ≤ ((maskAll text).drop (start + 1 + m + 1)).length := by
    rw [List.length_drop]
    omega
  -- both counters start behind the same opener, and one of them sees no more than the body
  have stops : (counterStop opener' closer' 1 (m + 1) ((maskAll block.body).drop (m + 1))).map (start + 1 + ·) =
      (counterStop opener' closer' 1 (start + 1 + m + 1) ((maskAll text).drop (start + 1 + m + 1))).filter
        (· < block.closing) := by
    rw [← counterStop_shift, ← Nat.add_assoc, front, counterStop_take 0 _ shorter, Nat.add_sub_cancel' below]
  rw [Nat.add_sub_cancel_left, blockAt?_eq keptAlone opens', blockAt?_eq kept' opens', Option.filter_map]
  simp only [Function.comp_def]
  rw [← stops, Option.map_map, Option.map_map]
  refine Option.map_congr fun stop found => ?_
  have closes : start + 1 + stop < block.closing := by
    have among := Option.mem_map_of_mem (start + 1 + ·) found
    rw [stops] at among
    exact of_decide_eq_true (Option.filter_eq_some_iff.mp among).2
  simp only [Function.comp_apply, Block.moved, body, Text.slice_slice (Nat.le_of_lt closes)]
  rfl

/-- A body masks on its own as it masks in its place, and the blocks that it has on its own are those of the
whole text that close inside of it. -/
theorem bodies_agree :
    maskAll (slice text (block.opening + 1) block.closing) =
        slice (maskAll text) (block.opening + 1) block.closing ∧
      stripComments (slice text (block.opening + 1) block.closing) =
        slice (stripComments text) (block.opening + 1) block.closing ∧
      block.body = slice text (block.opening + 1) block.closing ∧
      ∀ n opener' closer', block.opening < n → n < block.closing → (maskAll text)[n]? = some opener' →
        closerOf? opener' = some closer' →
        (blockAt? block.body (n - (block.opening + 1))).map (Block.moved (block.opening + 1)) =
          (blockAt? text n).filter (·.closing < block.closing) := by
  obtain ⟨rfl, body⟩ := cut_of_blockAt? kept opens found
  rw [← body]
  refine ⟨mask_body kept opens found true, mask_body kept opens found false, rfl, ?_⟩
  intro n opener' closer' above below kept' opens'
  exact blockAt?_body kept opens found above below kept' opens'

end Bodies

/-- A body with a block that closes inside of it, in front of a slash and behind a literal, and with one that
closes outside. -/
theorem bodies_agree_crossing :
    let text := "\x7b [')', a/] ( \x7d )".toList
    ∃ block, blockAt? text 0 = some block ∧ block.closing = 14 ∧
      maskAll (slice text 1 14) = " [' ', a/] ( ".toList ∧
      (blockAt? block.body 1).map (Block.moved 1) = some ⟨2, 10, "')', a/".toList⟩ ∧
      (blockAt? block.body 11).map (Block.moved 1) = none ∧ (blockAt? text 12).isSome := by
  intro text
  have kept : (maskAll text)[0]? = some '{' := by decide +kernel
  have square : (maskAll text)[2]? = some '[' := by decide +kernel
  have round : (maskAll text)[12]? = some '(' := by decide +kernel
  have stop : counterStop '{' '}' 1 1 ((maskAll text).drop 1) = some 14 := by decide +kernel
  have stop' : counterStop '[' ']' 1 3 ((maskAll text).drop 3) = some 10 := by decide +kernel
  have stop'' : counterStop '(' ')' 1 13 ((maskAll text).drop 13) = some 16 := by decide +kernel
  have found := blockAt?_eq kept rfl
  have inner := blockAt?_eq square rfl
  have crossing := blockAt?_eq round rfl
  rw [stop] at found
  rw [stop'] at inner
  rw [stop''] at crossing
  obtain ⟨masked, -, -, agree⟩ := bodies_agree kept rfl found
  refine ⟨_, found, rfl, ?_, ?_, ?_, ?_⟩
  · exact masked.trans (by decide +kernel)
  · exact (agree 2 '[' ']' (by decide) (by decide) square rfl).trans (by rw [inner]; rfl)
  · exact (agree 12 '(' ')' (by decide) (by decide) round rfl).trans (by rw [crossing]; rfl)
  · rw [crossing]
    rfl

end ContractInspector.Source
