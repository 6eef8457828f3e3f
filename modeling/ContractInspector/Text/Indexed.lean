import ContractInspector.Text.Cursor

/-! Texts that can be entered at any offset at once, because each of their suffixes is at hand. -/
namespace ContractInspector.Text

/-- The nonempty suffixes of a text, the longest first, behind those in `found`. -/
def suffixesOnto : List Char → Array (List Char) → Array (List Char)
  | [], found => found
  | c :: rest, found => suffixesOnto rest (found.push (c :: rest))

theorem getD_suffixesOnto (text : List Char) (found : Array (List Char)) (n : Nat) :
    (suffixesOnto text found).getD n [] =
      if n < found.size then found.getD n [] else text.drop (n - found.size) := by
  induction text generalizing found with
  | nil => simp only [suffixesOnto, List.drop_nil]; split <;> simp_all
  | cons c rest ih =>
    rw [suffixesOnto, ih]
    rcases Nat.lt_trichotomy n found.size with h | h | h
    · have hn : n < (found.push (c :: rest)).size := by rw [Array.size_push]; omega
      rw [if_pos hn, if_pos h]
      simp [Array.getD, h, Array.getElem_push_lt h, Nat.lt_succ_of_lt h]
    · subst h
      simp [Array.getD]
    · have hn : ¬n < (found.push (c :: rest)).size := by rw [Array.size_push]; omega
      have hd : n - found.size = n - (found.push (c :: rest)).size + 1 := by
        rw [Array.size_push]; omega
      rw [if_neg hn, if_neg (Nat.lt_asymm h), hd, List.drop_succ_cons]

structure Indexed where
  text : List Char
  suffixes : Array (List Char)
  getD_suffixes : ∀ n, suffixes.getD n [] = text.drop n

namespace Indexed

def ofText (text : List Char) : Indexed where
  text := text
  suffixes := suffixesOnto text #[]
  getD_suffixes n := by rw [getD_suffixesOnto]; simp

/-- The text behind its first `n` characters. -/
def drop (indexed : Indexed) (n : Nat) : List Char :=
  indexed.suffixes.getD n []

theorem drop_eq (indexed : Indexed) (n : Nat) : indexed.drop n = indexed.text.drop n :=
  indexed.getD_suffixes n

/-- The characters from offset `start` up to, not including, offset `stop`. -/
def slice (indexed : Indexed) (start stop : Nat) : List Char :=
  (indexed.drop start).take (stop - start)

/-- The place before the character at an offset. -/
def cursorAt (indexed : Indexed) : (offset : Nat) → Cursor
  | 0 => .start indexed.text
  | n + 1 =>
    match indexed.drop n with
    | [] => ⟨none, [], n + 1⟩
    | c :: rest => ⟨some c, rest, n + 1⟩

end Indexed

end ContractInspector.Text
