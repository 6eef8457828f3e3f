import ContractInspector.Proofs.Source.Nesting
import ContractInspector.Proofs.Source.Numbering
import ContractInspector.Proofs.Source.Plain
import ContractInspector.Proofs.Text.Standing

/-! Wrapping a piece of code as the argument of a call. Masking does the same before and after
(`Fits.masked_after`), delimiters that belonged together belong together where the wrapping has moved them
(`closing_parens`, `closing_braces`), and what stood in the text stands there (`Seated.standsAt_place`). -/
namespace ContractInspector.Source

/-- A piece of a text that is going to be the argument of a call of a word. -/
structure Wrapping where
  front : List Char
  piece : List Char
  rest : List Char
  word : List Char

namespace Wrapping

variable (wrapping : Wrapping) {n m : Nat}

/-- The call around the piece. -/
def call : List Char :=
  wrapping.word ++ '(' :: (wrapping.piece ++ [')'])

def before : List Char :=
  wrapping.front ++ (wrapping.piece ++ wrapping.rest)

def after : List Char :=
  wrapping.front ++ (wrapping.call ++ wrapping.rest)

/-- The text around the piece, masked. -/
def masked : Wrapping :=
  { wrapping with front := maskAll wrapping.front, rest := maskAll wrapping.rest }

/-- Where the character at an offset stands after the wrapping. -/
def place (n : Nat) : Nat :=
  if n < wrapping.front.length then n
  else if n < wrapping.front.length + wrapping.piece.length then n + (wrapping.word.length + 1)
  else n + (wrapping.word.length + 2)

section Places

theorem length_call : wrapping.call.length = wrapping.piece.length + (wrapping.word.length + 2) := by
  simp only [call, List.length_append, List.length_cons, List.length_nil]
  omega

variable {wrapping}

theorem place_front (inside : n < wrapping.front.length) : wrapping.place n = n :=
  if_pos inside

theorem place_piece (inside : n < wrapping.piece.length) :
    wrapping.place (wrapping.front.length + n) = wrapping.front.length + n + (wrapping.word.length + 1) := by
  rw [place, if_neg (by omega), if_pos (by omega)]

theorem place_rest : wrapping.place (wrapping.front.length + wrapping.piece.length + n) =
    wrapping.front.length + wrapping.piece.length + n + (wrapping.word.length + 2) := by
  rw [place, if_neg (by omega), if_neg (by omega)]

variable (wrapping) in
/-- An offset is in front of the piece, in it, or behind it. -/
theorem offset_cases (n : Nat) : n < wrapping.front.length ∨
    (∃ k < wrapping.piece.length, n = wrapping.front.length + k) ∨
      ∃ k, n = wrapping.front.length + wrapping.piece.length + k := by
  rcases Nat.lt_or_ge n wrapping.front.length with front | behind
  · exact .inl front
  rcases Nat.lt_or_ge n (wrapping.front.length + wrapping.piece.length) with piece | rest
  · exact .inr (.inl ⟨n - wrapping.front.length, by omega, by omega⟩)
  · exact .inr (.inr ⟨n - (wrapping.front.length + wrapping.piece.length), by omega⟩)

theorem place_lt (less : n < m) : wrapping.place n < wrapping.place m := by
  unfold place
  split <;> split <;> (try split) <;> (try split) <;> omega

variable (wrapping) in
theorem getElem?_place (n : Nat) : wrapping.after[wrapping.place n]? = wrapping.before[n]? := by
  rcases wrapping.offset_cases n with front | ⟨k, piece, rfl⟩ | ⟨k, rfl⟩
  · rw [place_front front, after, before, List.getElem?_append_left front, List.getElem?_append_left front]
  · have shift : wrapping.front.length + k + (wrapping.word.length + 1) =
        wrapping.front.length + (wrapping.word.length + (k + 1)) := by omega
    rw [place_piece piece, shift, after, before, List.getElem?_append_right (Nat.le_add_right _ _),
      List.getElem?_append_right (Nat.le_add_right _ _), Nat.add_sub_cancel_left, Nat.add_sub_cancel_left, call,
      List.append_assoc, List.getElem?_append_right (Nat.le_add_right _ _), Nat.add_sub_cancel_left,
      List.cons_append, List.getElem?_cons_succ, List.append_assoc, List.getElem?_append_left piece,
      List.getElem?_append_left piece]
  · have shift : wrapping.front.length + wrapping.piece.length + k + (wrapping.word.length + 2) =
        wrapping.front.length + (wrapping.call.length + k) := by
      rw [length_call]
      omega
    rw [place_rest, shift, after, before, Nat.add_assoc, List.getElem?_append_right (Nat.le_add_right _ _),
      List.getElem?_append_right (Nat.le_add_right _ _), Nat.add_sub_cancel_left, Nat.add_sub_cancel_left,
      List.getElem?_append_right (Nat.le_add_right _ _), List.getElem?_append_right (Nat.le_add_right _ _),
      Nat.add_sub_cancel_left, Nat.add_sub_cancel_left]

theorem getElem?_behind_front (k : Nat) :
    wrapping.after[wrapping.front.length + k]? = (wrapping.call ++ wrapping.rest)[k]? := by
  rw [after, List.getElem?_append_right (Nat.le_add_right _ _), Nat.add_sub_cancel_left]

variable (wrapping) in
/-- What stands after the wrapping stood there before, or it is a part of the call around the piece. -/
theorem place_cases (n : Nat) : (∃ m, n = wrapping.place m) ∨
    (∃ k, n = wrapping.front.length + k ∧ ∃ c, wrapping.word[k]? = some c ∧ wrapping.after[n]? = some c) ∨
      wrapping.after[n]? = some '(' ∨ wrapping.after[n]? = some ')' := by
  rcases Nat.lt_or_ge n wrapping.front.length with front | behind
  · exact .inl ⟨n, (place_front front).symm⟩
  obtain ⟨k, rfl⟩ := Nat.exists_eq_add_of_le behind
  rw [getElem?_behind_front, call, List.append_assoc, List.cons_append, List.append_assoc]
  rcases Nat.lt_trichotomy k wrapping.word.length with word | rfl | behind
  · refine .inr (.inl ⟨k, rfl, wrapping.word[k], List.getElem?_eq_getElem word, ?_⟩)
    rw [List.getElem?_append_left word, List.getElem?_eq_getElem word]
  · refine .inr (.inr (.inl ?_))
    rw [List.getElem?_append_right (Nat.le_refl _), Nat.sub_self]
    rfl
  obtain ⟨j, rfl⟩ := Nat.exists_eq_add_of_lt behind
  rw [Nat.add_assoc, List.getElem?_append_right (Nat.le_add_right _ _), Nat.add_sub_cancel_left,
    List.getElem?_cons_succ]
  rcases Nat.lt_trichotomy j wrapping.piece.length with piece | rfl | behind
  · refine .inl ⟨wrapping.front.length + j, ?_⟩
    rw [place_piece piece]
    omega
  · refine .inr (.inr (.inr ?_))
    rw [List.getElem?_append_right (Nat.le_refl _), Nat.sub_self]
    rfl
  · obtain ⟨i, rfl⟩ := Nat.exists_eq_add_of_lt behind
    refine .inl ⟨wrapping.front.length + wrapping.piece.length + i, ?_⟩
    rw [place_rest]
    omega

theorem place_succ (noFront : n + 1 ≠ wrapping.front.length)
    (noPiece : n + 1 ≠ wrapping.front.length + wrapping.piece.length) :
    wrapping.place (n + 1) = wrapping.place n + 1 := by
  unfold place
  split <;> split <;> (try split) <;> (try split) <;> omega

theorem lt_of_place_lt (less : wrapping.place n < wrapping.place m) : n < m := by
  by_contra more
  rcases Nat.eq_or_lt_of_le (Nat.le_of_not_lt more) with rfl | greater
  · exact absurd less (Nat.lt_irrefl _)
  · exact absurd less (Nat.lt_asymm (place_lt greater))

theorem le_place (n : Nat) : n ≤ wrapping.place n := by
  unfold place
  split <;> (try split) <;> omega

variable (wrapping) in
/-- A character that is not a part of the call stands where it stood before. -/
theorem exists_place {c : Char} (other : c ∉ wrapping.word ∧ c ≠ '(' ∧ c ≠ ')')
    (here : wrapping.after[n]? = some c) : ∃ m, n = wrapping.place m := by
  rcases wrapping.place_cases n with moved | ⟨k, -, d, letter, there⟩ | opens | closes
  · exact moved
  · rw [there] at here
    exact absurd (Option.some.inj here ▸ List.mem_of_getElem? letter) other.1
  · exact absurd (Option.some.inj (here.symm.trans opens)) other.2.1
  · exact absurd (Option.some.inj (here.symm.trans closes)) other.2.2

variable (wrapping) in
theorem mem_slice_place {c : Char} (other : c ∉ wrapping.word ∧ c ≠ '(' ∧ c ≠ ')') :
    c ∈ Text.slice wrapping.after (wrapping.place n) (wrapping.place m) ↔ c ∈ Text.slice wrapping.before n m := by
  rw [Text.mem_slice_iff, Text.mem_slice_iff]
  constructor
  · rintro ⟨i, above, below, here⟩
    obtain ⟨k, rfl⟩ := wrapping.exists_place other here
    rw [getElem?_place] at here
    refine ⟨k, ?_, lt_of_place_lt below, here⟩
    by_contra less
    exact absurd above (Nat.not_le_of_lt (place_lt (Nat.lt_of_not_le less)))
  · rintro ⟨i, above, below, here⟩
    refine ⟨wrapping.place i, ?_, place_lt below, by rwa [getElem?_place]⟩
    rcases Nat.eq_or_lt_of_le above with rfl | less
    · exact Nat.le_refl _
    · exact Nat.le_of_lt (place_lt less)

variable (wrapping) in
/-- A wrapping that adds no line moves nothing to another line. -/
theorem count_take_place {c : Char} (other : c ∉ wrapping.word ∧ c ≠ '(' ∧ c ≠ ')') (n : Nat) :
    (wrapping.after.take (wrapping.place n)).count c = (wrapping.before.take n).count c := by
  have call : wrapping.word.count c = 0 := List.count_eq_zero_of_not_mem other.1
  have first : ['('].count c = 0 := by simpa [List.count_eq_zero] using other.2.1
  have last : [')'].count c = 0 := by simpa [List.count_eq_zero] using other.2.2
  rcases wrapping.offset_cases n with front | ⟨k, piece, rfl⟩ | ⟨k, rfl⟩
  · rw [place_front front, after, before, List.take_append_of_le_length (Nat.le_of_lt front),
      List.take_append_of_le_length (Nat.le_of_lt front)]
  · have shift : wrapping.front.length + k + (wrapping.word.length + 1) =
        wrapping.front.length + ((wrapping.word ++ ['(']).length + k) := by
      rw [List.length_append, List.length_singleton]
      omega
    have split : wrapping.call ++ wrapping.rest =
        (wrapping.word ++ ['(']) ++ (wrapping.piece ++ ')' :: wrapping.rest) := by simp [Wrapping.call]
    rw [place_piece piece, shift, after, before, split, List.take_length_add_append, List.take_length_add_append,
      List.take_length_add_append, List.take_append_of_le_length (Nat.le_of_lt piece),
      List.take_append_of_le_length (Nat.le_of_lt piece)]
    simp only [List.count_append]
    omega
  · have shift : wrapping.front.length + wrapping.piece.length + k + (wrapping.word.length + 2) =
        wrapping.front.length + (wrapping.call.length + k) := by
      rw [length_call]
      omega
    have whole : wrapping.call.count c = wrapping.piece.count c := by
      have split : wrapping.call = (wrapping.word ++ ['(']) ++ (wrapping.piece ++ [')']) := by
        simp [Wrapping.call]
      rw [split]
      simp only [List.count_append]
      omega
    rw [place_rest, shift, after, before, Nat.add_assoc, List.take_length_add_append,
      List.take_length_add_append, List.take_length_add_append, List.take_length_add_append, List.count_append,
      List.count_append, List.count_append, List.count_append, whole]

variable (wrapping) in
/-- A stretch of a text that the wrapping moves as a whole. -/
theorem slice_place {first last : Nat} (n : Nat) (moved : ∀ k, first ≤ k → k < last → wrapping.place k = k + n) :
    Text.slice wrapping.after (first + n) (last + n) = Text.slice wrapping.before first last := by
  apply List.ext_getElem?
  intro i
  rw [Text.slice, Text.slice, Nat.add_sub_add_right, List.getElem?_take, List.getElem?_take]
  split
  · next inside =>
    have place := moved (first + i) (Nat.le_add_right _ _) (by omega)
    rw [List.getElem?_drop, List.getElem?_drop, ← getElem?_place, place, Nat.add_right_comm]
  · rfl

end Places

section Closings

variable {wrapping} {p q : Nat}

theorem drop_before_front (inside : n ≤ wrapping.front.length) :
    wrapping.before.drop n = wrapping.front.drop n ++ (wrapping.piece ++ wrapping.rest) :=
  List.drop_append_of_le_length inside

theorem drop_after_front (inside : n ≤ wrapping.front.length) :
    wrapping.after.drop n = wrapping.front.drop n ++ (wrapping.call ++ wrapping.rest) :=
  List.drop_append_of_le_length inside

theorem drop_before_piece (inside : n ≤ wrapping.piece.length) :
    wrapping.before.drop (wrapping.front.length + n) = wrapping.piece.drop n ++ wrapping.rest := by
  rw [before, List.drop_length_add_append, List.drop_append_of_le_length inside]

theorem drop_after_piece (inside : n ≤ wrapping.piece.length) :
    wrapping.after.drop (wrapping.front.length + n + (wrapping.word.length + 1)) =
      wrapping.piece.drop n ++ ')' :: wrapping.rest := by
  have shift : wrapping.front.length + n + (wrapping.word.length + 1) =
      wrapping.front.length + (wrapping.word.length + (n + 1)) := by omega
  rw [shift, after, List.drop_length_add_append, call, List.append_assoc, List.drop_length_add_append,
    List.cons_append, List.drop_succ_cons, List.append_assoc, List.drop_append_of_le_length inside]
  rfl

theorem drop_rest (n : Nat) :
    wrapping.before.drop (wrapping.front.length + wrapping.piece.length + n) = wrapping.rest.drop n ∧
      wrapping.after.drop (wrapping.front.length + wrapping.piece.length + n + (wrapping.word.length + 2)) =
        wrapping.rest.drop n := by
  have shift : wrapping.front.length + wrapping.piece.length + n + (wrapping.word.length + 2) =
      wrapping.front.length + (wrapping.call.length + n) := by
    rw [length_call]
    omega
  rw [shift, Nat.add_assoc, before, after]
  simp only [List.drop_length_add_append, and_self]

theorem balanced_call (balanced : Balanced '(' ')' wrapping.piece)
    (plain : '(' ∉ wrapping.word ∧ ')' ∉ wrapping.word) : Balanced '(' ')' wrapping.call :=
  (balanced.enclosed (by decide)).behind_free plain

/-- Behind the piece a delimiter is closed as before. -/
theorem closing_rest {k : Nat} (stops : counterStop opener closer 1
      (wrapping.front.length + wrapping.piece.length + k + 1)
      (wrapping.before.drop (wrapping.front.length + wrapping.piece.length + k + 1)) = some q) :
    counterStop opener closer 1 (wrapping.place (wrapping.front.length + wrapping.piece.length + k) + 1)
        (wrapping.after.drop (wrapping.place (wrapping.front.length + wrapping.piece.length + k) + 1)) =
      some (wrapping.place q) := by
  obtain ⟨before, after⟩ := @drop_rest wrapping (k + 1)
  have behind := le_counterStop stops
  have shift : wrapping.place (wrapping.front.length + wrapping.piece.length + k) + 1 =
      wrapping.word.length + 2 + (wrapping.front.length + wrapping.piece.length + k + 1) := by
    rw [place_rest]
    omega
  have drop : wrapping.word.length + 2 + (wrapping.front.length + wrapping.piece.length + k + 1) =
      wrapping.front.length + wrapping.piece.length + (k + 1) + (wrapping.word.length + 2) := by omega
  have last : wrapping.place q = wrapping.word.length + 2 + q := by
    rw [place, if_neg (by omega), if_neg (by omega), Nat.add_comm]
  rw [Nat.add_assoc _ k 1, before, ← Nat.add_assoc] at stops
  rw [shift, counterStop_shift, drop, after, stops, last]
  rfl

/-- In the piece and behind it a brace is closed as before. -/
theorem passes_piece {k count : Nat} (inside : k ≤ wrapping.piece.length)
    (stops : counterStop '{' '}' (count + 1) (wrapping.front.length + k)
      (wrapping.piece.drop k ++ wrapping.rest) = some q) :
    counterStop '{' '}' (count + 1) (wrapping.word.length + 1 + (wrapping.front.length + k))
      (wrapping.piece.drop k ++ ')' :: wrapping.rest) = some (wrapping.place q) := by
  have length : wrapping.front.length + k + (wrapping.piece.drop k).length =
      wrapping.front.length + wrapping.piece.length := by
    rw [List.length_drop]
    omega
  have behind := le_counterStop stops
  rw [counterStop_shift]
  rcases @counterStop_append '{' '}' count (wrapping.front.length + k) (wrapping.piece.drop k) with
    ⟨stop, below, same⟩ | ⟨next, same⟩
  · rw [same] at stops ⊢
    obtain rfl := Option.some.inj stops
    have last : wrapping.place stop = wrapping.word.length + 1 + stop := by
      rw [place, if_neg (by omega), if_pos (by omega), Nat.add_comm]
    rw [last]
    rfl
  · rw [same, length] at stops
    have beyond := le_counterStop stops
    have skipped : counterStop '{' '}' (next + 1) (wrapping.front.length + wrapping.piece.length)
        (')' :: wrapping.rest) = some (1 + q) := by
      rw [counterStop]
      simp only [Char.reduceEq, if_false, Nat.add_one_ne_zero]
      rw [Nat.add_comm (wrapping.front.length + wrapping.piece.length) 1, counterStop_shift, stops]
      rfl
    have last : wrapping.place q = wrapping.word.length + 1 + (1 + q) := by
      rw [place, if_neg (by omega), if_neg (by omega)]
      omega
    rw [same, length, skipped, last]
    rfl

variable (wrapping) in
theorem closing_braces (plain : '{' ∉ wrapping.word ∧ '}' ∉ wrapping.word)
    (stops : counterStop '{' '}' 1 (p + 1) (wrapping.before.drop (p + 1)) = some q) :
    counterStop '{' '}' 1 (wrapping.place p + 1) (wrapping.after.drop (wrapping.place p + 1)) =
      some (wrapping.place q) := by
  rcases wrapping.offset_cases p with front | ⟨k, piece, rfl⟩ | ⟨k, rfl⟩
  · have length : p + 1 + (wrapping.front.drop (p + 1)).length = wrapping.front.length := by
      rw [List.length_drop]
      omega
    rw [drop_before_front front] at stops
    rw [place_front front, drop_after_front front]
    rcases @counterStop_append '{' '}' 0 (p + 1) (wrapping.front.drop (p + 1)) with
      ⟨stop, below, same⟩ | ⟨next, same⟩
    · rw [same] at stops ⊢
      obtain rfl := Option.some.inj stops
      rw [place_front (by omega)]
    · have split : wrapping.call ++ wrapping.rest =
          (wrapping.word ++ ['(']) ++ (wrapping.piece ++ ')' :: wrapping.rest) := by simp [call]
      have passed : '{' ∉ wrapping.word ++ ['('] ∧ '}' ∉ wrapping.word ++ ['('] := by simpa using plain
      rw [same, length] at stops ⊢
      rw [split, counterStop_skip passed, List.length_append, List.length_singleton,
        Nat.add_comm wrapping.front.length]
      exact passes_piece (Nat.zero_le _) stops
  · have shift : wrapping.place (wrapping.front.length + k) + 1 =
        wrapping.front.length + (k + 1) + (wrapping.word.length + 1) := by
      rw [place_piece piece]
      omega
    rw [Nat.add_assoc, drop_before_piece piece] at stops
    rw [shift, drop_after_piece piece, Nat.add_comm _ (wrapping.word.length + 1)]
    exact passes_piece piece stops
  · exact closing_rest stops

/-- A parenthesis in front of the piece is closed as before. -/
theorem closing_front (balanced : Balanced '(' ')' wrapping.piece) (plain : '(' ∉ wrapping.word ∧ ')' ∉ wrapping.word)
    (front : p < wrapping.front.length)
    (stops : counterStop '(' ')' 1 (p + 1) (wrapping.before.drop (p + 1)) = some q) :
    counterStop '(' ')' 1 (wrapping.place p + 1) (wrapping.after.drop (wrapping.place p + 1)) =
      some (wrapping.place q) := by
  have different : '(' ≠ ')' := by decide
  have length : p + 1 + (wrapping.front.drop (p + 1)).length = wrapping.front.length := by
    rw [List.length_drop]
    omega
  rw [drop_before_front front] at stops
  rw [place_front front, drop_after_front front]
  rcases @counterStop_append '(' ')' 0 (p + 1) (wrapping.front.drop (p + 1)) with
    ⟨stop, below, same⟩ | ⟨next, same⟩
  · rw [same] at stops ⊢
    obtain rfl := Option.some.inj stops
    rw [place_front (by omega)]
  · rw [same, length, counterStop_balanced different balanced] at stops
    have behind := le_counterStop stops
    have shift : wrapping.front.length + wrapping.call.length =
        wrapping.word.length + 2 + (wrapping.front.length + wrapping.piece.length) := by
      rw [length_call]
      omega
    have last : wrapping.place q = wrapping.word.length + 2 + q := by
      rw [place, if_neg (by omega), if_neg (by omega), Nat.add_comm]
    rw [same, length, counterStop_balanced different (balanced_call balanced plain), shift,
      counterStop_shift, stops, last]
    rfl

/-- A parenthesis in the piece is closed in it. -/
theorem closing_piece {k : Nat} (balanced : Balanced '(' ')' wrapping.piece) (piece : k < wrapping.piece.length)
    (opens : wrapping.before[wrapping.front.length + k]? = some '(')
    (stops : counterStop '(' ')' 1 (wrapping.front.length + k + 1)
      (wrapping.before.drop (wrapping.front.length + k + 1)) = some q) :
    counterStop '(' ')' 1 (wrapping.place (wrapping.front.length + k) + 1)
        (wrapping.after.drop (wrapping.place (wrapping.front.length + k) + 1)) = some (wrapping.place q) ∧
      q < wrapping.front.length + wrapping.piece.length := by
  have different : '(' ≠ ')' := by decide
  have here : wrapping.piece.drop k = '(' :: wrapping.piece.drop (k + 1) := by
    rw [before, List.getElem?_append_right (Nat.le_add_right _ _), Nat.add_sub_cancel_left,
      List.getElem?_append_left piece] at opens
    obtain ⟨inside, same⟩ := List.getElem?_eq_some_iff.mp opens
    rw [List.drop_eq_getElem_cons inside, same]
  have shift : wrapping.place (wrapping.front.length + k) + 1 =
      wrapping.front.length + (k + 1) + (wrapping.word.length + 1) := by
    rw [place_piece piece]
    omega
  have length : wrapping.front.length + (k + 1) + (wrapping.piece.drop (k + 1)).length =
      wrapping.front.length + wrapping.piece.length := by
    rw [List.length_drop]
    omega
  rw [Nat.add_assoc, drop_before_piece piece] at stops
  have behind := le_counterStop stops
  rw [shift, drop_after_piece piece, Nat.add_comm _ (wrapping.word.length + 1), counterStop_shift]
  rcases @counterStop_append '(' ')' 0 (wrapping.front.length + (k + 1)) (wrapping.piece.drop (k + 1)) with
    ⟨stop, below, same⟩ | ⟨next, same⟩
  · rw [same] at stops ⊢
    obtain rfl := Option.some.inj stops
    have last : wrapping.place stop = wrapping.word.length + 1 + stop := by
      rw [place, if_neg (by omega), if_pos (by omega), Nat.add_comm]
    rw [last]
    exact ⟨rfl, by omega⟩
  · -- the piece closes what it opens, so the counter does not pass it
    have closes := shut_of_balanced balanced k
    rw [here, List.count_cons_self, List.count_cons_of_ne different] at closes
    obtain ⟨stop, stops'⟩ := exists_counterStop 0 (wrapping.front.length + (k + 1))
      (wrapping.piece.drop (k + 1)) (by omega)
    have never := same []
    rw [List.append_nil, stops'] at never
    contradiction

variable (wrapping) in
/-- A parenthesis is closed where the wrapping has moved its closer, and in the piece if it stands there. -/
theorem closing_parens (balanced : Balanced '(' ')' wrapping.piece)
    (plain : '(' ∉ wrapping.word ∧ ')' ∉ wrapping.word) (opens : wrapping.before[p]? = some '(')
    (stops : counterStop '(' ')' 1 (p + 1) (wrapping.before.drop (p + 1)) = some q) :
    counterStop '(' ')' 1 (wrapping.place p + 1) (wrapping.after.drop (wrapping.place p + 1)) =
        some (wrapping.place q) ∧
      (wrapping.front.length ≤ p → p < wrapping.front.length + wrapping.piece.length →
        q < wrapping.front.length + wrapping.piece.length) := by
  rcases wrapping.offset_cases p with front | ⟨k, piece, rfl⟩ | ⟨k, rfl⟩
  · exact ⟨closing_front balanced plain front stops, fun behind => absurd behind (by omega)⟩
  · obtain ⟨closed, within⟩ := closing_piece balanced piece opens stops
    exact ⟨closed, fun _ _ => within⟩
  · exact ⟨closing_rest stops, fun _ inside => absurd inside (by omega)⟩

end Closings

section Standing

open Text (StandsAt isWord)

variable {holds : Char → Bool} {head : List Char}

/-- A piece that is assigned: an equals sign in front of it, a semicolon behind it. -/
structure Seated (wrapping : Wrapping) : Prop where
  assigned : wrapping.front.getLast? = some '='
  ended : wrapping.rest.head? = some ';'
  letters : ∀ c ∈ wrapping.word, isWord c = true

variable {wrapping} (seated : wrapping.Seated)
include seated

namespace Seated

theorem not_mem_word {c : Char} (other : isWord c = false) : c ∉ wrapping.word := by
  intro member
  rw [seated.letters c member] at other
  contradiction

theorem front_pos : 0 < wrapping.front.length := by
  refine List.length_pos_iff.mpr fun none => ?_
  have assigned := seated.assigned
  rw [none] at assigned
  contradiction

theorem before_front (last : n + 1 = wrapping.front.length) : wrapping.before[n]? = some '=' := by
  have inside : n < wrapping.front.length := by omega
  have assigned := seated.assigned
  rw [List.getLast?_eq_getElem?, ← last, Nat.add_sub_cancel] at assigned
  rw [before, List.getElem?_append_left inside, assigned]

theorem before_rest : wrapping.before[wrapping.front.length + wrapping.piece.length]? = some ';' := by
  rw [before, Nat.add_comm, List.getElem?_append_right (Nat.le_add_left _ _), Nat.add_sub_cancel,
    List.getElem?_append_right (Nat.le_refl _), Nat.sub_self, ← List.head?_eq_getElem?, seated.ended]

omit seated in
theorem after_front (here : n + 1 = wrapping.front.length) :
    wrapping.after[wrapping.place n + 1]? = (wrapping.word ++ ['('])[0]? := by
  have shift : wrapping.place n + 1 = wrapping.front.length + 0 := by
    rw [place_front (by omega), here, Nat.add_zero]
  rw [shift, getElem?_behind_front, call, List.append_assoc]
  cases wrapping.word <;> rfl

omit seated in
theorem after_piece (last : n + 1 = wrapping.front.length + wrapping.piece.length)
    (other : n + 1 ≠ wrapping.front.length) : wrapping.after[wrapping.place n + 1]? = some ')' := by
  obtain ⟨k, rfl⟩ := Nat.exists_eq_add_of_le (show wrapping.front.length ≤ n by omega)
  have inside : k < wrapping.piece.length := by omega
  have shift : wrapping.place (wrapping.front.length + k) + 1 =
      wrapping.front.length + (k + 1) + (wrapping.word.length + 1) := by
    rw [place_piece inside]
    omega
  have drop := @drop_after_piece wrapping (k + 1) inside
  have none : wrapping.piece.drop (k + 1) = [] := List.drop_of_length_le (by omega)
  rw [none, List.nil_append] at drop
  rw [shift, ← List.head?_drop, drop]
  rfl

omit seated in
theorem cons_prefix_drop_iff {c : Char} {text : List Char} :
    c :: head <+: text.drop n ↔ text[n]? = some c ∧ head <+: text.drop (n + 1) := by
  rw [← List.head?_drop, ← List.drop_drop]
  cases text.drop n with
  | nil => simp
  | cons d rest => simp [List.cons_prefix_cons, eq_comm]

/-- What holds neither the equals sign, unless at its end, nor what stands behind the piece is found where
the wrapping has moved it. -/
theorem prefix_place (noEquals : '=' ∉ head.dropLast) (noSemicolon : ';' ∉ head) (noCloser : ')' ∉ head) :
    head <+: wrapping.after.drop (wrapping.place n) ↔ head <+: wrapping.before.drop n := by
  induction head generalizing n with
  | nil => simp
  | cons c head ih =>
    rw [cons_prefix_drop_iff, cons_prefix_drop_iff, getElem?_place]
    refine and_congr_right fun here => ?_
    cases head with
    | nil => simp
    | cons d head =>
      rw [List.dropLast_cons_cons, List.mem_cons, not_or] at noEquals
      rw [List.mem_cons, not_or] at noSemicolon noCloser
      by_cases front : n + 1 = wrapping.front.length
      · rw [seated.before_front front] at here
        exact absurd (Option.some.inj here) noEquals.1
      by_cases piece : n + 1 = wrapping.front.length + wrapping.piece.length
      · refine iff_of_false ?_ ?_
        · rw [cons_prefix_drop_iff, after_piece piece front]
          rintro ⟨same, -⟩
          exact noCloser.2 (Option.some.inj same ▸ List.mem_cons_self)
        · rw [cons_prefix_drop_iff, piece, seated.before_rest]
          rintro ⟨same, -⟩
          exact noSemicolon.2 (Option.some.inj same ▸ List.mem_cons_self)
      · rw [← place_succ front piece]
        exact ih noEquals.2 noSemicolon.2 noCloser.2

theorem whole_place (inside : n < wrapping.before.length)
    (other : n ≠ wrapping.front.length + wrapping.piece.length) (noEquals : holds '=' = false)
    (noOpener : holds '(' = false) : (wrapping.after.take (wrapping.place n)).getLast?.any holds =
      (wrapping.before.take n).getLast?.any holds := by
  cases n with
  | zero => rw [place_front seated.front_pos, List.take_zero, List.take_zero]
  | succ n =>
    have within : n < wrapping.before.length := by omega
    rw [Text.getLast?_take_succ within]
    by_cases front : n + 1 = wrapping.front.length
    · have positive : 0 < wrapping.piece.length := by omega
      have shift : wrapping.place (n + 1) = wrapping.front.length + wrapping.word.length + 1 := by
        rw [front, ← Nat.add_zero wrapping.front.length, place_piece positive]
        omega
      have opener : wrapping.after[wrapping.front.length + wrapping.word.length]? = some '(' := by
        rw [getElem?_behind_front, call, List.append_assoc, List.getElem?_append_right (Nat.le_refl _),
          Nat.sub_self]
        rfl
      rw [shift, Text.getLast?_take_succ (List.getElem?_eq_some_iff.mp opener).1, opener,
        seated.before_front front, Option.any_some, Option.any_some, noEquals, noOpener]
    · have place := wrapping.getElem?_place n
      rw [List.getElem?_eq_getElem within] at place
      rw [place_succ front other, Text.getLast?_take_succ (List.getElem?_eq_some_iff.mp place).1, place,
        List.getElem?_eq_getElem within]

/-- What stands in the text stands there after the wrapping, where it has been moved. -/
theorem standsAt_place (nonempty : head ≠ []) (noEquals : '=' ∉ head.dropLast) (noSemicolon : ';' ∉ head)
    (noCloser : ')' ∉ head) (equals : holds '=' = false) (opener : holds '(' = false) :
    StandsAt holds head wrapping.after (wrapping.place n) ↔ StandsAt holds head wrapping.before n := by
  have moved := @prefix_place wrapping n head seated noEquals noSemicolon noCloser
  have whole (here : head <+: wrapping.before.drop n) : (wrapping.after.take (wrapping.place n)).getLast?.any holds =
      (wrapping.before.take n).getLast?.any holds := by
    obtain ⟨c, others, rfl⟩ := List.exists_cons_of_ne_nil nonempty
    obtain ⟨first, -⟩ := cons_prefix_drop_iff.mp here
    refine @whole_place wrapping n holds seated (List.getElem?_eq_some_iff.mp first).1 ?_ equals opener
    rintro rfl
    rw [seated.before_rest] at first
    exact noSemicolon (Option.some.inj first ▸ List.mem_cons_self)
  constructor
  · rintro ⟨here, free⟩
    have there := moved.mp here
    exact ⟨there, whole there ▸ free⟩
  · rintro ⟨here, free⟩
    exact ⟨moved.mpr here, (whole here).trans free⟩

/-- A word as a whole stands where it stood before, unless it is the word of the call. -/
theorem exists_place_of_standsAt {word : List Char} {d : Char} {others : List Char}
    (nonempty : word ≠ []) (letters : ∀ c ∈ word, isWord c = true) (ends : isWord d = false)
    (joined : ∀ c, isWord c = true → holds c = true) (different : word ≠ wrapping.word ∨ d ≠ '(')
    (stands : StandsAt holds (word ++ d :: others) wrapping.after n) : ∃ m, n = wrapping.place m := by
  have first : ∃ c, wrapping.after[n]? = some c ∧ isWord c = true := by
    obtain ⟨c, more, rfl⟩ := List.exists_cons_of_ne_nil nonempty
    exact ⟨c, (cons_prefix_drop_iff.mp stands.here).1, letters c List.mem_cons_self⟩
  obtain ⟨c, here, letter⟩ := first
  rcases wrapping.place_cases n with moved | ⟨k, rfl, d', inCall, there⟩ | opens | closes
  · exact moved
  · cases k with
    | zero =>
      obtain ⟨rest, split⟩ := stands.here
      have dropped := @drop_after_front wrapping _ (Nat.le_refl _)
      rw [Nat.add_zero, dropped, List.drop_length, List.nil_append, call, List.append_assoc, List.cons_append,
        List.append_assoc, List.cons_append] at split
      obtain ⟨words, behind⟩ :=
        (Text.spans_cons letters ends).unique (Text.spans_cons seated.letters (by decide)) split
      rcases different with other | other
      · exact absurd words other
      · exact absurd (List.cons.inj behind).1 other
    | succ k =>
      have within : wrapping.front.length + k < wrapping.after.length := by
        have := (List.getElem?_eq_some_iff.mp there).1
        omega
      have whole := stands.whole
      have inWord : k < wrapping.word.length := by
        by_contra beyond
        have inside := (List.getElem?_eq_some_iff.mp inCall).1
        omega
      rw [← Nat.add_assoc, Text.getLast?_take_succ within, getElem?_behind_front, call, List.append_assoc,
        List.getElem?_append_left inWord, List.getElem?_eq_getElem inWord, Option.any_some,
        joined _ (seated.letters _ (List.getElem_mem inWord))] at whole
      contradiction
  · rw [here] at opens
    rw [Option.some.inj opens] at letter
    contradiction
  · rw [here] at closes
    rw [Option.some.inj closes] at letter
    contradiction

omit seated in
/-- The parts of what is moved as a whole stay together. -/
theorem place_prefix (seated : wrapping.Seated) (noEquals : '=' ∉ head.dropLast) (noSemicolon : ';' ∉ head)
    (here : head <+: wrapping.before.drop n) {i : Nat} (inside : i < head.length) :
    wrapping.place (n + i) = wrapping.place n + i := by
  induction i with
  | zero => rfl
  | succ i ih =>
    have before := Text.getElem?_of_standing here (show i < head.length by omega)
    have next := Text.getElem?_of_standing here inside
    rw [← Nat.add_assoc, place_succ, ih (by omega), Nat.add_assoc]
    · intro front
      rw [seated.before_front front, Option.some.injEq] at before
      have inFront : i < head.dropLast.length := by
        rw [List.length_dropLast]
        omega
      refine noEquals (before ▸ ?_)
      rw [← List.getElem_dropLast inFront]
      exact List.getElem_mem inFront
    · intro piece
      rw [← Nat.add_assoc, piece, seated.before_rest, Option.some.injEq] at next
      exact noSemicolon (next ▸ List.getElem_mem inside)

/-- What stands behind something that is moved as a whole is moved with it, unless it is moved away. -/
theorem next_place (nonempty : head ≠ []) (noEquals : '=' ∉ head.dropLast) (noSemicolon : ';' ∉ head)
    (here : head <+: wrapping.before.drop n) :
    wrapping.after[wrapping.place n + head.length]? = wrapping.before[n + head.length]? ∨
      (n + head.length = wrapping.front.length ∧
        wrapping.after[wrapping.place n + head.length]? = (wrapping.word ++ ['('])[0]?) ∨
      (n + head.length = wrapping.front.length + wrapping.piece.length ∧
        n + head.length ≠ wrapping.front.length ∧
        wrapping.after[wrapping.place n + head.length]? = some ')') := by
  have positive := List.length_pos_iff.mpr nonempty
  have last := place_prefix seated noEquals noSemicolon here (show head.length - 1 < head.length by omega)
  have total : n + head.length = n + (head.length - 1) + 1 := by omega
  have total' : wrapping.place n + head.length = wrapping.place (n + (head.length - 1)) + 1 := by omega
  rw [total, total']
  by_cases front : n + (head.length - 1) + 1 = wrapping.front.length
  · exact .inr (.inl ⟨front, after_front front⟩)
  by_cases piece : n + (head.length - 1) + 1 = wrapping.front.length + wrapping.piece.length
  · exact .inr (.inr ⟨piece, front, after_piece piece front⟩)
  · rw [← place_succ front piece, getElem?_place]
    exact .inl rfl

end Seated

end Standing

section Fitting

open Text (isWord)

/-- A piece of code that is assigned, without literals and comments. -/
structure Fits (wrapping : Wrapping) : Prop where
  assigned : (maskAll wrapping.front).getLast? = some '='
  ended : wrapping.rest.head? = some ';'
  letters : ∀ c ∈ wrapping.word, isWord c = true
  shown : maskAll wrapping.piece = wrapping.piece
  quoteless : ∀ c ∈ wrapping.piece, isQuote c = false

theorem plain_of_isWord {word : List Char} (letters : ∀ c ∈ word, isWord c = true) : Plain word := by
  intro c member
  have letter := letters c member
  refine ⟨?_, fun slash => ?_⟩
  · cases quote : isQuote c with
    | false => rfl
    | true =>
      rcases isQuote_iff.mp quote with rfl | rfl | rfl <;> contradiction
  · subst slash
    contradiction

@[simp]
theorem place_masked (wrapping : Wrapping) (n : Nat) : wrapping.masked.place n = wrapping.place n := by
  rw [place, place, masked, maskAll, length_mask]

theorem length_front_masked (wrapping : Wrapping) : wrapping.masked.front.length = wrapping.front.length :=
  length_mask true wrapping.front

variable {wrapping} (fits : wrapping.Fits)
include fits

namespace Fits

theorem mask_piece {after : List Char} (slash : after.head? ≠ some '/' ∧ after.head? ≠ some '*')
    (literals : Bool) : mask literals (wrapping.piece ++ after) = wrapping.piece ++ mask literals after :=
  mask_append_of_shown fits.shown fits.quoteless slash literals

theorem mask_call (literals : Bool) (after : List Char) :
    mask literals (wrapping.call ++ after) = wrapping.call ++ mask literals after := by
  have split (after : List Char) : wrapping.call ++ after =
      (wrapping.word ++ ['(']) ++ (wrapping.piece ++ ([')'] ++ after)) := by simp [call]
  have opener : Plain (wrapping.word ++ ['(']) := plain_append (plain_of_isWord fits.letters) (by simp [Plain, isQuote])
  have closer : Plain [')'] := by simp [Plain, isQuote]
  rw [split, mask_plain opener, fits.mask_piece ⟨by simp, by simp⟩, mask_plain closer, split]

theorem masked_before : maskAll wrapping.before = wrapping.masked.before := by
  have slash : wrapping.rest.head? ≠ some '/' ∧ wrapping.rest.head? ≠ some '*' := by
    rw [fits.ended]
    decide
  rw [maskAll, before, mask_append_of_code (by decide) (by decide) fits.assigned, fits.mask_piece slash]
  rfl

theorem masked_after : maskAll wrapping.after = wrapping.masked.after := by
  rw [maskAll, after, mask_append_of_code (by decide) (by decide) fits.assigned, fits.mask_call]
  rfl

theorem seated : wrapping.masked.Seated where
  assigned := fits.assigned
  ended := by
    have plain : Plain [';'] := by simp [Plain, isQuote]
    obtain ⟨rest, split⟩ := List.head?_eq_some_iff.mp fits.ended
    have masked : maskAll wrapping.rest = [';'] ++ maskAll rest := by
      rw [split]
      exact mask_plain plain true rest
    rw [Wrapping.masked, masked]
    rfl
  letters := fits.letters

theorem not_mem_word {c : Char} (other : isWord c = false) : c ∉ wrapping.word :=
  fits.seated.not_mem_word other

/-- Braces that belong together belong together where they have been moved. -/
theorem paired_braces {p q : Nat} (pair : Paired '{' '}' (maskAll wrapping.before) p q) :
    Paired '{' '}' (maskAll wrapping.after) (wrapping.place p) (wrapping.place q) := by
  have opens := pair.opens
  have stops := (paired_iff_counterStop (maskAll_maskAll _) opens rfl).mp pair
  rw [fits.masked_before] at stops opens
  have kept := (wrapping.masked.getElem?_place p).trans opens
  rw [place_masked, ← fits.masked_after] at kept
  have closed := wrapping.masked.closing_braces
    ⟨fits.not_mem_word (by decide), fits.not_mem_word (by decide)⟩ stops
  rw [place_masked, place_masked, ← fits.masked_after] at closed
  exact (paired_iff_counterStop (maskAll_maskAll _) kept rfl).mpr closed

/-- A block between parentheses that does not hold the piece is the same where it has been moved. -/
theorem blockAt?_place {p : Nat} {block : Block} (balanced : Balanced '(' ')' wrapping.piece)
    (opens : (maskAll wrapping.before)[p]? = some '(') (found : blockAt? wrapping.before p = some block)
    (apart : block.closing < wrapping.front.length ∨ wrapping.front.length ≤ p) :
    blockAt? wrapping.after (wrapping.place p) =
      some ⟨wrapping.place p, wrapping.place block.closing, block.body⟩ := by
  have read := blockAt?_eq opens rfl
  rw [found, eq_comm, Option.map_eq_some_iff] at read
  obtain ⟨closing, stops, rfl⟩ := read
  dsimp only at apart ⊢
  have forward := le_counterStop stops
  rw [fits.masked_before] at stops opens
  have kept := (wrapping.masked.getElem?_place p).trans opens
  rw [place_masked, ← fits.masked_after] at kept
  obtain ⟨closed, within⟩ := wrapping.masked.closing_parens balanced
    ⟨fits.not_mem_word (by decide), fits.not_mem_word (by decide)⟩ opens stops
  have length : wrapping.masked.piece.length = wrapping.piece.length := rfl
  rw [length_front_masked, length] at within
  rw [place_masked, place_masked, ← fits.masked_after] at closed
  -- the parentheses and what is between them are moved by the same distance
  obtain ⟨distance, moved⟩ : ∃ distance, ∀ k, p ≤ k → k ≤ closing → wrapping.place k = k + distance := by
    rcases apart with front | behind
    · exact ⟨0, fun k _ below => place_front (by omega)⟩
    rcases Nat.lt_or_ge p (wrapping.front.length + wrapping.piece.length) with piece | rest
    · refine ⟨wrapping.word.length + 1, fun k above below => ?_⟩
      have := within behind piece
      rw [place, if_neg (by omega), if_pos (by omega)]
    · refine ⟨wrapping.word.length + 2, fun k above below => ?_⟩
      rw [place, if_neg (by omega), if_neg (by omega)]
  have same : Text.slice wrapping.after (p + 1 + distance) (closing + distance) =
      Text.slice wrapping.before (p + 1) closing :=
    wrapping.slice_place distance fun k above below => moved k (by omega) (Nat.le_of_lt below)
  rw [blockAt?_eq kept rfl, closed, Option.map_some, ← same]
  rw [moved p (Nat.le_refl p) (by omega), moved closing (by omega) (Nat.le_refl closing), Nat.add_right_comm]

end Fits

end Fitting

end Wrapping

end ContractInspector.Source
