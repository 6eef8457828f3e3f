import ContractInspector.Source.Lines
import ContractInspector.Text.Basic

/-! Line numbers count newlines. The starts of the lines are sorted, so the search among them finds as
many as there are, and `lineOf_ofText` says that a line is numbered by the newlines in front of it. -/
namespace ContractInspector.Number

variable {n : Nat}

theorem getElem_le_iff {numbers : List Nat} (sorted : numbers.Pairwise (· ≤ ·)) {i : Nat}
    (inside : i < numbers.length) : numbers[i] ≤ n ↔ i < numbers.countP (· ≤ n) := by
  induction sorted generalizing i with
  | nil => contradiction
  | @cons m numbers least sorted ih =>
    by_cases le : m ≤ n
    · cases i with
      | zero => simp [le]
      | succ i => simpa [le] using ih (Nat.lt_of_succ_lt_succ inside)
    · have above : ∀ k ∈ numbers, ¬k ≤ n := fun k member => by have := least k member; omega
      have none : numbers.countP (· ≤ n) = 0 := by simpa [List.countP_eq_zero] using above
      cases i with
      | zero => simp [le, none]
      | succ i => simpa [le, none] using above _ (List.getElem_mem _)

/-- A search that starts on both sides of the count ends at it. -/
theorem countBetween_eq {numbers : Array Nat} (sorted : numbers.toList.Pairwise (· ≤ ·))
    {low high : Nat} (below : low ≤ numbers.toList.countP (· ≤ n))
    (above : numbers.toList.countP (· ≤ n) ≤ high) (inside : high ≤ numbers.size) :
    countBetween numbers n low high = numbers.toList.countP (· ≤ n) := by
  fun_induction countBetween numbers n low high with
  | case1 low high lt middle le ih =>
    have bound : middle < numbers.size := by omega
    rw [Array.getD_eq_getD_getElem?, Array.getElem?_eq_getElem bound, Option.getD_some] at le
    have passed := (getElem_le_iff sorted bound).mp le
    exact ih (by omega) above inside
  | case2 low high lt middle gt ih =>
    have bound : middle < numbers.size := by omega
    rw [Array.getD_eq_getD_getElem?, Array.getElem?_eq_getElem bound, Option.getD_some] at gt
    have ahead := mt (getElem_le_iff sorted bound).mpr gt
    exact ih below (by omega) (by omega)
  | case3 low high ge => omega

/-- The search does not depend on where the numbers start. -/
theorem countBetween_map_add (numbers : Array Nat) (k : Nat) {low high : Nat}
    (inside : high ≤ numbers.size) :
    countBetween (numbers.map (k + ·)) (k + n) low high = countBetween numbers n low high := by
  have each {middle : Nat} (bound : middle < numbers.size) :
      (numbers.map (k + ·)).getD middle 0 ≤ k + n ↔ numbers.getD middle 0 ≤ n := by
    simp [Array.getD_eq_getD_getElem?, bound]
  fun_induction countBetween numbers n low high with
  | case1 low high lt middle le ih =>
    rw [countBetween, if_pos lt, if_pos ((each (by omega)).mpr le), ih inside]
  | case2 low high lt middle gt ih =>
    rw [countBetween, if_pos lt, if_neg (mt (each (by omega)).mp gt), ih (by omega)]
  | case3 low high ge => rw [countBetween, if_neg ge]

theorem countUpTo_map_add (numbers : Array Nat) (k n : Nat) :
    countUpTo (numbers.map (k + ·)) (k + n) = countUpTo numbers n := by
  rw [countUpTo, Array.size_map, countBetween_map_add numbers k (Nat.le_refl _), countUpTo]

theorem countUpTo_eq {numbers : Array Nat} (sorted : numbers.toList.Pairwise (· ≤ ·)) (n : Nat) :
    countUpTo numbers n = numbers.toList.countP (· ≤ n) := by
  exact countBetween_eq sorted (Nat.zero_le _) List.countP_le_length (Nat.le_refl _)

end ContractInspector.Number

namespace ContractInspector.Source

/-- The offsets behind the newlines of a text that starts at an offset. -/
def startsFrom : List Char → Nat → List Nat
  | [], _ => []
  | c :: rest, offset => (if c = '\n' then [offset + 1] else []) ++ startsFrom rest (offset + 1)

theorem toList_startsOnto (text : List Char) (offset : Nat) (found : Array Nat) :
    (startsOnto text offset found).toList = found.toList ++ startsFrom text offset := by
  induction text generalizing offset found with
  | nil => simp [startsOnto, startsFrom]
  | cons c rest ih =>
    rw [startsOnto, ih, startsFrom]
    split <;> simp

theorem lt_of_mem_startsFrom {text : List Char} {offset start : Nat}
    (member : start ∈ startsFrom text offset) : offset < start := by
  induction text generalizing offset with
  | nil => contradiction
  | cons c rest ih =>
    rcases List.mem_append.mp member with here | later
    · split at here
      · obtain rfl := List.mem_singleton.mp here
        exact Nat.lt_succ_self offset
      · contradiction
    · exact Nat.lt_of_succ_lt (ih later)

theorem sorted_startsFrom (text : List Char) (offset : Nat) :
    (startsFrom text offset).Pairwise (· ≤ ·) := by
  induction text generalizing offset with
  | nil => exact .nil
  | cons c rest ih =>
    rw [startsFrom]
    split
    · refine .cons (fun start later => ?_) (ih (offset + 1))
      exact Nat.le_of_lt (lt_of_mem_startsFrom later)
    · exact ih (offset + 1)

theorem length_startsFrom (text : List Char) (offset : Nat) :
    (startsFrom text offset).length = text.count '\n' := by
  induction text generalizing offset with
  | nil => rfl
  | cons c rest ih =>
    rw [startsFrom, List.length_append, ih, List.count_cons]
    split <;> simp_all [Nat.add_comm]

theorem countP_startsFrom (text : List Char) (offset n : Nat) :
    (startsFrom text offset).countP (· ≤ offset + n) = (text.take n).count '\n' := by
  induction text generalizing offset n with
  | nil => simp [startsFrom]
  | cons c rest ih =>
    cases n with
    | zero =>
      rw [Nat.add_zero, List.take_zero, List.count_nil, List.countP_eq_zero]
      intro start member
      have := lt_of_mem_startsFrom member
      simpa using this
    | succ n =>
      rw [startsFrom, List.countP_append, Nat.add_comm n, ← Nat.add_assoc, ih, Nat.add_comm 1,
        List.take_succ_cons, List.count_cons]
      split <;> simp_all [Nat.add_comm]

namespace LineIndex

theorem toList_starts (text : List Char) : (ofText text).starts.toList = 0 :: startsFrom text 0 := by
  rw [ofText, toList_startsOnto]
  rfl

theorem lineOf_ofText (text : List Char) (n : Nat) :
    (ofText text).lineOf n = (text.take n).count '\n' + 1 := by
  have sorted : (ofText text).starts.toList.Pairwise (· ≤ ·) := by
    rw [toList_starts]
    exact .cons (fun start _ => Nat.zero_le start) (sorted_startsFrom text 0)
  have counted := countP_startsFrom text 0 n
  rw [Nat.zero_add] at counted
  change Number.countUpTo (ofText text).starts n = _
  rw [Number.countUpTo_eq sorted, toList_starts, List.countP_cons_of_pos (by simp), counted]

theorem lineCount_ofText (text : List Char) : (ofText text).lineCount = text.count '\n' + 1 := by
  rw [lineCount, ← Array.length_toList, toList_starts, List.length_cons, length_startsFrom]

/-- Lines are numbered in order. -/
theorem lineOf_mono (text : List Char) {n m : Nat} (le : n ≤ m) : (ofText text).lineOf n ≤ (ofText text).lineOf m := by
  rw [lineOf_ofText, lineOf_ofText]
  exact Nat.succ_le_succ ((List.take_sublist_take_left (l := text) le).count_le '\n')

/-- Every offset is on one of the lines. -/
theorem lineOf_within (text : List Char) (n : Nat) :
    1 ≤ (ofText text).lineOf n ∧ (ofText text).lineOf n ≤ (ofText text).lineCount := by
  rw [lineOf_ofText, lineCount_ofText]
  exact ⟨Nat.le_add_left 1 _, Nat.succ_le_succ ((List.take_sublist n text).count_le '\n')⟩

/-- Behind a text, lines are numbered on. -/
theorem lineOf_append (front text : List Char) (n : Nat) :
    (ofText (front ++ text)).lineOf (front.length + n : Nat) =
      (ofText text).lineOf n + front.count '\n' := by
  rw [lineOf_ofText, lineOf_ofText, List.take_length_add_append, List.count_append]
  omega

theorem lineCount_append (front text : List Char) :
    (ofText (front ++ text)).lineCount = (ofText text).lineCount + front.count '\n' := by
  rw [lineCount_ofText, lineCount_ofText, List.count_append]
  omega

end LineIndex

end ContractInspector.Source
