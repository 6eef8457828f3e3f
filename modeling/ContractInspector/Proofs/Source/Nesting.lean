import ContractInspector.Proofs.Source.Balance

/-! Delimiters that belong together. What a block holds is balanced, and of two blocks with the same
delimiters, wherever they are found in a text, one is inside the other or they are apart. -/
namespace ContractInspector.Source

open Text (slice)

/-- Every closer has its opener in front of it, and every opener has its closer. -/
def Balanced (opener closer : Char) (text : List Char) : Prop :=
  (∀ n, (text.take n).count closer ≤ (text.take n).count opener) ∧
    text.count closer = text.count opener

/-- Two delimiters that belong together: what is opened behind the first is closed before the second. -/
structure Paired (opener closer : Char) (text : List Char) (opening closing : Nat) : Prop where
  opens : text[opening]? = some opener
  closes : text[closing]? = some closer
  before : opening < closing
  above : ∀ n, opening < n → n ≤ closing → level opener closer text opening < level opener closer text n
  back : level opener closer text (closing + 1) = level opener closer text opening

variable {opener closer : Char} {text front rest : List Char}

section Pairs

variable {opening closing opening' closing' : Nat}

/-- What stands between two delimiters that belong together is balanced. -/
theorem Paired.balanced (different : opener ≠ closer) (pair : Paired opener closer text opening closing) :
    Balanced opener closer (slice text (opening + 1) closing) := by
  have before := pair.before
  have inner (n : Nat) : level opener closer (text.drop (opening + 1)) n =
      level opener closer text (opening + 1 + n) - level opener closer text (opening + 1) := by
    rw [level_add (opening + 1) n]
    omega
  have first := level_opener different pair.opens
  have last := level_closer different pair.closes
  have back := pair.back
  have part (n : Nat) (short : n ≤ closing - (opening + 1)) :
      ((text.drop (opening + 1)).take n).count closer ≤ ((text.drop (opening + 1)).take n).count opener := by
    have above := pair.above (opening + 1 + n) (by omega) (by omega)
    have inner := inner n
    rw [level] at inner
    omega
  constructor
  · intro n
    rw [slice, List.take_take]
    exact part _ (Nat.min_le_right _ _)
  · have inner := inner (closing - (opening + 1))
    rw [Nat.add_sub_cancel' before, level] at inner
    rw [slice]
    omega

/-- Of two pairs of delimiters that open at different places, one is inside the other or they are apart. -/
theorem Paired.apart_or_inside (first : Paired opener closer text opening closing)
    (second : Paired opener closer text opening' closing') (before : opening < opening') :
    closing < opening' ∨ closing' < closing := by
  rcases Nat.lt_or_ge closing opening' with apart | opens
  · exact .inl apart
  -- the second one opens inside of the first, where the level is above that of the first
  have higher := first.above opening' before opens
  have back := first.back
  rcases Nat.lt_trichotomy closing closing' with short | rfl | inside
  · have above := second.above (closing + 1) (by omega) short
    omega
  · have back' := second.back
    omega
  · exact .inr inside

theorem Paired.closing_unique (first : Paired opener closer text opening closing)
    (second : Paired opener closer text opening closing') : closing = closing' := by
  have before := first.before
  have before' := second.before
  rcases Nat.lt_trichotomy closing closing' with short | same | long
  · have above := second.above (closing + 1) (by omega) short
    have back := first.back
    omega
  · exact same
  · have above := first.above (closing' + 1) (by omega) long
    have back := second.back
    omega

end Pairs

section Shutting

variable {part : List Char}

theorem Balanced.behind_free (balanced : Balanced opener closer part) (free : opener ∉ front ∧ closer ∉ front) :
    Balanced opener closer (front ++ part) := by
  have none {c : Char} (absent : c ∉ front) (n : Nat) : (front.take n).count c = 0 :=
    List.count_eq_zero_of_not_mem fun member => absent (List.mem_of_mem_take member)
  constructor
  · intro n
    have inner := balanced.1 (n - front.length)
    rwa [List.take_append, List.count_append, List.count_append, none free.1, none free.2, Nat.zero_add,
      Nat.zero_add]
  · rw [List.count_append, List.count_append, List.count_eq_zero_of_not_mem free.1,
      List.count_eq_zero_of_not_mem free.2, balanced.2]

theorem balanced_of_free (free : opener ∉ text ∧ closer ∉ text) : Balanced opener closer text := by
  have none : Balanced opener closer [] := ⟨by simp, rfl⟩
  simpa using none.behind_free free

theorem Balanced.enclosed (balanced : Balanced opener closer part) (different : opener ≠ closer) :
    Balanced opener closer (opener :: (part ++ [closer])) := by
  constructor
  · intro n
    cases n with
    | zero => simp
    | succ n =>
      have inner := balanced.1 n
      have last : ([closer].take (n - part.length)).count closer ≤ [closer].count closer :=
        (List.take_sublist _ _).count_le closer
      rw [List.count_singleton_self] at last
      rw [List.take_succ_cons, List.take_append, List.count_cons_self, List.count_cons_of_ne different,
        List.count_append, List.count_append]
      omega
  · rw [List.count_cons_self, List.count_cons_of_ne different, List.count_append, List.count_append,
      List.count_singleton_self, List.count_singleton, balanced.2]
    simp [different.symm]

/-- No end of a text leaves a parenthesis open. -/
def Shut (text : List Char) : Prop :=
  ∀ n, (text.drop n).count '(' ≤ (text.drop n).count ')'

theorem shut_of_balanced (balanced : Balanced '(' ')' text) : Shut text := by
  intro n
  have front := balanced.1 n
  have total := balanced.2
  rw [← List.take_append_drop n text, List.count_append, List.count_append] at total
  omega

theorem Shut.behind (shut : Shut (front ++ rest)) : Shut rest := by
  intro n
  have behind := shut (front.length + n)
  rwa [List.drop_length_add_append] at behind

/-- A counter stops in a text that closes more than it opens. -/
theorem exists_counterStop (count offset : Nat) (text : List Char)
    (closes : count + 1 + text.count '(' ≤ text.count ')') :
    ∃ stop, counterStop '(' ')' (count + 1) offset text = some stop := by
  induction text generalizing count offset with
  | nil => simp at closes
  | cons c rest ih =>
    rw [counterStop]
    by_cases opens : c = '('
    · subst opens
      rw [List.count_cons_self, List.count_cons_of_ne (by decide)] at closes
      simpa using ih (count + 1) (offset + 1) (by omega)
    by_cases ends : c = ')'
    · subst ends
      rw [List.count_cons_self, List.count_cons_of_ne (by decide)] at closes
      cases count with
      | zero => exact ⟨offset, rfl⟩
      | succ count => simpa using ih count (offset + 1) (by omega)
    · rw [List.count_cons_of_ne opens, List.count_cons_of_ne ends] at closes
      simpa [opens, ends] using ih count (offset + 1) closes

end Shutting

section Counters

variable {part : List Char}

/-- A counter stops in a text whatever stands behind it, or passes it and goes on. -/
theorem counterStop_append (count offset : Nat) (part : List Char) :
    (∃ stop < offset + part.length, ∀ rest,
        counterStop opener closer (count + 1) offset (part ++ rest) = some stop) ∨
      ∃ next, ∀ rest, counterStop opener closer (count + 1) offset (part ++ rest) =
        counterStop opener closer (next + 1) (offset + part.length) rest := by
  induction part generalizing count offset with
  | nil => exact .inr ⟨count, fun rest => rfl⟩
  | cons c part ih =>
    have step (next : Nat) (moves : ∀ rest, counterStop opener closer (count + 1) offset (c :: rest) =
        counterStop opener closer (next + 1) (offset + 1) rest) :
        (∃ stop < offset + (c :: part).length, ∀ rest,
            counterStop opener closer (count + 1) offset (c :: part ++ rest) = some stop) ∨
          ∃ next, ∀ rest, counterStop opener closer (count + 1) offset (c :: part ++ rest) =
            counterStop opener closer (next + 1) (offset + (c :: part).length) rest := by
      have length : offset + (c :: part).length = offset + 1 + part.length := by
        rw [List.length_cons]
        omega
      rw [length]
      refine (ih next (offset + 1)).imp ?_ ?_
      · rintro ⟨stop, below, stops⟩
        exact ⟨stop, below, fun rest => (moves _).trans (stops rest)⟩
      · rintro ⟨later, passes⟩
        exact ⟨later, fun rest => (moves _).trans (passes rest)⟩
    by_cases opens : c = opener
    · exact step (count + 1) fun rest => by rw [counterStop]; simp [opens]
    by_cases closes : c = closer
    · cases count with
      | zero =>
        refine .inl ⟨offset, by simp, fun rest => ?_⟩
        simp only [List.cons_append, counterStop, if_neg opens, if_pos closes]
        rfl
      | succ count =>
        refine step count fun rest => ?_
        simp only [counterStop, if_neg opens, if_pos closes]
        rfl
    · exact step count fun rest => by rw [counterStop]; simp [opens, closes]

theorem counterStop_shift (k count offset : Nat) (text : List Char) :
    counterStop opener closer count (k + offset) text =
      (counterStop opener closer count offset text).map (k + ·) := by
  induction text generalizing count offset with
  | nil => rfl
  | cons c rest ih =>
    simp only [counterStop, Nat.add_assoc, ih]
    generalize (if c = opener then count + 1 else if c = closer then count - 1 else count) = next
    split <;> rfl

theorem le_counterStop {count offset stop : Nat} {text : List Char}
    (stops : counterStop opener closer count offset text = some stop) : offset ≤ stop := by
  have shift := @counterStop_shift opener closer offset count 0 text
  rw [Nat.add_zero, stops] at shift
  obtain ⟨distance, -, rfl⟩ := Option.map_eq_some_iff.mp shift.symm
  exact Nat.le_add_right offset distance

theorem counterStop_passes {count next : Nat} (different : opener ≠ closer)
    (above : ∀ n, (part.take n).count closer ≤ (part.take n).count opener + count)
    (total : next + part.count closer = count + part.count opener) (offset : Nat) (rest : List Char) :
    counterStop opener closer (count + 1) offset (part ++ rest) =
      counterStop opener closer (next + 1) (offset + part.length) rest := by
  induction part generalizing count offset with
  | nil =>
    obtain rfl : next = count := by simpa using total
    rfl
  | cons c part ih =>
    have length : offset + (c :: part).length = offset + 1 + part.length := by
      rw [List.length_cons]
      omega
    rw [length, List.cons_append]
    by_cases opens : c = opener
    · subst opens
      rw [List.count_cons_self, List.count_cons_of_ne different] at total
      have later := @ih (count + 1) (fun n => ?_) (by omega) (offset + 1)
      · simpa [counterStop] using later
      · have above := above (n + 1)
        rw [List.take_succ_cons, List.count_cons_self, List.count_cons_of_ne different] at above
        omega
    by_cases closes : c = closer
    · subst closes
      rw [List.count_cons_self, List.count_cons_of_ne opens] at total
      cases count with
      | zero =>
        have first := above 1
        simp [List.count_cons_of_ne opens] at first
      | succ count =>
        have later := @ih count (fun n => ?_) (by omega) (offset + 1)
        · simpa [counterStop, opens] using later
        · have above := above (n + 1)
          rw [List.take_succ_cons, List.count_cons_self, List.count_cons_of_ne opens] at above
          omega
    · rw [List.count_cons_of_ne opens, List.count_cons_of_ne closes] at total
      have later := @ih count (fun n => ?_) total (offset + 1)
      · simpa [counterStop, opens, closes] using later
      · have above := above (n + 1)
        rwa [List.take_succ_cons, List.count_cons_of_ne opens, List.count_cons_of_ne closes] at above

theorem counterStop_balanced (different : opener ≠ closer) (balanced : Balanced opener closer part)
    (count offset : Nat) (rest : List Char) : counterStop opener closer (count + 1) offset (part ++ rest) =
      counterStop opener closer (count + 1) (offset + part.length) rest :=
  counterStop_passes different (fun n => Nat.le_add_right_of_le (balanced.1 n)) (by rw [balanced.2]) offset rest

end Counters

section Blocks

/-- The delimiters of a block of masked source belong together. -/
theorem paired_of_blockAt? {start : Nat} {block : Block} (masked : maskAll text = text)
    (kept : text[start]? = some opener) (opens : closerOf? opener = some closer)
    (found : blockAt? text start = some block) :
    block.opening = start ∧ Paired opener closer text start block.closing := by
  have different := (codeOnly_of_closerOf? opens).2.2
  obtain ⟨k, opening, closing, here, above, back⟩ := levels_of_blockAt? (masked.symm ▸ kept) opens found
  rw [masked] at here above back
  have first := level_opener different kept
  have shift (n : Nat) : level opener closer text (start + 1 + n) =
      level opener closer text (start + 1) + level opener closer (text.drop (start + 1)) n := level_add _ n
  rw [closing]
  refine ⟨opening, kept, here, by omega, fun n low high => ?_, ?_⟩
  · obtain ⟨m, rfl⟩ := Nat.exists_eq_add_of_lt low
    rw [Nat.add_right_comm]
    have above := above m (by omega)
    have shift := shift m
    omega
  · have shift := shift (k + 1)
    rw [← Nat.add_assoc] at shift
    omega

/-- Where two delimiters of masked source belong together, they are those of a block. -/
theorem exists_blockAt?_of_paired {start closing : Nat} (masked : maskAll text = text)
    (opens : closerOf? opener = some closer) (pair : Paired opener closer text start closing) :
    ∃ block, blockAt? text start = some block ∧ block.closing = closing ∧
      block.body = slice text (start + 1) closing := by
  have different := (codeOnly_of_closerOf? opens).2.2
  have kept : (maskAll text)[start]? = some opener := masked.symm ▸ pair.opens
  have before := pair.before
  have back := pair.back
  have first := level_opener different pair.opens
  have shift : level opener closer text (start + 1 + (closing - start)) = level opener closer text (start + 1) +
      level opener closer (text.drop (start + 1)) (closing - start) := level_add _ _
  rw [show start + 1 + (closing - start) = closing + 1 by omega] at shift
  have zero : counterAfter opener closer (text.drop (start + 1)) (closing - start) = 0 := by
    rw [counterAfter_eq]
    omega
  have read := blockAt?_eq kept opens
  rw [masked] at read
  cases stops : counterStop opener closer 1 (start + 1) (text.drop (start + 1)) with
  | none =>
    have never := (counterStop_eq_none_iff different 0 _ _).mp stops (closing - start)
    rw [zero] at never
    contradiction
  | some stop =>
    rw [stops, Option.map_some] at read
    obtain ⟨-, pair'⟩ := paired_of_blockAt? masked pair.opens opens read
    obtain rfl := pair.closing_unique pair'
    exact ⟨_, read, rfl, rfl⟩

/-- Delimiters belong together where a counter that starts behind the first stops at the other. -/
theorem paired_iff_counterStop {start closing : Nat} (masked : maskAll text = text)
    (kept : text[start]? = some opener) (opens : closerOf? opener = some closer) :
    Paired opener closer text start closing ↔
      counterStop opener closer 1 (start + 1) (text.drop (start + 1)) = some closing := by
  have read := blockAt?_eq (masked.symm ▸ kept) opens
  rw [masked] at read
  constructor
  · intro pair
    obtain ⟨block, found, closes, -⟩ := exists_blockAt?_of_paired masked opens pair
    rw [read, Option.map_eq_some_iff] at found
    obtain ⟨stop, stops, rfl⟩ := found
    rw [stops]
    exact congrArg some closes
  · intro stops
    rw [stops, Option.map_some] at read
    exact (paired_of_blockAt? masked kept opens read).2

end Blocks

end ContractInspector.Source
