import ContractInspector.Proofs.Json.Grammar
import ContractInspector.Proofs.Text.Spans
import Mathlib.Data.List.TakeDrop

/-! Reading numbers. Each part of a number is taken if it is there, and what is taken is such a part. -/
namespace ContractInspector.Json

open Text (Cursor)

/-- The text does not go on with a digit. -/
def EndsDigits (rest : List Char) : Prop :=
  ∀ c ∈ rest.head?, isAsciiDigit c = false

/-- The text goes on with nothing that could belong to a number. -/
def Ends (rest : List Char) : Prop :=
  ∀ c ∈ rest.head?, isAsciiDigit c = false ∧ c ≠ '.' ∧ c ≠ 'e' ∧ c ≠ 'E'

/-- What a reader takes is such a part. -/
def Sound {α : Type} (reader : Cursor → Read α) (part : List Char → Prop) : Prop :=
  ∀ cursor value reached, reader cursor = .ok (value, reached) →
    ∃ text, part text ∧ cursor.rest = text ++ reached.rest

/-- A reader takes a text where nothing that follows could belong to it. -/
def Takes {α : Type} (reader : Cursor → Read α) (text : List Char) : Prop :=
  ∀ cursor rest, cursor.rest = text ++ rest → Ends rest →
    ∃ value reached, reader cursor = .ok (value, reached) ∧ reached.rest = rest

variable {text whole fraction exponent rest : List Char}

theorem Ends.digits (ends : Ends rest) : EndsDigits rest :=
  fun c first => (ends c first).1

theorem digitsOf_eq (text : List Char) :
    digitsOf text = (text.takeWhile isAsciiDigit, text.dropWhile isAsciiDigit) :=
  List.span_eq_takeWhile_dropWhile _ text

theorem digitsOf_append (digits : ∀ c ∈ text, isAsciiDigit c = true) (ends : EndsDigits rest) :
    digitsOf (text ++ rest) = (text, rest) := by
  have spans : Text.Spans isAsciiDigit text rest := ⟨digits, ends⟩
  rw [digitsOf_eq, spans.takeWhile, spans.dropWhile]

theorem digitsOf_found {digits : List Char} (found : digitsOf text = (digits, rest)) (some : digits ≠ []) :
    IsDigits digits ∧ text = digits ++ rest := by
  rw [digitsOf_eq] at found
  obtain ⟨rfl, rfl⟩ := Prod.mk.inj found
  exact ⟨⟨some, (Text.spans_takeWhile isAsciiDigit text).inside⟩, List.takeWhile_append_dropWhile.symm⟩

theorem whole_of_found (found : wholeOf? text = some (whole, rest)) :
    IsWhole whole ∧ text = whole ++ rest := by
  unfold wholeOf? at found
  split at found
  next =>
    cases found
    exact ⟨⟨⟨nofun, by decide⟩, fun _ => rfl⟩, rfl⟩
  next noZero =>
    split at found
    next => contradiction
    next nonempty =>
      have taken := Option.some.inj found
      rw [taken] at nonempty
      obtain ⟨isDigits, rfl⟩ := digitsOf_found taken (by simpa using nonempty)
      refine ⟨⟨isDigits, ?_⟩, rfl⟩
      intro zero
      obtain ⟨others, rfl⟩ := List.head?_eq_some_iff.mp zero
      exact absurd rfl (noZero _)

theorem wholeOf?_append (isWhole : IsWhole whole) (ends : EndsDigits rest) :
    wholeOf? (whole ++ rest) = some (whole, rest) := by
  unfold wholeOf?
  split
  next _ after zero =>
    obtain rfl : whole = ['0'] := by
      apply isWhole.zero
      cases whole with
      | nil => exact absurd rfl isWhole.nonempty
      | cons c others => exact congrArg some (List.cons.inj zero).1
    exact congrArg (fun after => some (['0'], after)) (List.cons.inj zero).2.symm
  next =>
    rw [digitsOf_append isWhole.digits ends]
    exact if_neg (by simpa using isWhole.nonempty)

theorem IsFraction.ends (isFraction : IsFraction fraction) (ends : EndsDigits rest) :
    EndsDigits (fraction ++ rest) := by
  cases isFraction with
  | absent => exact ends
  | present =>
    rintro c ⟨⟩
    decide

theorem IsExponent.ends (isExponent : IsExponent exponent) (ends : Ends rest) :
    EndsDigits (exponent ++ rest) ∧ (exponent ++ rest).head? ≠ some '.' := by
  cases isExponent with
  | absent => exact ⟨ends.digits, fun point => (ends '.' point).2.1 rfl⟩
  | present letter =>
    rcases letter with rfl | rfl
    · exact ⟨by rintro c ⟨⟩; decide, nofun⟩
    · exact ⟨by rintro c ⟨⟩; decide, nofun⟩

/-- A fraction, or nothing, is taken at the front of a text. -/
theorem exists_fraction (text : List Char) : ∃ fraction, IsFraction fraction ∧
    text = fraction ++ (fractionOf text).rest ∧ (fraction = [] → (fractionOf text).value = []) := by
  unfold fractionOf
  split
  next more =>
    split
    next => exact ⟨[], .absent, rfl, fun _ => rfl⟩
    next digits rest nonempty found =>
      obtain ⟨isDigits, rfl⟩ := digitsOf_found found nonempty
      exact ⟨'.' :: digits, .present isDigits, rfl, nofun⟩
  next => exact ⟨[], .absent, rfl, fun _ => rfl⟩

theorem fractionOf_append (isFraction : IsFraction fraction) (ends : EndsDigits rest)
    (point : rest.head? ≠ some '.') : ∃ value length,
      fractionOf (fraction ++ rest) = ⟨value, length, rest⟩ ∧ (value = [] → fraction = []) := by
  unfold fractionOf
  cases isFraction with
  | absent =>
    split
    next same => exact absurd (congrArg List.head? same) point
    next => exact ⟨[], 0, rfl, fun _ => rfl⟩
  | @present digits isDigits =>
    split
    next more same =>
      obtain rfl := (List.cons.inj same).2
      split
      next none =>
        have taken := (digitsOf_append isDigits.digits ends).symm.trans none
        exact absurd (Prod.mk.inj taken).1 isDigits.nonempty
      next found after _ taken =>
        obtain ⟨rfl, rfl⟩ := Prod.mk.inj ((digitsOf_append isDigits.digits ends).symm.trans taken)
        exact ⟨digits, _, rfl, fun none => absurd none isDigits.nonempty⟩
    next other => exact absurd rfl (other _)

/-- An exponent, or nothing, is taken at the front of a text. -/
theorem exists_exponent (text : List Char) : ∃ exponent, IsExponent exponent ∧
    text = exponent ++ (exponentOf text).rest ∧ (exponent = [] → (exponentOf text).value = none) := by
  unfold exponentOf
  split
  next e more =>
    split
    next letter =>
      split
      next sign negative digits signed =>
        split
        next => exact ⟨[], .absent, rfl, fun _ => rfl⟩
        next found rest nonempty taken =>
          obtain ⟨isDigits, rfl⟩ := digitsOf_found taken nonempty
          obtain ⟨front, isSign, rfl⟩ : ∃ front, (front = [] ∨ front = ['+'] ∨ front = ['-']) ∧
              more = front ++ (found ++ rest) := by
            split at signed
            next =>
              obtain ⟨-, -, rfl⟩ := signed
              exact ⟨['-'], .inr (.inr rfl), rfl⟩
            next =>
              obtain ⟨-, -, rfl⟩ := signed
              exact ⟨['+'], .inr (.inl rfl), rfl⟩
            next =>
              obtain ⟨-, -, rfl⟩ := signed
              exact ⟨[], .inl rfl, rfl⟩
          refine ⟨_, .present (by simpa using letter) isSign isDigits, ?_, nofun⟩
          simp
    next => exact ⟨[], .absent, rfl, fun _ => rfl⟩
  next => exact ⟨[], .absent, rfl, fun _ => rfl⟩

/-- The digits behind a sign. -/
theorem behind_sign {sign digits after : List Char} {c : Char}
    (signed : sign = [] ∨ sign = ['+'] ∨ sign = ['-']) (isDigits : IsDigits digits)
    (same : sign ++ digits ++ rest = c :: after) (mark : c = '+' ∨ c = '-') :
    digits ++ rest = after := by
  rcases signed with rfl | rfl | rfl
  · obtain ⟨d, others, rfl⟩ := List.exists_cons_of_ne_nil isDigits.nonempty
    obtain ⟨rfl, -⟩ := List.cons.inj same
    have digit : isAsciiDigit d = true := isDigits.digits d List.mem_cons_self
    rcases mark with rfl | rfl
    · contradiction
    · contradiction
  · exact (List.cons.inj same).2
  · exact (List.cons.inj same).2

theorem exponentOf_append (isExponent : IsExponent exponent) (ends : Ends rest) :
    ∃ value length, exponentOf (exponent ++ rest) = ⟨value, length, rest⟩ ∧
      (value = none → exponent = []) := by
  unfold exponentOf
  cases isExponent with
  | absent =>
    refine ⟨none, 0, ?_, fun _ => rfl⟩
    split
    next e more same =>
      obtain ⟨-, -, small, capital⟩ := ends e (congrArg List.head? same)
      rw [if_neg (by simp [small, capital])]
      rfl
    next => rfl
  | @present e sign digits letter signed isDigits =>
    split
    next e more same =>
      obtain ⟨rfl, behind⟩ := List.cons.inj same
      rw [if_pos (by simpa using letter)]
      split
      next count negative found read =>
        obtain rfl : digits ++ rest = found := by
          split at read
          next =>
            obtain ⟨-, -, rfl⟩ := read
            exact behind_sign signed isDigits behind (.inr rfl)
          next =>
            obtain ⟨-, -, rfl⟩ := read
            exact behind_sign signed isDigits behind (.inl rfl)
          next noMinus noPlus =>
            obtain ⟨-, -, rfl⟩ := read
            rcases signed with rfl | rfl | rfl
            · exact behind
            · exact absurd behind.symm (noPlus _)
            · exact absurd behind.symm (noMinus _)
        split
        next none =>
          have taken := (digitsOf_append isDigits.digits ends.digits).symm.trans none
          exact absurd (Prod.mk.inj taken).1 isDigits.nonempty
        next taken =>
          obtain ⟨rfl, rfl⟩ :=
            Prod.mk.inj ((digitsOf_append isDigits.digits ends.digits).symm.trans taken)
          exact ⟨_, _, rfl, nofun⟩
    next none => contradiction

theorem numberOf_isOk_iff (negative : Bool) (whole fraction : List Char) (exponent? : Option Int) :
    (∃ value, numberOf negative whole fraction exponent? = .ok value) ↔
      (fraction = [] → exponent? = none → whole.length ≤ Text.maxDigits) := by
  rw [numberOf]
  split
  next integral =>
    simp only [Bool.and_eq_true, List.isEmpty_iff, Option.isNone_iff_eq_none] at integral
    rw [Text.readDecimal]
    by_cases long : Text.maxDigits < whole.length
    · rw [if_pos long]
      refine iff_of_false nofun (fun fits => ?_)
      exact absurd (fits integral.1 integral.2) (Nat.not_le.mpr long)
    · rw [if_neg long]
      exact iff_of_true ⟨_, rfl⟩ fun _ _ => Nat.not_lt.mp long
  next real =>
    refine iff_of_true ⟨_, rfl⟩ fun plain bare => ?_
    exact absurd (by simp [plain, bare]) real

theorem sound_readNumber : Sound readNumber (IsNumber .readable) := by
  intro cursor value reached read
  unfold readNumber at read
  split at read
  next count negative text signed =>
    obtain ⟨sign, isSign, front⟩ : ∃ sign, (sign = [] ∨ sign = ['-']) ∧ cursor.rest = sign ++ text := by
      split at signed
      next here =>
        obtain ⟨-, -, rfl⟩ := signed
        exact ⟨['-'], .inr rfl, here⟩
      next =>
        obtain ⟨-, -, rfl⟩ := signed
        exact ⟨[], .inl rfl, rfl⟩
    split at read
    next => contradiction
    next whole rest found =>
      obtain ⟨isWhole, rfl⟩ := whole_of_found found
      obtain ⟨fraction, isFraction, behind, noFraction⟩ := exists_fraction rest
      obtain ⟨exponent, isExponent, last, noExponent⟩ := exists_exponent (fractionOf rest).rest
      dsimp only at read
      split at read
      next => contradiction
      next number =>
        obtain ⟨rfl, rfl⟩ := Prod.mk.inj (Except.ok.inj read)
        have fits := (numberOf_isOk_iff _ _ _ _).mp ⟨_, number⟩
        refine ⟨_, .number isSign isWhole isFraction isExponent ?_, ?_⟩
        · intro plain bare
          exact fits (noFraction plain) (noExponent bare)
        · simp only [List.append_assoc]
          rw [front, ← last, ← behind]

theorem takes_number (isNumber : IsNumber .readable text) : Takes readNumber text := by
  obtain ⟨isSign, isWhole, isFraction, isExponent, fits⟩ := isNumber
  rename_i sign whole fraction exponent
  intro cursor rest here ends
  obtain ⟨endsFraction, point⟩ := isExponent.ends ends
  obtain ⟨_, exponentLength, exponentRead, noExponent⟩ := exponentOf_append isExponent ends
  obtain ⟨_, fractionLength, fractionRead, noFraction⟩ := fractionOf_append isFraction endsFraction point
  unfold readNumber
  split
  next count negative text signed =>
    obtain rfl : whole ++ (fraction ++ (exponent ++ rest)) = text := by
      simp only [List.append_assoc] at here
      split at signed
      next after minus =>
        obtain ⟨-, -, rfl⟩ := signed
        have signs : sign = [] ∨ sign = ['+'] ∨ sign = ['-'] := isSign.imp_right .inr
        refine behind_sign signs isWhole.toIsDigits ?_ (.inr rfl)
        rw [List.append_assoc, ← here, minus]
      next plain =>
        obtain ⟨-, -, rfl⟩ := signed
        rcases isSign with rfl | rfl
        · exact here.symm
        · exact absurd here (plain _)
    rw [wholeOf?_append isWhole (isFraction.ends endsFraction)]
    dsimp only
    rw [fractionRead]
    dsimp only
    rw [exponentRead]
    obtain ⟨value, number⟩ := (numberOf_isOk_iff negative whole _ _).mpr fun plain bare =>
      fits (noFraction plain) (noExponent bare)
    rw [number]
    exact ⟨value, _, rfl, rfl⟩

end ContractInspector.Json
