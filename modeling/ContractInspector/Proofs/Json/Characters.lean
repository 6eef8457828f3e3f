import ContractInspector.Proofs.Json.Grammar

/-! Reading the characters between two quotes. `exists_read_characters` and `characters_of_read` say that
they are read up to the closing quote if and only if they are characters as the grammar has them. -/
namespace ContractInspector.Json

open Text (Cursor Point)

variable {digits body rest : List Char} {opened offset : Nat} {seen : List Point}

theorem fourDigits?_iff {text : List Char} : (∃ number, fourDigits? text = some (number, rest)) ↔
    ∃ digits, IsUnit digits ∧ text = digits ++ rest := by
  constructor
  · rintro ⟨number, read⟩
    match text, read with
    | a :: b :: c :: d :: after, read =>
      obtain ⟨values, found, same⟩ := Option.bind_eq_some_iff.mp read
      obtain rfl : after = rest := congrArg Prod.snd (Option.some.inj same)
      refine ⟨[a, b, c, d], ⟨rfl, ?_⟩, rfl⟩
      simp only [List.mapM_cons, Option.bind_eq_bind, Option.bind_eq_some_iff] at found
      obtain ⟨_, first, _, ⟨_, second, _, ⟨_, third, _, ⟨_, fourth, -⟩, -⟩, -⟩, -⟩ := found
      simp [first, second, third, fourth]
  · rintro ⟨digits, ⟨length, all⟩, rfl⟩
    match digits, length with
    | [a, b, c, d], _ =>
      simp only [List.forall_mem_cons, Option.isSome_iff_exists] at all
      obtain ⟨⟨_, first⟩, ⟨_, second⟩, ⟨_, third⟩, ⟨_, fourth⟩, -⟩ := all
      simp [fourDigits?, first, second, third, fourth]

/-- What an escape takes is one unit, or another escape behind it, too. -/
theorem characters_escape {point : Point} {length : Nat}
    (read : unicodeEscape digits offset = .ok (point, length)) (others : IsCharacters body) :
    IsCharacters ('\\' :: 'u' :: (digits.take length ++ body)) := by
  rw [unicodeEscape] at read
  split at read
  · contradiction
  · contradiction
  next number rest _ found =>
  obtain ⟨unit, isUnit, rfl⟩ := fourDigits?_iff.mp ⟨number, found⟩
  have single {other : Point}
      (one : Except.ok (other, 4) = (.ok (point, length) : Except Fault (Point × Nat))) :
      IsCharacters ('\\' :: 'u' :: ((unit ++ rest).take length ++ body)) := by
    obtain rfl : 4 = length := congrArg Prod.snd (Except.ok.inj one)
    rw [List.take_left' isUnit.1]
    exact .unit isUnit others
  split at read
  · split at read
    next more =>
      split at read
      next low after second =>
        obtain ⟨other, isOther, rfl⟩ := fourDigits?_iff.mp ⟨low, second⟩
        split at read
        · obtain rfl : 10 = length := congrArg Prod.snd (Except.ok.inj read)
          have taken : (unit ++ '\\' :: 'u' :: (other ++ after)).take 10 =
              unit ++ '\\' :: 'u' :: other := by
            have all : unit ++ '\\' :: 'u' :: (other ++ after) =
                (unit ++ '\\' :: 'u' :: other) ++ after := by simp
            rw [all, List.take_left']
            simp [isUnit.1, isOther.1]
          rw [taken, List.append_assoc]
          exact .unit isUnit (.unit isOther others)
        · exact single read
      next =>
        split at read
        · exact single read
        · contradiction
    next => exact single read
  · exact single read

theorem exists_single {unit : List Char} (isUnit : IsUnit unit) {c : Char} {after : List Char}
    (alone : ∀ more, c :: after ≠ '\\' :: 'u' :: more) (offset : Nat) :
    ∃ d, unicodeEscape (unit ++ c :: after) offset = .ok (d, 4) := by
  obtain ⟨number, found⟩ := fourDigits?_iff.mpr ⟨unit, isUnit, rfl⟩
  rw [unicodeEscape, found]
  dsimp only
  split
  · split
    next more same => exact absurd same (alone more)
    next => exact ⟨_, rfl⟩
  · exact ⟨_, rfl⟩

theorem exists_double {unit other : List Char} (isUnit : IsUnit unit) (isOther : IsUnit other)
    (c : Char) (after : List Char) (offset : Nat) :
    ∃ d length, unicodeEscape (unit ++ '\\' :: 'u' :: (other ++ c :: after)) offset = .ok (d, length) ∧
      (length = 4 ∨ length = 10) := by
  obtain ⟨number, found⟩ := fourDigits?_iff.mpr ⟨unit, isUnit, rfl⟩
  obtain ⟨low, second⟩ : ∃ low, fourDigits? (other ++ c :: after) = some (low, c :: after) :=
    fourDigits?_iff.mpr ⟨other, isOther, rfl⟩
  rw [unicodeEscape, found]
  dsimp only
  split
  · split
    next more same =>
      obtain rfl := (List.cons.inj (List.cons.inj same).2).2
      rw [second]
      dsimp only
      split
      · exact ⟨_, _, rfl, .inr rfl⟩
      · exact ⟨_, _, rfl, .inl rfl⟩
    next => exact ⟨_, _, rfl, .inl rfl⟩
  · exact ⟨_, _, rfl, .inl rfl⟩

/-- Before a closing quote an escape is read, and whole escapes with it. -/
theorem exists_escape {unit : List Char} (isUnit : IsUnit unit) (others : IsCharacters body)
    (rest : List Char) (offset : Nat) :
    ∃ c length behind, unicodeEscape (unit ++ (body ++ '"' :: rest)) offset = .ok (c, length) ∧
      IsCharacters behind ∧
      (unit ++ (body ++ '"' :: rest)).drop length = behind ++ '"' :: rest := by
  have single {c : Char} {after : List Char} (form : body ++ '"' :: rest = c :: after)
      (alone : ∀ more, c :: after ≠ '\\' :: 'u' :: more) :
      ∃ c length behind, unicodeEscape (unit ++ (body ++ '"' :: rest)) offset = .ok (c, length) ∧
        IsCharacters behind ∧
        (unit ++ (body ++ '"' :: rest)).drop length = behind ++ '"' :: rest := by
    obtain ⟨d, read⟩ := exists_single isUnit alone offset
    exact ⟨d, 4, body, form ▸ read, others, List.drop_left' isUnit.1⟩
  cases others with
  | nil =>
    apply single rfl
    intro more same
    exact absurd (List.cons.inj same).1 (by decide)
  | plain _ backslash _ _ =>
    apply single rfl
    intro more same
    exact backslash (List.cons.inj same).1
  | escape known _ =>
    apply single rfl
    intro more same
    obtain ⟨rfl, -⟩ := List.cons.inj (List.cons.inj same).2
    contradiction
  | @unit other behind isOther others =>
    obtain ⟨d, length, read, four | ten⟩ : ∃ d length, unicodeEscape
        (unit ++ ('\\' :: 'u' :: (other ++ behind) ++ '"' :: rest)) offset = .ok (d, length) ∧
        (length = 4 ∨ length = 10) := by
      have form : unit ++ ('\\' :: 'u' :: (other ++ behind) ++ '"' :: rest) =
          unit ++ '\\' :: 'u' :: (other ++ (behind ++ '"' :: rest)) := by simp
      rw [form]
      cases behind with
      | nil => exact exists_double isUnit isOther '"' rest offset
      | cons c behind => exact exists_double isUnit isOther c (behind ++ '"' :: rest) offset
    · exact ⟨d, length, _, read, .unit isOther others, four ▸ List.drop_left' isUnit.1⟩
    · refine ⟨d, length, behind, read, others, ?_⟩
      have form : unit ++ ('\\' :: 'u' :: (other ++ behind) ++ '"' :: rest) =
          (unit ++ '\\' :: 'u' :: other) ++ (behind ++ '"' :: rest) := by simp
      rw [form, List.drop_left']
      simp [ten, isUnit.1, isOther.1]

theorem characters_of_read {text : List Char} {value : Text.Wide} {reached : Cursor}
    (read : readCharacters opened text offset seen = .ok (value, reached)) :
    ∃ body, IsCharacters body ∧ text = body ++ '"' :: reached.rest := by
  fun_induction readCharacters opened text offset seen with
  | case1 => contradiction
  | case2 offset seen rest =>
    obtain rfl : _ = reached := congrArg Prod.snd (Except.ok.inj read)
    exact ⟨[], .nil, rfl⟩
  | case3 => contradiction
  | case4 => contradiction
  | case5 => contradiction
  | case6 offset seen digits d length escaped _ _ ih =>
    obtain ⟨body, characters, behind⟩ := ih read
    refine ⟨_, characters_escape escaped characters, ?_⟩
    rw [List.cons_append, List.cons_append, List.append_assoc, ← behind, List.take_append_drop]
  | case7 offset seen d after _ e known _ _ ih =>
    obtain ⟨body, characters, rfl⟩ := ih read
    exact ⟨_, .escape (Option.isSome_iff_exists.mpr ⟨e, known⟩) characters, rfl⟩
  | case8 => contradiction
  | case9 offset seen c rest quote control backslash ih =>
    obtain ⟨body, characters, rfl⟩ := ih read
    exact ⟨_, .plain quote backslash (Nat.not_lt.mp control) characters, rfl⟩

theorem readCharacters_quote : readCharacters opened ('"' :: rest) offset seen =
    .ok (.ofList seen.reverse, ⟨some '"', rest, offset + 1⟩) := by
  rw [readCharacters.eq_def]
  rfl

theorem readCharacters_plain {c : Char} (quote : c ≠ '"') (backslash : c ≠ '\\')
    (control : 32 ≤ c.toNat) : readCharacters opened (c :: rest) offset seen =
      readCharacters opened rest (offset + 1) (c :: seen) := by
  rw [readCharacters.eq_def]
  dsimp only
  rw [if_neg quote, if_neg (Nat.not_lt.mpr control), if_neg backslash]

/-- Characters that need no escape are read as they are. -/
theorem readCharacters_letters (letters : ∀ c ∈ body, c ≠ '"' ∧ c ≠ '\\' ∧ 32 ≤ c.toNat) :
    readCharacters opened (body ++ '"' :: rest) offset seen =
      .ok (.ofList (seen.reverse ++ body.map .char), ⟨some '"', rest, offset + body.length + 1⟩) := by
  induction body generalizing offset seen with
  | nil => simp [readCharacters_quote]
  | cons c body ih =>
    obtain ⟨⟨quote, backslash, control⟩, others⟩ := List.forall_mem_cons.mp letters
    rw [List.cons_append, readCharacters_plain quote backslash control, ih others]
    simp [Nat.add_right_comm, Nat.add_assoc, Nat.add_comm 1]

theorem isCharacters_letters (letters : ∀ c ∈ body, c ≠ '"' ∧ c ≠ '\\' ∧ 32 ≤ c.toNat) :
    IsCharacters body := by
  induction body with
  | nil => exact .nil
  | cons c body ih =>
    obtain ⟨⟨quote, backslash, control⟩, others⟩ := List.forall_mem_cons.mp letters
    exact .plain quote backslash control (ih others)

theorem readCharacters_escape {c e : Char} (known : simpleEscape? c = some e) :
    readCharacters opened ('\\' :: c :: rest) offset seen =
      readCharacters opened rest (offset + 2) (e :: seen) := by
  have simple : c ≠ 'u' := by
    rintro rfl
    contradiction
  rw [readCharacters, if_neg (by decide), if_neg (by decide), if_pos rfl, known]
  exact simple

theorem readCharacters_unit {point : Point} {length : Nat}
    (read : unicodeEscape digits (offset + 2) = .ok (point, length)) :
    readCharacters opened ('\\' :: 'u' :: digits) offset seen =
      readCharacters opened (digits.drop length) (offset + 2 + length) (point :: seen) := by
  rw [readCharacters, if_neg (by decide), if_neg (by decide), if_pos rfl, read]

theorem exists_read_characters (characters : IsCharacters body) (rest : List Char) (offset : Nat)
    (seen : List Point) : ∃ value reached,
      readCharacters opened (body ++ '"' :: rest) offset seen = .ok (value, reached) ∧
        reached.rest = rest := by
  -- An escape may be read with the one behind it, so the induction is on the length.
  induction size : body.length using Nat.strongRecOn generalizing body offset seen with
  | _ n ih =>
    subst size
    cases characters with
    | nil => exact ⟨_, _, readCharacters_quote, rfl⟩
    | plain quote backslash control others =>
      rw [List.cons_append, readCharacters_plain quote backslash control]
      exact ih _ (Nat.lt_succ_self _) others _ _ rfl
    | @escape c more known others =>
      obtain ⟨e, known⟩ := Option.isSome_iff_exists.mp known
      rw [List.cons_append, List.cons_append, readCharacters_escape known]
      exact ih more.length (Nat.lt_add_of_pos_right (Nat.two_pos)) others _ _ rfl
    | unit isUnit others =>
      obtain ⟨c, length, behind, escaped, characters, form⟩ :=
        exists_escape isUnit others rest (offset + 2)
      rw [List.cons_append, List.cons_append, List.append_assoc, readCharacters_unit escaped, form]
      refine ih _ ?_ characters _ _ rfl
      have shorter := congrArg List.length form
      simp only [List.length_drop, List.length_append, List.length_cons] at shorter ⊢
      omega

end ContractInspector.Json
