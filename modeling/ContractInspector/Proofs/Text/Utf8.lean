import ContractInspector.Text.Utf8

/-! Reading UTF-8 undoes writing it: a character is read back from its bytes, whatever stands behind them.
A text without carriage returns keeps its line ends. -/
namespace ContractInspector.Text

namespace Utf8

variable {n second bits read : Nat} {c : Char} {rest : List UInt8}

theorem toNat_ofNat (byte : n < 256) : (UInt8.ofNat n).toNat = n := by
  rw [UInt8.toNat_ofNat', Nat.mod_eq_of_lt byte]

/-- A byte in the expected range adds its six bits. -/
theorem continued_ofNat {low high : Nat} {ranges : List (Nat × Nat)} (byte : n < 256)
    (least : low ≤ n) (greatest : n ≤ high) :
    continued ((low, high) :: ranges) bits read (UInt8.ofNat n :: rest) =
      continued ranges (bits * 64 + (n - 0x80)) (read + 1) rest := by
  rw [continued, toNat_ofNat byte, if_pos (by simpa using ⟨least, greatest⟩)]

theorem continued_nil (same : bits = c.toNat) :
    continued [] bits read rest = (.char c, rest) := by
  rw [continued, same, Char.ofNat_toNat]

/-- The second of three bytes is expected, unless two bytes would do or the number is a surrogate. -/
theorem expected?_three (n second : Nat) (least : 0xe0 ≤ n) (greatest : n < 0xf0)
    (tail : 0x80 ≤ second ∧ second ≤ 0xbf) (needed : n = 0xe0 → 0xa0 ≤ second)
    (scalar : n = 0xed → second ≤ 0x9f) :
    ∃ low high, expected? n = some (n - 0xe0, [(low, high), (0x80, 0xbf)]) ∧
      low ≤ second ∧ second ≤ high := by
  rw [expected?, if_neg (by omega), if_neg (by omega), if_neg (by omega), if_pos greatest]
  by_cases first : n = 0xe0
  · exact ⟨0xa0, 0xbf, by simp [first], needed first, tail.2⟩
  · by_cases surrogate : n = 0xed
    · exact ⟨0x80, 0x9f, by simp [surrogate], tail.1, scalar surrogate⟩
    · exact ⟨0x80, 0xbf, by simp [first, surrogate], tail⟩

/-- The second of four bytes is expected, unless three bytes would do or the number is past the last
character. -/
theorem expected?_four (n second : Nat) (least : 0xf0 ≤ n) (greatest : n < 0xf5)
    (tail : 0x80 ≤ second ∧ second ≤ 0xbf) (needed : n = 0xf0 → 0x90 ≤ second)
    (scalar : n = 0xf4 → second ≤ 0x8f) :
    ∃ low high, expected? n = some (n - 0xf0, [(low, high), (0x80, 0xbf), (0x80, 0xbf)]) ∧
      low ≤ second ∧ second ≤ high := by
  rw [expected?, if_neg (by omega), if_neg (by omega), if_neg (by omega), if_neg (by omega),
    if_pos greatest]
  by_cases first : n = 0xf0
  · exact ⟨0x90, 0xbf, by simp [first], needed first, tail.2⟩
  · by_cases last : n = 0xf4
    · exact ⟨0x80, 0x8f, by simp [last], tail.1, scalar last⟩
    · exact ⟨0x80, 0xbf, by simp [first, last], tail⟩

theorem next_one (greatest : c.toNat ≤ 0x7f) :
    next (UInt8.ofNat c.toNat) rest = (.char c, rest) := by
  rw [next, toNat_ofNat (by omega), expected?, if_pos (by omega)]
  exact continued_nil rfl

theorem next_two (least : 0x7f < c.toNat) (greatest : c.toNat ≤ 0x7ff) :
    next (UInt8.ofNat (c.toNat / 64 % 0x20 + 0xc0)) (UInt8.ofNat (c.toNat % 0x40 + 0x80) :: rest) =
      (.char c, rest) := by
  rw [next, toNat_ofNat (by omega), expected?, if_neg (by omega), if_neg (by omega),
    if_pos (by omega)]
  dsimp only
  rw [continued_ofNat (by omega) (by omega) (by omega)]
  exact continued_nil (by omega)

theorem next_three (least : 0x7ff < c.toNat) (greatest : c.toNat ≤ 0xffff)
    (scalar : c.toNat < 0xd800 ∨ 0xdfff < c.toNat) :
    next (UInt8.ofNat (c.toNat / 4096 % 0x10 + 0xe0))
      (UInt8.ofNat (c.toNat / 64 % 0x40 + 0x80) :: UInt8.ofNat (c.toNat % 0x40 + 0x80) :: rest) =
        (.char c, rest) := by
  obtain ⟨low, high, expected, from_low, to_high⟩ :=
    expected?_three (c.toNat / 4096 % 0x10 + 0xe0) (c.toNat / 64 % 0x40 + 0x80)
      (by omega) (by omega) (by omega) (by omega) (by omega)
  rw [next, toNat_ofNat (by omega), expected]
  dsimp only
  rw [continued_ofNat (by omega) from_low to_high,
    continued_ofNat (by omega) (by omega) (by omega)]
  exact continued_nil (by omega)

theorem next_four (least : 0xffff < c.toNat) (greatest : c.toNat < 0x110000) :
    next (UInt8.ofNat (c.toNat / 262144 % 0x08 + 0xf0))
      (UInt8.ofNat (c.toNat / 4096 % 0x40 + 0x80) :: UInt8.ofNat (c.toNat / 64 % 0x40 + 0x80) ::
        UInt8.ofNat (c.toNat % 0x40 + 0x80) :: rest) = (.char c, rest) := by
  obtain ⟨low, high, expected, from_low, to_high⟩ :=
    expected?_four (c.toNat / 262144 % 0x08 + 0xf0) (c.toNat / 4096 % 0x40 + 0x80)
      (by omega) (by omega) (by omega) (by omega) (by omega)
  rw [next, toNat_ofNat (by omega), expected]
  dsimp only
  rw [continued_ofNat (by omega) from_low to_high,
    continued_ofNat (by omega) (by omega) (by omega),
    continued_ofNat (by omega) (by omega) (by omega)]
  exact continued_nil (by omega)

/-- A character is read back from its bytes, whatever stands behind them. -/
theorem next_encodeChar (c : Char) (rest : List UInt8) :
    ∃ first more, String.utf8EncodeChar c = first :: more ∧
      next first (more ++ rest) = (.char c, rest) := by
  have ranges : c.toNat < 0xd800 ∨ 0xdfff < c.toNat ∧ c.toNat < 0x110000 := c.valid
  rw [String.utf8EncodeChar]
  split
  · next one => exact ⟨_, _, rfl, next_one one⟩
  · next beyond_one =>
    split
    · next two => exact ⟨_, _, rfl, next_two (Nat.not_le.mp beyond_one) two⟩
    · next beyond_two =>
      split
      · next three =>
        exact ⟨_, _, rfl, next_three (Nat.not_le.mp beyond_two) three (ranges.imp_right And.left)⟩
      · next beyond_three =>
        have greatest : c.toNat < 0x110000 := by omega
        exact ⟨_, _, rfl, next_four (Nat.not_le.mp beyond_three) greatest⟩

theorem decodeOnto_encode (text : List Char) (offset : Nat) (seen : List Char) :
    decodeOnto (encode text) offset seen = .ok (seen.reverse ++ text) := by
  induction text generalizing offset seen with
  | nil => rw [encode, List.flatMap_nil, decodeOnto, List.append_nil]
  | cons c text ih =>
    obtain ⟨first, more, bytes, found⟩ := next_encodeChar c (encode text)
    have split : encode (c :: text) = first :: (more ++ encode text) := by
      rw [encode, List.flatMap_cons, bytes]
      rfl
    rw [split, decodeOnto, found]
    dsimp only
    rw [ih, List.reverse_cons, List.append_assoc, List.singleton_append]

theorem length_le_of_decodeOnto {bytes : List UInt8} {offset : Nat} {seen text : List Char}
    (decoded : decodeOnto bytes offset seen = .ok text) : seen.length ≤ text.length := by
  fun_induction decodeOnto bytes offset seen with
  | case1 offset seen =>
    cases decoded
    exact Nat.le_of_eq List.length_reverse.symm
  | case2 offset seen first rest c found ih =>
    exact Nat.le_trans (Nat.le_succ _) (ih decoded)
  | case3 => contradiction

theorem decode_encode (text : List Char) : decode (encode text) = .ok text := by
  rw [decode, decodeOnto_encode, List.reverse_nil, List.nil_append]

/-- Only no bytes at all are read as an empty text. -/
theorem decode_eq_nil_iff {bytes : List UInt8} : decode bytes = .ok [] ↔ bytes = [] := by
  constructor
  · intro decoded
    cases bytes with
    | nil => rfl
    | cons first rest =>
      rw [decode, decodeOnto] at decoded
      split at decoded
      · exact absurd (length_le_of_decodeOnto decoded) (by simp)
      · contradiction
  · rintro rfl
    exact decode_encode []

end Utf8

theorem newlinesOnto_eq {text : List Char} (none : '\r' ∉ text) (seen : List Char) :
    newlinesOnto text seen = seen.reverse ++ text := by
  induction text generalizing seen with
  | nil => rw [newlinesOnto, List.append_nil]
  | cons c text ih =>
    obtain ⟨other, others⟩ := not_or.mp (mt List.mem_cons.mpr none)
    rw [newlinesOnto, if_neg (Ne.symm other), ih others, List.reverse_cons, List.append_assoc,
      List.singleton_append]
    rintro rest rfl
    exact absurd rfl other

/-- A text without carriage returns has no other line ends than newlines. -/
theorem withNewlines_eq_self {text : List Char} (none : '\r' ∉ text) : withNewlines text = text := by
  rw [withNewlines, newlinesOnto_eq none, List.reverse_nil, List.nil_append]

theorem length_le_newlinesOnto (text seen : List Char) :
    seen.length ≤ (newlinesOnto text seen).length := by
  fun_induction newlinesOnto text seen with
  | case1 seen => exact Nat.le_of_eq List.length_reverse.symm
  | case2 seen rest ih => exact Nat.le_trans (Nat.le_succ _) ih
  | case3 seen c rest _ ih => exact Nat.le_trans (Nat.le_succ _) ih

theorem length_lt_newlinesOnto {text : List Char} (nonempty : text ≠ []) (seen : List Char) :
    seen.length < (newlinesOnto text seen).length := by
  fun_cases newlinesOnto text seen with
  | case1 => contradiction
  | case2 rest => exact length_le_newlinesOnto rest ('\n' :: seen)
  | case3 c rest => exact length_le_newlinesOnto rest (_ :: seen)

theorem withNewlines_eq_nil_iff {text : List Char} : withNewlines text = [] ↔ text = [] := by
  constructor
  · intro nothing
    apply Decidable.byContradiction
    intro nonempty
    exact List.ne_nil_of_length_pos (length_lt_newlinesOnto nonempty []) nothing
  · rintro rfl
    rfl

end ContractInspector.Text
