import Mathlib.Algebra.Group.Nat.Defs
import ContractInspector.Text.Decimal

/-! Numbers as they are written and read. A number is read back from its decimal digits, unless there
are too many of them. -/
namespace ContractInspector.Text

theorem toNat_of_isDigit {c : Char} (digit : c.isDigit = true) : 48 ≤ c.toNat ∧ c.toNat ≤ 57 := by
  simp only [Char.isDigit, Bool.and_eq_true, decide_eq_true_eq] at digit
  exact ⟨UInt32.le_iff_toNat_le.mp digit.1, UInt32.le_iff_toNat_le.mp digit.2⟩

theorem digitValue?_of_isDigit {c : Char} (digit : c.isDigit = true) :
    digitValue? c = some (c.toNat - 48) := by
  obtain ⟨low, high⟩ := toNat_of_isDigit digit
  have within : (decide (48 ≤ c.toNat) && decide (c.toNat < 48 + 10)) = true := by
    simp only [Bool.and_eq_true, decide_eq_true_eq]
    omega
  have zero : digitZeros.find? (fun first => first ≤ c.toNat && c.toNat < first + 10) = some 48 :=
    List.find?_cons_of_pos within
  rw [digitValue?, zero, Option.map_some]

theorem isDigit_of_mem_toDigits {c : Char} {n : Nat} (member : c ∈ Nat.toDigits 10 n) :
    isDigit c = true := by
  rw [isDigit, digitValue?_of_isDigit (Nat.isDigit_of_mem_toDigits (by decide) (by decide) member)]
  rfl

theorem mem_of_mem_toDigits {c : Char} {n : Nat} (member : c ∈ Nat.toDigits 10 n) :
    c ∈ "0123456789".toList := by
  obtain ⟨low, high⟩ := toNat_of_isDigit (Nat.isDigit_of_mem_toDigits (by decide) (by decide) member)
  have each : ∀ k < 58, 48 ≤ k → Char.ofNat k ∈ "0123456789".toList := by decide
  rw [← Char.ofNat_toNat c]
  exact each c.toNat (by omega) low

theorem decimal_toDigits (n : Nat) : decimal (Nat.toDigits 10 n) = n := by
  have step : ∀ digits : List Char, (∀ c ∈ digits, c.isDigit = true) → ∀ start,
      digits.foldl (fun n c => 10 * n + (digitValue? c).getD 0) start =
        Nat.ofDigitChars 10 digits start := by
    intro digits
    induction digits with
    | nil => simp
    | cons c digits ih =>
      intro all start
      obtain ⟨digit, others⟩ := List.forall_mem_cons.mp all
      rw [List.foldl_cons, ih others, Nat.ofDigitChars_cons, digitValue?_of_isDigit digit]
      rfl
  have all : ∀ c ∈ Nat.toDigits 10 n, c.isDigit = true := by
    intro c member
    exact Nat.isDigit_of_mem_toDigits (by decide) (by decide) member
  rw [decimal, step _ all, Nat.ofDigitChars_ten_toDigits]

theorem readDecimal_toDigits {n : Nat} (short : n < 10 ^ maxDigits) :
    readDecimal (Nat.toDigits 10 n) = .ok n := by
  have few : (Nat.toDigits 10 n).length ≤ maxDigits :=
    (Nat.length_toDigits_le_iff (by decide) (by decide)).mpr short
  rw [readDecimal, if_neg (Nat.not_lt.mpr few), decimal_toDigits]

theorem readDecimal_toDigits_long {n : Nat} (long : ¬n < 10 ^ maxDigits) :
    readDecimal (Nat.toDigits 10 n) = .error ⟨(Nat.toDigits 10 n).length⟩ := by
  have many : ¬(Nat.toDigits 10 n).length ≤ maxDigits := by
    rwa [Nat.length_toDigits_le_iff (by decide) (by decide)]
  rw [readDecimal, if_pos (Nat.not_le.mp many)]

end ContractInspector.Text
