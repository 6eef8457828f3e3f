import ContractInspector.Proofs.Text.Behind

/-! There are a few blanks, and each of them can be looked at: none is a digit or a letter of a word, and
none starts what a pattern with visible starts looks for. -/
namespace ContractInspector.Text

/-- The code points of the blanks. -/
def blankPoints : List Nat :=
  [9, 10, 11, 12, 13, 28, 29, 30, 31, 32, 0x85, 0xa0, 0x1680, 0x2000, 0x2001, 0x2002, 0x2003, 0x2004,
    0x2005, 0x2006, 0x2007, 0x2008, 0x2009, 0x200a, 0x2028, 0x2029, 0x202f, 0x205f, 0x3000]

theorem mem_blankPoints {c : Char} (blank : isBlank c = true) : c.toNat ∈ blankPoints := by
  simp only [isBlank, Bool.or_eq_true, Bool.and_eq_true, decide_eq_true_eq, beq_iff_eq] at blank
  simp only [blankPoints, List.mem_cons, List.not_mem_nil]
  omega

theorem forall_blank {holds : Char → Prop} (each : ∀ n ∈ blankPoints, holds (Char.ofNat n)) {c : Char}
    (blank : isBlank c = true) : holds c := by
  have here := each c.toNat (mem_blankPoints blank)
  rwa [Char.ofNat_toNat] at here

theorem isDigit_of_isBlank {c : Char} (blank : isBlank c = true) : isDigit c = false := by
  have each : ∀ n ∈ blankPoints, isDigit (Char.ofNat n) = false := by decide +kernel
  exact @forall_blank (isDigit · = false) each c blank

theorem isWord_of_isBlank {c : Char} (blank : isBlank c = true) : isWord c = false := by
  have each : ∀ n ∈ blankPoints, isWord (Char.ofNat n) = false := by decide +kernel
  exact @forall_blank (isWord · = false) each c blank

theorem isBlank_of_isDigit {c : Char} (digit : isDigit c = true) : isBlank c = false := by
  refine Bool.eq_false_iff.mpr fun blank => ?_
  rw [isDigit_of_isBlank blank] at digit
  contradiction

theorem isBlank_of_isWord {c : Char} (word : isWord c = true) : isBlank c = false := by
  refine Bool.eq_false_iff.mpr fun blank => ?_
  rw [isWord_of_isBlank blank] at word
  contradiction

theorem toLower_of_isBlank {c : Char} (blank : isBlank c = true) : c.toLower = c := by
  have each : ∀ n ∈ blankPoints, (Char.ofNat n).toLower = Char.ofNat n := by decide +kernel
  exact @forall_blank (fun c => c.toLower = c) each c blank

/-- A pattern that looks for the ends of words only, and does not start with a blank, avoids blanks. -/
theorem avoids_of_isBlank {pattern : Pattern} {n : Nat} {c : Char}
    (looks : pattern.lookbehinds = List.replicate n isWord)
    (starts : ∀ n ∈ blankPoints, (pattern.starts .anything).allowChar (Char.ofNat n) = false)
    (blank : isBlank c = true) : pattern.Avoids c := by
  refine ⟨@forall_blank (fun c => (pattern.starts .anything).allowChar c = false) starts c blank, ?_⟩
  intro holds member
  rw [looks] at member
  obtain rfl := List.eq_of_mem_replicate member
  exact isWord_of_isBlank blank

end ContractInspector.Text
