import ContractInspector.Text.LowerCase

/-! Lower case and ASCII. A word of ASCII characters without a `k` stands at the front of a text in lower
case exactly if it stands there with the case of the ASCII letters alone ignored (`prefix_lower_iff`):
no other character has a lower case in it. -/
namespace ContractInspector.Text

/-- A character of words that is the lower case of ASCII characters only. -/
def Plain (c : Char) : Prop :=
  c.toNat < 128 ∧ c ≠ 'k'

instance (c : Char) : Decidable (Plain c) :=
  inferInstanceAs (Decidable (_ ∧ _))

/-- The lower case of all letters of a run is beyond ASCII, but for the Kelvin sign. -/
def CaseRun.Foreign (run : CaseRun) : Prop :=
  (run.first = 0x212a ∧ run.last = 0x212a ∧ run.shift = 107 - 0x212a) ∨
    (128 ≤ run.first + run.shift ∧ run.last + run.shift < 0xd800) ∨
    (0xe000 ≤ run.first + run.shift ∧ run.last + run.shift < 0x110000)

instance (run : CaseRun) : Decidable run.Foreign :=
  inferInstanceAs (Decidable (_ ∨ _))

theorem foreign_of_mem {run : CaseRun} (member : run ∈ caseRuns) : run.Foreign := by
  have all : ∀ run ∈ caseRuns.toList, run.Foreign := by decide +kernel
  exact all run (Array.mem_toList_iff.mpr member)

theorem toNat_ofNat {n : Nat} (valid : n.isValidChar) : (Char.ofNat n).toNat = n := by
  rw [Char.ofNat, dif_pos valid]
  rfl

theorem not_plain_of_foreign {run : CaseRun} (foreign : run.Foreign) {n : Nat} (low : run.first ≤ n)
    (high : n ≤ run.last) : ¬ Plain (Char.ofNat (n + run.shift).toNat) := by
  rintro ⟨ascii, notK⟩
  rcases foreign with ⟨first, last, shift⟩ | ⟨above, valid⟩ | ⟨above, valid⟩
  · apply notK
    have only : (n + run.shift).toNat = 107 := by omega
    rw [only]
  · rw [toNat_ofNat (Or.inl (by omega))] at ascii
    omega
  · rw [toNat_ofNat (Or.inr ⟨by omega, by omega⟩)] at ascii
    omega

/-- The lower case of a character where it stands. -/
def lowered (seen : List Char) (c : Char) (rest : List Char) : List Char :=
  if c == '\u03a3' then [if endsWord seen rest then '\u03c2' else '\u03c3'] else lowerCase c

theorem lowerOnto_eq (text seen done : List Char) :
    lowerOnto text seen done = done.reverse ++ lowerOnto text seen [] := by
  induction text generalizing seen done with
  | nil => simp [lowerOnto]
  | cons c rest ih =>
    rw [lowerOnto, lowerOnto]
    split
    · rw [ih, ih (c :: seen) [_]]
      simp
    · rw [ih, ih (c :: seen) (_ ++ [])]
      simp

theorem lowerOnto_cons (c : Char) (rest seen : List Char) :
    lowerOnto (c :: rest) seen [] = lowered seen c rest ++ lowerOnto rest (c :: seen) [] := by
  rw [lowerOnto, lowered]
  split
  · rw [lowerOnto_eq]
    rfl
  · rw [lowerOnto_eq, List.append_nil, List.reverse_reverse]

theorem lowered_of_ascii {c : Char} (ascii : c.toNat < 128) (seen rest : List Char) :
    lowered seen c rest = [c.toLower] := by
  have notSigma : (c == '\u03a3') = false := by
    apply beq_false_of_ne
    rintro rfl
    exact absurd ascii (by decide)
  rw [lowered, notSigma, lowerCase, if_neg (by decide), if_pos ascii]

/-- Beyond ASCII the lower case of a character starts with no plain one, or it is the dotted `i`. -/
theorem lowered_of_foreign {c : Char} (foreign : ¬ c.toNat < 128) (seen rest : List Char) :
    (∃ first, lowered seen c rest = [first] ∧ ¬ Plain first) ∨
      lowered seen c rest = ['i', '\u0307'] := by
  rw [lowered]
  split
  · apply Or.inl
    split
    · exact ⟨_, rfl, by decide⟩
    · exact ⟨_, rfl, by decide⟩
  · rw [lowerCase, if_neg foreign]
    split
    · exact Or.inr rfl
    · apply Or.inl
      cases found : caseRun? c with
      | none => exact ⟨c, rfl, fun plain => foreign plain.1⟩
      | some run =>
        obtain ⟨atIndex, inRun⟩ := Option.filter_eq_some_iff.mp found
        rw [Bool.and_eq_true, Bool.and_eq_true, decide_eq_true_eq, decide_eq_true_eq] at inRun
        have isForeign := foreign_of_mem (Array.mem_of_getElem? atIndex)
        exact ⟨_, rfl, not_plain_of_foreign isForeign inRun.1.1 inRun.1.2⟩

theorem toLower_of_foreign {c : Char} (foreign : ¬ c.toNat < 128) : c.toLower = c := by
  apply dif_neg
  rintro ⟨-, below⟩
  exact foreign (Nat.lt_of_le_of_lt (UInt32.le_iff_toNat_le.mp below) (by decide))

/-- A plain word in front of `tail` or of what stands there in lower case. The word does not end in the
letter that the lower case of a dotted capital starts with. -/
theorem prefix_lowerOnto_iff {word : List Char} (plain : ∀ c ∈ word, Plain c)
    (ends : word.getLast? ≠ some 'i') (text seen tail : List Char) :
    word <+: lowerOnto text seen [] ++ tail ↔ word <+: text.map Char.toLower ++ tail := by
  induction text generalizing word seen with
  | nil => rfl
  | cons c rest ih =>
    cases word with
    | nil => exact iff_of_true List.nil_prefix List.nil_prefix
    | cons a word =>
      have others : ∀ c ∈ word, Plain c := fun c member => plain c (List.mem_cons_of_mem a member)
      have stillEnds : word.getLast? ≠ some 'i' := by
        cases word with
        | nil => simp
        | cons b word => rwa [List.getLast?_cons_cons] at ends
      rw [lowerOnto_cons, List.map_cons, List.cons_append]
      by_cases ascii : c.toNat < 128
      · rw [lowered_of_ascii ascii, List.singleton_append, List.cons_append, List.cons_prefix_cons,
          List.cons_prefix_cons, ih others stillEnds]
      · have differs : a ≠ c.toLower := by
          rw [toLower_of_foreign ascii]
          rintro rfl
          exact ascii (plain a List.mem_cons_self).1
        rw [List.cons_prefix_cons, iff_false_right fun same => differs same.1]
        rcases lowered_of_foreign ascii seen rest with ⟨first, single, foreign⟩ | dotted
        · rw [single, List.singleton_append, List.cons_append, List.cons_prefix_cons]
          rintro ⟨rfl, -⟩
          exact foreign (plain a List.mem_cons_self)
        · rw [dotted, List.cons_append, List.cons_append, List.cons_append, List.cons_prefix_cons]
          rintro ⟨rfl, starts⟩
          cases word with
          | nil => exact ends rfl
          | cons b word =>
            rw [List.cons_append, List.cons_prefix_cons] at starts
            have isPlain := others b List.mem_cons_self
            rw [starts.1] at isPlain
            exact absurd isPlain (by decide)

/-- A plain word stands at the front of a text in lower case if it stands there but for case. -/
theorem prefix_lower_iff {word : List Char} (plain : ∀ c ∈ word, Plain c)
    (ends : word.getLast? ≠ some 'i') (text : List Char) :
    word <+: lower text ↔ word <+: text.map Char.toLower := by
  have front := prefix_lowerOnto_iff plain ends text [] []
  rwa [List.append_nil, List.append_nil] at front

/-- A text in lower case is a word, or the word and a plain character stand at its front. -/
theorem lower_below_iff {word : List Char} {stop : Char} (plain : ∀ c ∈ word ++ [stop], Plain c)
    (ends : stop ≠ 'i') (text : List Char) :
    lower text = word ∨ word ++ [stop] <+: lower text ↔
      text.map Char.toLower = word ∨ word ++ [stop] <+: text.map Char.toLower := by
  have closed : ∀ whole : List Char,
      whole = word ∨ word ++ [stop] <+: whole ↔ word ++ [stop] <+: whole ++ [stop] := by
    intro whole
    rw [List.prefix_concat_iff, List.append_left_inj, eq_comm]
  rw [closed, closed]
  exact prefix_lowerOnto_iff plain (by simpa using ends) text [] [stop]

end ContractInspector.Text
