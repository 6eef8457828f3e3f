import ContractInspector.Proofs.Source.Masking

/-! Offsets between lexemes. A text that is cut there is masked piece by piece: `mask_slice` says that
a slice between two seams masks to the same slice of the masked text. -/
namespace ContractInspector.Source

/-- An offset between two lexemes of a text, or at its start. -/
inductive Seam : List Char → Nat → Prop where
  | start {text : List Char} : Seam text 0
  | behind {text after : List Char} {lexeme : Lexeme} {n : Nat} : Reads text lexeme after →
      Seam after n → Seam text (lexeme.source.length + n)

/-- A character that masking leaves standing in code only. -/
def CodeOnly (c : Char) : Prop :=
  c ≠ ' ' ∧ c ≠ '\n' ∧ isQuote c = false

instance : DecidablePred CodeOnly :=
  fun c => inferInstanceAs (Decidable (c ≠ ' ' ∧ c ≠ '\n' ∧ isQuote c = false))

variable {text after : List Char} {lexeme : Lexeme} {m n : Nat}

/-- What stands behind a lexeme may be cut short. -/
theorem Reads.shorten {front : List Char} (reads : Reads text lexeme after)
    (starts : front = [] ∨ front.head? = after.head?) :
    Reads (lexeme.source ++ front) lexeme front := by
  cases reads with
  | @code c _ notQuote slash =>
    apply Reads.code notQuote
    intro same
    rcases starts with rfl | starts
    · simp
    · exact starts ▸ slash same
  | @lineComment body _ inLine ends =>
    refine Reads.lineComment inLine ?_
    rcases starts with rfl | starts
    · exact .inl rfl
    · exact ends.imp (fun none => by simpa [none] using starts) (starts.trans ·)
  | @blockComment body _ endFree =>
    simpa [Lexeme.source] using @Reads.blockComment body front endFree
  | @openComment body endFree =>
    have : front = [] := by simpa using starts
    simpa [Lexeme.source, this] using Reads.openComment endFree
  | @literal quote contents _ isQuoted inside =>
    simpa [Lexeme.source] using @Reads.literal quote contents front isQuoted inside
  | @openLiteral quote contents isQuoted unclosed =>
    have : front = [] := by simpa using starts
    simpa [Lexeme.source, this] using Reads.openLiteral isQuoted unclosed

namespace Seam

theorem trans (first : Seam text m) (second : Seam (text.drop m) n) : Seam text (m + n) := by
  induction first with
  | start => simpa using second
  | behind reads _ ih =>
    rw [reads.source, List.drop_length_add_append] at second
    rw [Nat.add_assoc]
    exact .behind reads (ih second)

theorem sub (first : Seam text m) (second : Seam text (m + n)) : Seam (text.drop m) n := by
  induction first with
  | start => simpa using second
  | @behind _ after lexeme m reads _ ih =>
    rw [reads.source, List.drop_length_add_append]
    generalize total : lexeme.source.length + m + n = k at second
    cases second with
    | start =>
      have := List.length_pos_iff.mpr reads.source_ne_nil
      omega
    | @behind _ _ _ k read later =>
      obtain ⟨rfl, rfl⟩ := reads.unique read
      have : k = m + n := by omega
      exact ih (this ▸ later)

theorem mask_drop (seam : Seam text n) (literals : Bool) :
    mask literals (text.drop n) = (mask literals text).drop n := by
  induction seam with
  | start => simp
  | behind reads _ ih =>
    rw [reads.mask, reads.source, List.drop_length_add_append, ih,
      ← Lexeme.length_masked literals, List.drop_length_add_append]

theorem mask_take (seam : Seam text n) (literals : Bool) :
    mask literals (text.take n) = (mask literals text).take n := by
  induction seam with
  | start => simp
  | @behind _ after lexeme n reads _ ih =>
    have starts : after.take n = [] ∨ (after.take n).head? = after.head? := by
      cases n <;> simp [List.head?_take]
    rw [reads.mask, reads.source, List.take_length_add_append, (reads.shorten starts).mask, ih,
      ← Lexeme.length_masked literals, List.take_length_add_append]

theorem mask_slice (first : Seam text m) (last : Seam text n) (literals : Bool) :
    mask literals (Text.slice text m n) = Text.slice (mask literals text) m n := by
  by_cases order : m ≤ n
  · have rest : Seam (text.drop m) (n - m) := first.sub (by rwa [Nat.add_sub_cancel' order])
    rw [Text.slice, Text.slice, rest.mask_take, first.mask_drop]
  · have none : n - m = 0 := by omega
    simp [Text.slice, none]

end Seam

theorem blanked_not_codeOnly (c : Char) : ¬CodeOnly (blanked c) := by
  rintro ⟨space, newline, -⟩
  exact (blanked_eq c).elim space newline

/-- Within a masked lexeme only code shows such a character. -/
theorem Reads.masked_codeOnly {c : Char} (reads : Reads text lexeme after)
    (member : (lexeme.masked true)[n]? = some c) (codeOnly : CodeOnly c) :
    n = 0 ∧ lexeme = .code c := by
  have blank : ∀ part : List Char, c ∉ part.map blanked := by
    intro part member
    obtain ⟨d, _, rfl⟩ := List.mem_map.mp member
    exact blanked_not_codeOnly d codeOnly
  cases lexeme with
  | code d =>
    obtain ⟨rfl, rfl⟩ : n = 0 ∧ d = c := by
      simpa [Lexeme.masked, List.getElem?_singleton] using member
    exact ⟨rfl, rfl⟩
  | comment text => exact absurd (List.mem_of_getElem? member) (blank text)
  | literal quote contents closed =>
    have isQuoted : isQuote quote = true := by cases reads <;> assumption
    have different : c ≠ quote := fun same => by simp [same ▸ isQuoted, CodeOnly] at codeOnly
    have found := List.mem_of_getElem? member
    simp only [Lexeme.masked, if_true, List.cons_append, List.mem_cons, List.mem_append,
      different, blank contents, false_or] at found
    cases closed <;> simp [different] at found

/-- A character of code that shows in the masked text is a lexeme of the text. -/
theorem code_at {c : Char} (kept : (maskAll text)[n]? = some c) (codeOnly : CodeOnly c) :
    Seam text n ∧ ∃ after, text.drop n = c :: after ∧ Reads (c :: after) (.code c) after := by
  induction text using lexing_induction generalizing n with
  | nil => simp [maskAll] at kept
  | @reads text lexeme after read ih =>
    rw [maskAll, read.mask] at kept
    by_cases inside : n < (lexeme.masked true).length
    · rw [List.getElem?_append_left inside] at kept
      obtain ⟨rfl, rfl⟩ := read.masked_codeOnly kept codeOnly
      have source : text = c :: after := read.source
      exact ⟨.start, after, by simpa using source, source ▸ read⟩
    · rw [List.getElem?_append_right (Nat.le_of_not_lt inside)] at kept
      obtain ⟨k, rfl⟩ := Nat.exists_eq_add_of_le (Nat.le_of_not_lt inside)
      rw [Nat.add_sub_cancel_left] at kept
      obtain ⟨seam, behind, rest, code⟩ := ih kept
      rw [Lexeme.length_masked]
      refine ⟨.behind read seam, behind, ?_, code⟩
      rw [read.source, List.drop_length_add_append, rest]

theorem seam_behind {c : Char} (kept : (maskAll text)[n]? = some c) (codeOnly : CodeOnly c) :
    Seam text (n + 1) := by
  obtain ⟨seam, after, rest, code⟩ := code_at kept codeOnly
  exact seam.trans (rest ▸ Seam.behind code .start)

section Appending

variable {front piece rest : List Char} {c : Char}

/-- What stands behind a character of code does not matter for the masked text in front of it. -/
theorem Reads.extend {after : List Char} {lexeme : Lexeme} (reads : Reads text lexeme after)
    (nonempty : after ≠ []) (behind : List Char) : Reads (text ++ behind) lexeme (after ++ behind) := by
  obtain ⟨d, others, rfl⟩ := List.exists_cons_of_ne_nil nonempty
  cases reads with
  | code notQuote slash => exact .code notQuote slash
  | @lineComment body _ inLine ends =>
    have newline : (d :: others ++ behind).head? = some '\n' := by simpa using ends
    simpa using Reads.lineComment inLine (.inr newline)
  | @blockComment body _ endFree =>
    simpa using @Reads.blockComment body (d :: others ++ behind) endFree
  | @literal quote contents _ isQuoted inside =>
    simpa using @Reads.literal quote contents (d :: others ++ behind) isQuoted inside

theorem mask_append_of_code (codeOnly : CodeOnly c) (noSlash : c ≠ '/')
    (ends : (maskAll front).getLast? = some c) (literals : Bool) (behind : List Char) :
    mask literals (front ++ behind) = mask literals front ++ mask literals behind := by
  induction front using lexing_induction with
  | nil => simp [maskAll] at ends
  | @reads front lexeme after reads ih =>
    rw [maskAll, reads.mask] at ends
    by_cases last : after = []
    · subst last
      rw [mask_nil, List.append_nil, List.getLast?_eq_getElem?] at ends
      obtain ⟨-, rfl⟩ := reads.masked_codeOnly ends codeOnly
      have source : front = [c] := reads.source
      subst source
      rw [List.singleton_append, mask_code literals codeOnly.2.2 (fun slash => absurd slash noSlash),
        mask_code literals codeOnly.2.2 (fun slash => absurd slash noSlash), mask_nil]
      rfl
    · have visible : mask true after ≠ [] := by
        intro none
        exact last (List.length_eq_zero_iff.mp ((length_mask true after).symm.trans (by rw [none]; rfl)))
      rw [List.getLast?_append_of_ne_nil _ visible] at ends
      rw [(reads.extend last behind).mask literals, ih ends, reads.mask literals, List.append_assoc]

/-- Code without quotes and comments is masked as it is, wherever it stands. -/
theorem mask_append_of_shown (shown : maskAll piece = piece) (quoteless : ∀ c ∈ piece, isQuote c = false)
    (slash : rest.head? ≠ some '/' ∧ rest.head? ≠ some '*') (literals : Bool) :
    mask literals (piece ++ rest) = piece ++ mask literals rest := by
  induction piece using lexing_induction with
  | nil => rfl
  | @reads piece lexeme after reads ih =>
    rw [maskAll, reads.mask] at shown
    have first : ∀ c d others, lexeme.source = c :: others → (lexeme.masked true).head? = some d → c = d := by
      intro c d others source head
      have same := congrArg List.head? shown
      rw [List.head?_append, head, Option.some_or, reads.source, source] at same
      exact (Option.some.inj same).symm
    cases reads with
    | @code c _ notQuote follows =>
      have later : maskAll after = after := (List.cons.inj shown).2
      rw [List.cons_append, mask_code literals notQuote fun same => ?_, ih later fun d member => ?_]
      · rfl
      · exact quoteless d (List.mem_cons_of_mem c member)
      · cases after with
        | nil => exact slash
        | cons d others => exact follows same
    | lineComment => exact absurd (first _ _ _ rfl rfl).symm (blanked_ne_slash _)
    | blockComment => exact absurd (first _ _ _ rfl rfl).symm (blanked_ne_slash _)
    | openComment => exact absurd (first _ _ _ rfl rfl).symm (blanked_ne_slash _)
    | literal isQuoted =>
      have plain := quoteless _ List.mem_cons_self
      exact nomatch isQuoted.symm.trans plain
    | openLiteral isQuoted =>
      have plain := quoteless _ List.mem_cons_self
      exact nomatch isQuoted.symm.trans plain

end Appending

end ContractInspector.Source
