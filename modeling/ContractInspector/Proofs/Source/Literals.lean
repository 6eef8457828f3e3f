import ContractInspector.Proofs.Source.Comments

/-! Sources with blanked literals. `blankLiterals` blanks the contents of all literals but those that an
`include` in code is followed by. Whichever literals are blanked, the source masks to the same text, and
what is changed stands behind a quote that is not. -/
namespace ContractInspector.Source

open Text (isBlank isWord slice strip slice_congr getElem?_slice)

/-- The masked text before a place, which is in reverse, ends with the keyword `include` and blanks. -/
def isIncluded (before : List Char) : Bool :=
  let word := before.dropWhile isBlank
  "include".toList.reverse.isPrefixOf word && !(word.drop 7).head?.any isWord

/-- A lexeme with its contents blanked, if it is a literal that no `include` stands before. -/
def Lexeme.inert (before : List Char) : Lexeme → List Char
  | literal quote contents closed => (literal quote contents closed).masked !(isIncluded before)
  | lexeme => lexeme.source

/-- The lexemes that follow a masked text, which is in reverse, with their literals blanked. -/
def inertFrom (before : List Char) : List Lexeme → List Char
  | [] => []
  | lexeme :: rest =>
    lexeme.inert before ++ inertFrom ((lexeme.masked true).reverse ++ before) rest

/-- The source with the contents of literals blanked, apart from literals that are included. -/
def blankLiterals (text : List Char) : List Char :=
  inertFrom [] (lexemes text)

/-- A text with the contents of some of its literals blanked. -/
inductive Rewrites : List Char → List Char → Prop where
  | nil : Rewrites [] []
  | kept {text after other : List Char} {lexeme : Lexeme} : Reads text lexeme after →
      Rewrites after other → Rewrites text (lexeme.source ++ other)
  | blanked {text after other contents : List Char} {quote : Char} {closed : Bool} :
      Reads text (.literal quote contents closed) after → Rewrites after other →
      Rewrites text ((Lexeme.literal quote contents closed).masked true ++ other)

variable {text other : List Char} {n : Nat}

theorem rewrites_inertFrom (text before : List Char) :
    Rewrites text (inertFrom before (lexemes text)) := by
  induction text using lexing_induction generalizing before with
  | nil => simpa [inertFrom] using Rewrites.nil
  | @reads text lexeme after read ih =>
    rw [read.lexemes, inertFrom]
    cases lexeme with
    | code c => exact .kept read (ih _)
    | comment text => exact .kept read (ih _)
    | literal quote contents closed =>
      rw [Lexeme.inert]
      cases isIncluded before with
      | true => exact .kept read (ih _)
      | false => exact .blanked read (ih _)

theorem rewrites_blankLiterals (text : List Char) : Rewrites text (blankLiterals text) :=
  rewrites_inertFrom text []

theorem isBlank_quote {quote : Char} (isQuoted : isQuote quote = true) : isBlank quote = false := by
  rcases isQuote_iff.mp isQuoted with rfl | rfl | rfl <;> decide

theorem Reads.isQuote {after contents : List Char} {quote : Char} {closed : Bool}
    (reads : Reads text (.literal quote contents closed) after) : isQuote quote = true := by
  cases reads <;> assumption

theorem Reads.blanked {after contents : List Char} {quote : Char} {closed : Bool}
    (reads : Reads text (.literal quote contents closed) after) (starts : other.head? = after.head?) :
    Reads ((Lexeme.literal quote contents closed).masked true ++ other)
      (.literal quote (contents.map Source.blanked) closed) other := by
  have isQuoted := reads.isQuote
  have inside := inside_blanked isQuoted contents
  cases reads with
  | literal => simpa [Lexeme.masked] using @Reads.literal quote _ other isQuoted inside
  | openLiteral =>
    obtain rfl : other = [] := by simpa using starts
    simpa [Lexeme.masked] using Reads.openLiteral isQuoted (.inl inside)

namespace Rewrites

theorem head? (rewrites : Rewrites text other) : other.head? = text.head? := by
  cases rewrites with
  | nil => rfl
  | @kept _ _ _ lexeme reads _ =>
    rw [reads.source]
    cases source : lexeme.source with
    | nil => exact absurd source reads.source_ne_nil
    | cons c rest => rfl
  | blanked reads _ => rw [reads.source]; rfl

theorem maskAll_eq (rewrites : Rewrites text other) : maskAll other = maskAll text := by
  induction rewrites with
  | nil => rfl
  | kept reads rewrites ih =>
    rw [maskAll, (reads.shorten (.inr rewrites.head?)).mask, maskAll, reads.mask]
    exact congrArg _ ih
  | @blanked text after other contents quote closed reads rewrites ih =>
    rw [maskAll, (reads.blanked rewrites.head?).mask, maskAll, reads.mask]
    refine congr (congrArg _ ?_) ih
    simp [Lexeme.masked, Function.comp_def, blanked_blanked]

theorem all_isBlank (rewrites : Rewrites text other) : other.all isBlank = text.all isBlank := by
  induction rewrites with
  | nil => rfl
  | kept reads _ ih => rw [reads.source, List.all_append, List.all_append, ih]
  | @blanked _ _ _ contents quote closed reads _ _ =>
    have isVisible := isBlank_quote reads.isQuote
    rw [reads.source]
    simp [Lexeme.masked, Lexeme.source, isVisible]

theorem eq_of_blank (rewrites : Rewrites text other) (blank : text.all isBlank = true) :
    other = text := by
  induction rewrites with
  | nil => rfl
  | kept reads _ ih =>
    rw [reads.source, List.all_append, Bool.and_eq_true] at blank
    rw [reads.source, ih blank.2]
  | @blanked _ _ _ contents quote closed reads _ _ =>
    have isVisible := isBlank_quote reads.isQuote
    rw [reads.source] at blank
    simp [Lexeme.source, isVisible] at blank

/-- A character at which both texts have the same quote. -/
def QuoteAt (text other : List Char) (n : Nat) : Prop :=
  ∃ quote, isQuote quote = true ∧ text[n]? = some quote ∧ other[n]? = some quote

theorem QuoteAt.append {front front' : List Char} (same : front'.length = front.length)
    (quote : QuoteAt text other n) :
    QuoteAt (front ++ text) (front' ++ other) (front.length + n) := by
  obtain ⟨quote, isQuoted, here, there⟩ := quote
  refine ⟨quote, isQuoted, ?_, ?_⟩
  · rw [List.getElem?_append_right (Nat.le_add_right _ _), Nat.add_sub_cancel_left, here]
  · rw [← same, List.getElem?_append_right (Nat.le_add_right _ _), Nat.add_sub_cancel_left, there]

/-- What is changed stands behind a quote that is not. -/
theorem exists_quote (rewrites : Rewrites text other) (changed : other[n]? ≠ text[n]?) :
    ∃ k, k ≤ n ∧ QuoteAt text other k := by
  induction rewrites generalizing n with
  | nil => exact absurd rfl changed
  | @kept _ after other lexeme reads _ ih =>
    rw [reads.source] at changed ⊢
    by_cases inside : n < lexeme.source.length
    · rw [List.getElem?_append_left inside, List.getElem?_append_left inside] at changed
      exact absurd rfl changed
    · obtain ⟨m, rfl⟩ := Nat.exists_eq_add_of_le (Nat.le_of_not_lt inside)
      rw [List.getElem?_append_right (Nat.le_add_right _ _), List.getElem?_append_right
        (Nat.le_add_right _ _), Nat.add_sub_cancel_left] at changed
      obtain ⟨k, le, quote⟩ := ih changed
      exact ⟨_, Nat.add_le_add_left le _, quote.append rfl⟩
  | @blanked _ after other contents quote closed reads _ _ =>
    refine ⟨0, Nat.zero_le n, quote, reads.isQuote, ?_, ?_⟩
    · rw [reads.source]
      rfl
    · rfl

/-- What is changed behind a visible character of the masked text stands behind a quote that comes no
earlier than that character. -/
theorem quote_behind {m : Nat} {c : Char} (rewrites : Rewrites text other)
    (shown : (maskAll text)[m]? = some c) (isVisible : isBlank c = false) (le : m ≤ n)
    (changed : other[n]? ≠ text[n]?) : ∃ k, m ≤ k ∧ k ≤ n ∧ QuoteAt text other k := by
  induction rewrites generalizing m n with
  | nil => exact absurd rfl changed
  | @kept _ after other lexeme reads rewrites ih =>
    rw [maskAll, reads.mask] at shown
    rw [reads.source] at changed ⊢
    by_cases inside : n < lexeme.source.length
    · rw [List.getElem?_append_left inside, List.getElem?_append_left inside] at changed
      exact absurd rfl changed
    obtain ⟨n, rfl⟩ := Nat.exists_eq_add_of_le (Nat.le_of_not_lt inside)
    rw [List.getElem?_append_right (Nat.le_add_right _ _), List.getElem?_append_right
      (Nat.le_add_right _ _), Nat.add_sub_cancel_left] at changed
    by_cases first : m < lexeme.source.length
    · obtain ⟨k, below, quote⟩ := rewrites.exists_quote changed
      exact ⟨_, by omega, Nat.add_le_add_left below _, quote.append rfl⟩
    · obtain ⟨m, rfl⟩ := Nat.exists_eq_add_of_le (Nat.le_of_not_lt first)
      rw [List.getElem?_append_right (by rw [Lexeme.length_masked]; omega), Lexeme.length_masked,
        Nat.add_sub_cancel_left] at shown
      obtain ⟨k, above, below, quote⟩ := ih shown (Nat.le_of_add_le_add_left le) changed
      exact ⟨_, Nat.add_le_add_left above _, Nat.add_le_add_left below _, quote.append rfl⟩
  | @blanked text after other contents quote closed reads rewrites ih =>
    have again := (Rewrites.blanked reads rewrites).maskAll_eq
    by_cases first : m < ((Lexeme.literal quote contents closed).masked true).length
    · have here := (getElem?_of_masked shown isVisible).1
      have there := (getElem?_of_masked (again ▸ shown) isVisible).1
      have shows := there
      rw [List.getElem?_append_left first] at shows
      have quoted : c = quote := by
        have noBlank : c ∉ contents.map Source.blanked := by
          intro member
          obtain ⟨d, -, rfl⟩ := List.mem_map.mp member
          simp [isBlank_blanked] at isVisible
        have member := List.mem_of_getElem? shows
        cases closed <;> simpa [Lexeme.masked, noBlank] using member
      exact ⟨m, Nat.le_refl m, le, c, quoted ▸ reads.isQuote, here, there⟩
    · rw [maskAll, reads.mask, List.getElem?_append_right (Nat.le_of_not_lt first)] at shown
      obtain ⟨m, rfl⟩ := Nat.exists_eq_add_of_le (Nat.le_of_not_lt first)
      obtain ⟨n, rfl⟩ := Nat.exists_eq_add_of_le (Nat.le_trans (Nat.le_add_right _ m) le)
      have lengths := (Lexeme.literal quote contents closed).length_masked true
      rw [Nat.add_sub_cancel_left] at shown
      rw [List.getElem?_append_right (Nat.le_add_right _ _), Nat.add_sub_cancel_left, reads.source,
        lengths, List.getElem?_append_right (Nat.le_add_right _ _), Nat.add_sub_cancel_left] at changed
      obtain ⟨k, above, below, quote⟩ := ih shown (Nat.le_of_add_le_add_left le) changed
      refine ⟨_, Nat.add_le_add_left above _, Nat.add_le_add_left below _, ?_⟩
      rw [lengths, reads.source]
      exact quote.append lengths

/-- A piece that shows no quote is not changed if it starts in code. -/
theorem slice_eq {start stop : Nat} (rewrites : Rewrites text other) {c : Char}
    (first : (maskAll text)[start]? = some c) (isVisible : isBlank c = false)
    (noQuote : (∀ c ∈ strip (slice text start stop), isQuote c = false) ∨
      ∀ c ∈ strip (slice other start stop), isQuote c = false) :
    slice other start stop = slice text start stop := by
  apply slice_congr
  intro n low high
  by_contra changed
  obtain ⟨k, above, below, quote, isQuoted, here, there⟩ :=
    rewrites.quote_behind first isVisible low changed
  have isVisible := isBlank_quote isQuoted
  rw [← getElem?_slice above (Nat.lt_of_le_of_lt below high)] at here there
  rcases noQuote with none | none
  · have := none _ (mem_strip (List.mem_of_getElem? here) isVisible)
    simp [isQuoted] at this
  · have := none _ (mem_strip (List.mem_of_getElem? there) isVisible)
    simp [isQuoted] at this

/-- Blanked literals leave no piece that would show several characters without a quote, and make
none. -/
theorem strip_slice_iff {start stop : Nat} {shown : List Char} (rewrites : Rewrites text other)
    (inCode : StartsInCode (maskAll text) start stop) (long : 1 < shown.length)
    (noQuote : ∀ c ∈ shown, isQuote c = false) :
    strip (slice text start stop) = shown ↔ strip (slice other start stop) = shown := by
  constructor
  · rintro rfl
    rcases inCode.short_or_visible with short | ⟨c, first, isVisible⟩
    · have := length_strip_le (slice text start stop)
      omega
    · rw [rewrites.slice_eq first isVisible (.inl noQuote)]
  · rintro rfl
    rw [← rewrites.maskAll_eq] at inCode
    rcases inCode.short_or_visible with short | ⟨c, first, isVisible⟩
    · have := length_strip_le (slice other start stop)
      omega
    · rw [rewrites.maskAll_eq] at first
      rw [rewrites.slice_eq first isVisible (.inr noQuote)]

end Rewrites

end ContractInspector.Source
