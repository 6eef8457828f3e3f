import ContractInspector.Proofs.Source.Reading
import ContractInspector.Source.Block
import ContractInspector.Source.Lines
import Mathlib.Data.List.Forall2

/-! Masking lexeme by lexeme. `mask_mask` says that masking again blanks what either masking would
have blanked alone, and `blanks_mask` that a masked text differs from its source by blanks only, so
that lengths and lines stay. -/
namespace ContractInspector.Source

variable {text after : List Char} {lexeme : Lexeme}

namespace Reads

theorem source (reads : Reads text lexeme after) : text = lexeme.source ++ after := by
  cases reads <;> simp [Lexeme.source]

theorem unique {other : Lexeme} {behind : List Char} (first : Reads text lexeme after)
    (second : Reads text other behind) : lexeme = other ∧ after = behind := by
  obtain ⟨c, rest, rfl, read⟩ := first.read
  exact Prod.mk.inj (read.symm.trans (read_iff.mpr second))

theorem source_ne_nil (reads : Reads text lexeme after) : lexeme.source ≠ [] := by
  cases reads <;> simp [Lexeme.source]

theorem length_lt (reads : Reads text lexeme after) : after.length < text.length := by
  have nonempty := List.length_pos_iff.mpr reads.source_ne_nil
  rw [reads.source, List.length_append]
  omega

end Reads

/-- Induction along the lexemes of a text. -/
@[elab_as_elim]
theorem lexing_induction {motive : List Char → Prop} (nil : motive [])
    (reads : ∀ {text lexeme after}, Reads text lexeme after → motive after → motive text)
    (text : List Char) : motive text := by
  match text with
  | [] => exact nil
  | c :: rest =>
    obtain ⟨lexeme, after, read⟩ := Reads.total c rest
    exact reads read (lexing_induction nil reads after)
  termination_by text.length
  decreasing_by exact read.length_lt

theorem lexemesOnto_eq (text : List Char) (found : List Lexeme) :
    lexemesOnto text found = found.reverse ++ lexemes text := by
  induction text using lexing_induction generalizing found with
  | nil => simp [lexemes, lexemesOnto]
  | reads read ih =>
    obtain ⟨c, rest, rfl, same⟩ := read.read
    rw [lexemes, lexemesOnto, lexemesOnto, same, ih, ih [_]]
    simp

@[simp]
theorem lexemes_nil : lexemes [] = [] := by
  simp [lexemes, lexemesOnto]

theorem Reads.lexemes (reads : Reads text lexeme after) :
    lexemes text = lexeme :: lexemes after := by
  obtain ⟨c, rest, rfl, same⟩ := reads.read
  rw [Source.lexemes, lexemesOnto, same, lexemesOnto_eq]
  simp

variable (literals : Bool)

@[simp]
theorem mask_nil : mask literals [] = [] := by
  simp [mask]

theorem Reads.mask (reads : Reads text lexeme after) :
    mask literals text = lexeme.masked literals ++ mask literals after := by
  rw [Source.mask, reads.lexemes, List.flatMap_cons, Source.mask]

theorem mask_code {c : Char} (notQuote : isQuote c = false)
    (slash : c = '/' → after.head? ≠ some '/' ∧ after.head? ≠ some '*') :
    mask literals (c :: after) = c :: mask literals after :=
  (Reads.code notQuote slash).mask literals

section Blanked

theorem blanked_eq (c : Char) : blanked c = ' ' ∨ blanked c = '\n' := by
  unfold blanked
  split <;> simp

theorem blanked_blanked (c : Char) : blanked (blanked c) = blanked c := by
  rcases blanked_eq c with h | h <;> rw [h] <;> rfl

theorem isQuote_blanked (c : Char) : isQuote (blanked c) = false := by
  rcases blanked_eq c with h | h <;> rw [h] <;> rfl

theorem isBlank_blanked (c : Char) : Text.isBlank (blanked c) = true := by
  rcases blanked_eq c with h | h <;> rw [h] <;> decide

theorem blanked_eq_newline {c : Char} : blanked c = '\n' ↔ c = '\n' := by
  unfold blanked
  split <;> simp_all

theorem blanked_ne_slash (c : Char) : blanked c ≠ '/' := by
  rcases blanked_eq c with h | h <;> rw [h] <;> decide

theorem mask_blanks (part rest : List Char) :
    mask literals (part.map blanked ++ rest) = part.map blanked ++ mask literals rest := by
  induction part with
  | nil => rfl
  | cons c part ih =>
    rw [List.map_cons, List.cons_append, mask_code literals (isQuote_blanked c)
      (fun same => absurd same (blanked_ne_slash c)), ih, List.cons_append]

theorem inside_blanked {quote : Char} (isQuoted : isQuote quote = true) (contents : List Char) :
    Inside quote (contents.map blanked) := by
  induction contents with
  | nil => exact .nil
  | cons c contents ih =>
    refine .plain (fun same => ?_) ?_ ih
    · rw [← same, isQuote_blanked] at isQuoted
      contradiction
    · rcases blanked_eq c with h | h <;> rw [h] <;> decide

end Blanked

section Pointwise

/-- A text that differs from another one by blanks only. -/
def Blanks (text other : List Char) : Prop :=
  List.Forall₂ (fun c d => d = c ∨ d = blanked c) text other

theorem Blanks.refl (text : List Char) : Blanks text text :=
  List.forall₂_same.mpr fun _ _ => .inl rfl

theorem Blanks.map_blanked (text : List Char) : Blanks text (text.map blanked) :=
  List.forall₂_map_right_iff.mpr (List.forall₂_same.mpr fun _ _ => .inr rfl)

theorem Blanks.append {front front' back back' : List Char} (first : Blanks front front')
    (second : Blanks back back') : Blanks (front ++ back) (front' ++ back') :=
  List.rel_append first second

theorem Lexeme.blanks_masked (lexeme : Lexeme) :
    Blanks lexeme.source (lexeme.masked literals) := by
  cases lexeme with
  | code c => exact .refl [c]
  | comment text => exact .map_blanked text
  | literal quote contents closed =>
    refine Blanks.append (.cons (.inl rfl) ?_) (Blanks.refl _)
    cases literals with
    | false => exact Blanks.refl contents
    | true => exact Blanks.map_blanked contents

theorem blanks_mask (text : List Char) : Blanks text (mask literals text) := by
  induction text using lexing_induction with
  | nil => simpa using Blanks.refl []
  | @reads _ lexeme after read ih =>
    rw [read.mask, read.source]
    exact (lexeme.blanks_masked literals).append ih

@[simp]
theorem length_mask (text : List Char) : (mask literals text).length = text.length :=
  (blanks_mask literals text).length_eq.symm

theorem Lexeme.length_masked (lexeme : Lexeme) :
    (lexeme.masked literals).length = lexeme.source.length :=
  (lexeme.blanks_masked literals).length_eq.symm

theorem Lexeme.length_source (lexeme : Lexeme) : lexeme.source.length = lexeme.length := by
  cases lexeme with
  | code c => rfl
  | comment text => rfl
  | literal quote contents closed =>
    cases closed <;> simp [source, length]

theorem Blanks.newlines {other : List Char} (blanks : Blanks text other) :
    other.map (· == '\n') = text.map (· == '\n') := by
  induction blanks with
  | nil => rfl
  | @cons c d _ _ same _ ih =>
    have first : (d == '\n') = (c == '\n') := by
      rcases same with rfl | rfl
      · rfl
      · rw [Bool.eq_iff_iff, beq_iff_eq, beq_iff_eq, blanked_eq_newline]
    rw [List.map_cons, List.map_cons, first, ih]

end Pointwise

section Lines

theorem startsOnto_congr {other : List Char}
    (newlines : text.map (· == '\n') = other.map (· == '\n')) (offset : Nat) (found : Array Nat) :
    startsOnto text offset found = startsOnto other offset found := by
  induction text generalizing other offset found with
  | nil =>
    rw [List.map_nil, eq_comm, List.map_eq_nil_iff] at newlines
    rw [newlines]
  | cons c rest ih =>
    obtain ⟨d, tail, rfl, first, behind⟩ := List.map_eq_cons_iff.mp newlines.symm
    have same : (c = '\n') = (d = '\n') := by
      simpa using (Bool.eq_iff_iff.mp first).symm
    rw [startsOnto, startsOnto]
    simp only [same]
    exact ih behind.symm _ _

@[simp]
theorem ofText_mask (text : List Char) : LineIndex.ofText (mask literals text) = .ofText text := by
  rw [LineIndex.ofText, startsOnto_congr (blanks_mask literals text).newlines, ← LineIndex.ofText]

end Lines

section Again

/-- The first character of a text stays when it is masked, unless it opens a comment. -/
theorem head?_mask (text : List Char) : (mask literals text).head? = text.head? ∨
    (text.head? = some '/' ∧ (mask literals text).head? = some ' ') := by
  cases text with
  | nil => simp
  | cons c rest =>
    obtain ⟨lexeme, after, read⟩ := Reads.total c rest
    rw [read.mask, read.source]
    cases read <;> simp [Lexeme.masked, Lexeme.source, blanked]

theorem mask_slash {c : Char}
    (slash : c = '/' → after.head? ≠ some '/' ∧ after.head? ≠ some '*') :
    c = '/' → (mask literals after).head? ≠ some '/' ∧ (mask literals after).head? ≠ some '*' := by
  intro same
  rcases head?_mask literals after with kept | ⟨opens, _⟩
  · exact kept ▸ slash same
  · exact absurd opens (slash same).1

theorem masked_closed {quote : Char} {contents after : List Char}
    (isQuoted : isQuote quote = true) (inside : Inside quote contents) :
    mask literals (quote :: (contents ++ quote :: after)) =
      quote :: ((if literals then contents.map blanked else contents) ++
        quote :: mask literals after) := by
  rw [(Reads.literal isQuoted inside).mask]
  simp [Lexeme.masked]

theorem masked_unclosed {quote : Char} {contents : List Char}
    (isQuoted : isQuote quote = true) (unclosed : Unclosed quote contents) :
    mask literals (quote :: contents) =
      quote :: (if literals then contents.map blanked else contents) := by
  rw [(Reads.openLiteral isQuoted unclosed).mask]
  simp [Lexeme.masked]

/-- Masking a masked text blanks what either masking blanks. -/
theorem mask_mask (first second : Bool) (text : List Char) :
    mask second (mask first text) = mask (first || second) text := by
  induction text using lexing_induction with
  | nil => simp
  | reads read ih =>
    cases read with
    | code notQuote slash =>
      rw [mask_code first notQuote slash, mask_code second notQuote (mask_slash first slash), ih,
        mask_code _ notQuote slash]
    | lineComment inLine ends =>
      rw [(Reads.lineComment inLine ends).mask, (Reads.lineComment inLine ends).mask]
      simp only [Lexeme.masked]
      rw [mask_blanks, ih]
    | blockComment endFree =>
      rw [(Reads.blockComment endFree).mask, (Reads.blockComment endFree).mask]
      simp only [Lexeme.masked]
      rw [mask_blanks, ih]
    | openComment endFree =>
      rw [(Reads.openComment endFree).mask, (Reads.openComment endFree).mask]
      simp only [Lexeme.masked]
      rw [mask_blanks, ih]
    | @literal quote contents after isQuoted inside =>
      rw [masked_closed first isQuoted inside, masked_closed (first || second) isQuoted inside]
      cases first with
      | false => simp [masked_closed second isQuoted inside, ih]
      | true =>
        rw [if_pos rfl, masked_closed second isQuoted (inside_blanked isQuoted contents), ih]
        simp [Function.comp_def, blanked_blanked]
    | @openLiteral quote contents isQuoted unclosed =>
      rw [masked_unclosed first isQuoted unclosed, masked_unclosed (first || second) isQuoted
        unclosed]
      cases first with
      | false => simp [masked_unclosed second isQuoted unclosed]
      | true =>
        rw [if_pos rfl,
          masked_unclosed second isQuoted (.inl (inside_blanked isQuoted contents))]
        simp [Function.comp_def, blanked_blanked]

@[simp]
theorem maskAll_maskAll (text : List Char) : maskAll (maskAll text) = maskAll text :=
  mask_mask true true text

@[simp]
theorem maskAll_stripComments (text : List Char) : maskAll (stripComments text) = maskAll text :=
  mask_mask false true text

@[simp]
theorem stripComments_stripComments (text : List Char) :
    stripComments (stripComments text) = stripComments text :=
  mask_mask false false text

@[simp]
theorem stripComments_maskAll (text : List Char) : stripComments (maskAll text) = maskAll text :=
  mask_mask true false text

/-- The two maskings are projections, and the one that blanks more absorbs the other on either side. -/
theorem masks_absorb (text : List Char) :
    maskAll (maskAll text) = maskAll text ∧
      stripComments (stripComments text) = stripComments text ∧
      maskAll (stripComments text) = maskAll text ∧ stripComments (maskAll text) = maskAll text :=
  ⟨maskAll_maskAll text, stripComments_stripComments text, maskAll_stripComments text,
    stripComments_maskAll text⟩

end Again

end ContractInspector.Source
