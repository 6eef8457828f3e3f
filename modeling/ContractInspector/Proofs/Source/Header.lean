import ContractInspector.Proofs.Source.Masking
import ContractInspector.Proofs.Source.Numbering
import ContractInspector.Proofs.Text.Blanks
import ContractInspector.Source.Spans

/-! Headers: blanks and comments in front of a source. Masking leaves nothing visible of a header, and
masks the source behind it as if the header was not there (`mask_header`). -/
namespace ContractInspector.Source

open Text (isBlank)

/-- A text of blanks, line comments with their line ends, and closed block comments. -/
inductive Header : List Char → Prop where
  | nil : Header []
  | blank {c : Char} {rest : List Char} : isBlank c = true → Header rest → Header (c :: rest)
  | line {body rest : List Char} : '\n' ∉ body → Header rest →
      Header ('/' :: '/' :: (body ++ '\n' :: rest))
  | block {body rest : List Char} : EndFree body → Header rest →
      Header ('/' :: '*' :: (body ++ '*' :: '/' :: rest))

variable {front : List Char} (literals : Bool)

theorem isQuote_of_isBlank {c : Char} (blank : isBlank c = true) : isQuote c = false := by
  refine Bool.eq_false_iff.mpr fun quoted => ?_
  rcases isQuote_iff.mp quoted with rfl | rfl | rfl <;> contradiction

theorem mask_blank {c : Char} (blank : isBlank c = true) (text : List Char) :
    mask literals (c :: text) = c :: mask literals text := by
  refine mask_code literals (isQuote_of_isBlank blank) fun slash => ?_
  rw [slash] at blank
  contradiction

theorem mask_line {body : List Char} (inLine : '\n' ∉ body) (text : List Char) :
    mask literals ('/' :: '/' :: (body ++ '\n' :: text)) =
      ('/' :: '/' :: body).map blanked ++ '\n' :: mask literals text := by
  have comment : Reads ('/' :: '/' :: (body ++ '\n' :: text)) _ ('\n' :: text) :=
    .lineComment inLine (.inr rfl)
  rw [comment.mask, mask_blank literals (by decide)]
  rfl

theorem mask_block {body : List Char} (endFree : EndFree body) (text : List Char) :
    mask literals ('/' :: '*' :: (body ++ '*' :: '/' :: text)) =
      ('/' :: '*' :: (body ++ ['*', '/'])).map blanked ++ mask literals text :=
  (Reads.blockComment endFree).mask literals

theorem mask_header (header : Header front) (text : List Char) :
    mask literals (front ++ text) = mask literals front ++ mask literals text := by
  induction header with
  | nil => simp
  | blank blank _ ih =>
    rw [List.cons_append, mask_blank literals blank, ih, mask_blank literals blank, List.cons_append]
  | @line body rest inLine _ ih =>
    have grouped : '/' :: '/' :: (body ++ '\n' :: rest) ++ text =
        '/' :: '/' :: (body ++ '\n' :: (rest ++ text)) := by simp
    rw [grouped, mask_line literals inLine, ih, mask_line literals inLine, List.append_assoc,
      List.cons_append]
  | @block body rest endFree _ ih =>
    have grouped : '/' :: '*' :: (body ++ '*' :: '/' :: rest) ++ text =
        '/' :: '*' :: (body ++ '*' :: '/' :: (rest ++ text)) := by simp
    rw [grouped, mask_block literals endFree, ih, mask_block literals endFree, List.append_assoc]

theorem isBlank_of_mem_header (header : Header front) : ∀ c ∈ mask literals front, isBlank c = true := by
  have hidden : ∀ part : List Char, ∀ c ∈ part.map blanked, isBlank c = true := by
    intro part c member
    obtain ⟨d, -, rfl⟩ := List.mem_map.mp member
    exact isBlank_blanked d
  induction header with
  | nil => simp
  | blank blank _ ih =>
    rw [mask_blank literals blank]
    exact List.forall_mem_cons.mpr ⟨blank, ih⟩
  | line inLine _ ih =>
    rw [mask_line literals inLine, List.forall_mem_append, List.forall_mem_cons]
    exact ⟨hidden _, by decide, ih⟩
  | block endFree _ ih =>
    rw [mask_block literals endFree, List.forall_mem_append]
    exact ⟨hidden _, ih⟩

section Spans

/-- A region, moved by some characters in front. -/
def Span.behind (front : List Char) (span : Span) : Span :=
  ⟨front.length + span.opening, front.length + span.closing⟩

theorem spansOnto_behind (front text : List Char) (depth offset opening : Nat) (found : List Span) :
    spansOnto text depth (front.length + offset) (front.length + opening)
        (found.map (Span.behind front)) =
      (spansOnto text depth offset opening found).map (Span.behind front) := by
  induction text generalizing depth offset opening found with
  | nil =>
    rw [spansOnto, spansOnto]
    split <;> simp [Span.behind]
  | cons c rest ih =>
    have next := ih (depth + 1) (offset + 1) (if depth = 0 then offset else opening) found
    have last := ih (depth - 1) (offset + 1) opening
      (if depth = 1 then ⟨opening, offset⟩ :: found else found)
    rw [spansOnto, spansOnto]
    split
    · rw [← next]
      split <;> rfl
    · split
      · rw [← last]
        split <;> rfl
      · exact ih depth (offset + 1) opening found

/-- Outside of all braces the last opening one does not matter. -/
theorem spansOnto_opening (text : List Char) (offset opening other : Nat) (found : List Span) :
    spansOnto text 0 offset opening found = spansOnto text 0 offset other found := by
  induction text generalizing offset opening other with
  | nil => rfl
  | cons c rest ih =>
    rw [spansOnto, spansOnto]
    split
    · rfl
    · split
      · exact ih (offset + 1) opening other
      · exact ih (offset + 1) opening other

theorem spansOnto_skip {part : List Char} (noOpener : '{' ∉ part) (noCloser : '}' ∉ part)
    (text : List Char) (offset opening : Nat) (found : List Span) :
    spansOnto (part ++ text) 0 offset opening found =
      spansOnto text 0 (offset + part.length) opening found := by
  induction part generalizing offset with
  | nil => rfl
  | cons c part ih =>
    rw [List.mem_cons, not_or] at noOpener noCloser
    rw [List.cons_append, spansOnto, if_neg (Ne.symm noOpener.1), if_neg (Ne.symm noCloser.1),
      ih noOpener.2 noCloser.2, List.length_cons, Nat.add_assoc, Nat.add_comm 1]

theorem braceSpans_behind (noOpener : '{' ∉ front) (noCloser : '}' ∉ front) (text : List Char) :
    braceSpans (front ++ text) = (braceSpans text).map (Span.behind front) := by
  have moved := spansOnto_behind front text 0 0 0 []
  rw [Nat.add_zero, List.map_nil] at moved
  rw [braceSpans, spansOnto_skip noOpener noCloser, Nat.zero_add,
    spansOnto_opening text front.length 0 front.length, moved, braceSpans]

theorem insideSpans_behind (front : List Char) (spans : List Span) (n : Nat) :
    insideSpans (spans.map (Span.behind front)) (front.length + n : Nat) = insideSpans spans n := by
  have each (span : Span) : (span.behind front).encloses (front.length + n : Nat) = span.encloses n := by
    simp only [Span.encloses, Span.behind, Int.natCast_add, Int.add_lt_add_iff_left]
  have openings : ((spans.map (Span.behind front)).map (·.opening)).toArray =
      (spans.map (·.opening)).toArray.map (front.length + ·) := by simp [Span.behind]
  change lastEncloses _ _ (Number.countUpTo _ (front.length + n)) = lastEncloses _ _ (Number.countUpTo _ n)
  rw [openings, Number.countUpTo_map_add]
  cases Number.countUpTo (spans.map (·.opening)).toArray n with
  | zero => rfl
  | succ last =>
    rw [lastEncloses, lastEncloses, List.getElem?_map, Option.any_map]
    congr 1
    funext span
    exact each span

end Spans

end ContractInspector.Source
