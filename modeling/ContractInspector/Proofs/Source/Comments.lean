import ContractInspector.Proofs.Source.Seams
import Mathlib.Data.List.TakeWhile

/-! What comments hide from a piece of a source. `strip_slice_iff` compares a piece with the same piece
of the source without comments: stripped of blanks they are equal exactly if no visible character of a
comment lies in it, provided that the piece starts in code or has one character only. -/
namespace ContractInspector.Source

open Text (isBlank strip slice slice_congr getElem?_slice)

/-- A comment has a visible character at an offset, one that its masking hides. -/
def CommentAt (text : List Char) (n : Nat) : Prop :=
  ∃ c, text[n]? = some c ∧ isBlank c = false ∧ (stripComments text)[n]? ≠ some c

/-- A comment opens at an offset. -/
def OpensComment (text : List Char) (n : Nat) : Prop :=
  text[n]? = some '/' ∧ (stripComments text)[n]? ≠ some '/'

/-- No comment has a visible character between two offsets. -/
def CommentFree (text : List Char) (start stop : Nat) : Prop :=
  ∀ n, start ≤ n → n < stop → ¬CommentAt text n

variable {text other : List Char} {n : Nat}

section Strip

/-- The visible characters of a text. -/
def visible (text : List Char) : List Char :=
  text.filter fun c => !isBlank c

theorem visible_dropWhile (text : List Char) : visible (text.dropWhile isBlank) = visible text := by
  have blank : visible (text.takeWhile isBlank) = [] := by
    apply List.filter_eq_nil_iff.mpr
    intro c member
    have : isBlank c = true := List.all_eq_true.mp List.all_takeWhile c member
    simp [this]
  have split := congrArg visible (List.takeWhile_append_dropWhile (p := isBlank) (l := text))
  rwa [visible, List.filter_append, ← visible, ← visible, blank, List.nil_append] at split

theorem visible_reverse (text : List Char) : visible text.reverse = (visible text).reverse :=
  List.filter_reverse

theorem visible_strip (text : List Char) : visible (strip text) = visible text := by
  rw [strip, visible_reverse, visible_dropWhile, visible_reverse, visible_dropWhile,
    List.reverse_reverse]

theorem mem_strip {c : Char} (member : c ∈ text) (isVisible : isBlank c = false) : c ∈ strip text := by
  have shown : c ∈ visible text := List.mem_filter.mpr ⟨member, by simp [isVisible]⟩
  rw [← visible_strip] at shown
  exact (List.mem_filter.mp shown).1

theorem strip_eq_nil (text : List Char) : strip text = [] ↔ ∀ c ∈ text, isBlank c = true := by
  constructor
  · intro empty c member
    have none : visible text = [] := by rw [← visible_strip, empty]; rfl
    simpa using List.filter_eq_nil_iff.mp none c member
  · intro blank
    have dropped : text.dropWhile isBlank = [] := List.dropWhile_eq_nil_iff.mpr blank
    rw [strip, dropped]
    rfl

theorem strip_eq_nil_iff_visible {text : List Char} : strip text = [] ↔ visible text = [] := by
  rw [strip_eq_nil, visible, List.filter_eq_nil_iff]
  simp

theorem length_strip_le (text : List Char) : (strip text).length ≤ text.length := by
  rw [strip, List.length_reverse]
  refine Nat.le_trans (List.dropWhile_sublist _).length_le ?_
  rw [List.length_reverse]
  exact (List.dropWhile_sublist _).length_le

end Strip

namespace Blanks

theorem visible_sublist (blanks : Blanks text other) :
    (visible other).Sublist (visible text) := by
  induction blanks with
  | nil => exact .refl _
  | @cons c d rest tail same _ ih =>
    rcases same with rfl | rfl
    · rw [visible, visible, ← List.singleton_append, ← List.singleton_append (l := rest),
        List.filter_append, List.filter_append]
      exact (List.Sublist.refl _).append ih
    · rw [visible, List.filter_cons_of_neg (by simp [isBlank_blanked])]
      exact ih.trans ((List.sublist_cons_self c rest).filter _)

/-- If blanks hide nothing, every visible character is still there. -/
theorem kept_of_visible (blanks : Blanks text other) (same : visible text = visible other) {c : Char}
    (here : text[n]? = some c) (isVisible : isBlank c = false) : other[n]? = some c := by
  induction blanks generalizing n with
  | nil => contradiction
  | @cons d e rest tail cases blanks ih =>
    have behind : visible rest = visible tail ∧ (isBlank d = false → e = d) := by
      rcases cases with rfl | rfl
      · refine ⟨?_, fun _ => rfl⟩
        by_cases blank : isBlank e = true <;> simp_all [visible]
      · have passed : visible (blanked d :: tail) = visible tail := by
          simp [visible, isBlank_blanked]
        rw [passed] at same
        by_cases blank : isBlank d = true
        · exact ⟨by simpa [visible, blank] using same, by simp [blank]⟩
        · have longer : visible (d :: rest) = d :: visible rest := by simp [visible, blank]
          have short := (visible_sublist blanks).length_le
          rw [← same, longer, List.length_cons] at short
          omega
    cases n with
    | zero =>
      obtain rfl : d = c := by simpa using here
      simp [behind.2 isVisible]
    | succ n => exact ih behind.1 here

theorem getElem? (blanks : Blanks text other) {c : Char} (here : text[n]? = some c) :
    other[n]? = some c ∨ other[n]? = some (blanked c) := by
  induction blanks generalizing n with
  | nil => contradiction
  | cons same _ ih =>
    cases n with
    | zero => simpa [← Option.some_inj.mp here] using same
    | succ n => exact ih here

theorem slice (blanks : Blanks text other) (start stop : Nat) :
    Blanks (slice text start stop) (slice other start stop) :=
  List.forall₂_take _ (List.forall₂_drop _ blanks)

end Blanks

section Comments

/-- What masking leaves visible is not changed by masking comments only. -/
theorem getElem?_of_masked {c : Char} (kept : (maskAll text)[n]? = some c)
    (isVisible : isBlank c = false) :
    text[n]? = some c ∧ (stripComments text)[n]? = some c := by
  have keeps : ∀ {whole part : List Char}, Blanks whole part → part[n]? = some c →
      whole[n]? = some c := by
    intro whole part blanks there
    have inside : n < whole.length := by
      rw [blanks.length_eq]
      exact (List.getElem?_eq_some_iff.mp there).1
    have here := List.getElem?_eq_getElem inside
    rcases blanks.getElem? here with same | same
    · rw [here, ← same, there]
    · obtain rfl := Option.some.inj (there.symm.trans same)
      simp [isBlank_blanked] at isVisible
  rw [← maskAll_stripComments] at kept
  have uncommented := keeps (blanks_mask true (stripComments text)) kept
  exact ⟨keeps (blanks_mask false text) uncommented, uncommented⟩

theorem OpensComment.commentAt (opens : OpensComment text n) : CommentAt text n :=
  ⟨'/', opens.1, by decide, opens.2⟩

theorem Seam.opensComment {m : Nat} (seam : Seam text m) :
    OpensComment (text.drop m) n ↔ OpensComment text (m + n) := by
  simp only [OpensComment, stripComments, seam.mask_drop, List.getElem?_drop]

theorem Reads.seam {after : List Char} {lexeme : Lexeme} (reads : Reads text lexeme after) :
    Seam text lexeme.source.length ∧ text.drop lexeme.source.length = after := by
  refine ⟨.behind reads .start, ?_⟩
  rw [reads.source, List.drop_left]

/-- Where masking comments changes something, a comment has opened before. -/
theorem exists_opensComment (changed : (stripComments text)[n]? ≠ text[n]?) :
    ∃ k, k ≤ n ∧ OpensComment text k := by
  induction text using lexing_induction generalizing n with
  | nil => simp [stripComments] at changed
  | @reads text lexeme after read ih =>
    obtain ⟨seam, behind⟩ := read.seam
    by_cases inside : n < lexeme.source.length
    · rw [stripComments, read.mask, read.source, List.getElem?_append_left inside,
        List.getElem?_append_left (by rwa [Lexeme.length_masked])] at changed
      cases read with
      | code | literal | openLiteral => simp [Lexeme.masked, Lexeme.source] at changed
      | lineComment inLine ends =>
        refine ⟨0, Nat.zero_le n, rfl, ?_⟩
        rw [stripComments, (Reads.lineComment inLine ends).mask]
        simp [Lexeme.masked, blanked]
      | blockComment endFree =>
        refine ⟨0, Nat.zero_le n, rfl, ?_⟩
        rw [stripComments, (Reads.blockComment endFree).mask]
        simp [Lexeme.masked, blanked]
      | openComment endFree =>
        refine ⟨0, Nat.zero_le n, rfl, ?_⟩
        rw [stripComments, (Reads.openComment endFree).mask]
        simp [Lexeme.masked, blanked]
    · obtain ⟨m, rfl⟩ := Nat.exists_eq_add_of_le (Nat.le_of_not_lt inside)
      subst behind
      rw [stripComments, ← List.getElem?_drop, ← seam.mask_drop, ← List.getElem?_drop] at changed
      obtain ⟨k, le, comment⟩ := ih changed
      exact ⟨lexeme.source.length + k, by omega, seam.opensComment.mp comment⟩

/-- A comment that changes something behind a visible character of the masked text opens behind that
character. -/
theorem opensComment_behind {m : Nat} {c : Char} (kept : (maskAll text)[m]? = some c)
    (isVisible : isBlank c = false) (le : m ≤ n) (changed : (stripComments text)[n]? ≠ text[n]?) :
    ∃ k, m ≤ k ∧ k ≤ n ∧ OpensComment text k := by
  induction text using lexing_induction generalizing m n with
  | nil => simp [stripComments] at changed
  | @reads text lexeme after read ih =>
    obtain ⟨seam, behind⟩ := read.seam
    by_cases inside : n < lexeme.source.length
    · have here : m < (lexeme.masked true).length := by
        rw [Lexeme.length_masked]
        omega
      rw [maskAll, read.mask, List.getElem?_append_left here] at kept
      rw [stripComments, read.mask, read.source, List.getElem?_append_left inside,
        List.getElem?_append_left (by rwa [Lexeme.length_masked])] at changed
      cases lexeme with
      | code | literal => simp [Lexeme.masked, Lexeme.source] at changed
      | comment text =>
        obtain ⟨d, -, rfl⟩ := List.mem_map.mp (List.mem_of_getElem? kept)
        simp [isBlank_blanked] at isVisible
    · obtain ⟨n, rfl⟩ := Nat.exists_eq_add_of_le (Nat.le_of_not_lt inside)
      subst behind
      rw [stripComments, ← List.getElem?_drop, ← seam.mask_drop, ← List.getElem?_drop] at changed
      by_cases first : m < lexeme.source.length
      · obtain ⟨k, below, comment⟩ := exists_opensComment changed
        exact ⟨lexeme.source.length + k, by omega, by omega, seam.opensComment.mp comment⟩
      · obtain ⟨m, rfl⟩ := Nat.exists_eq_add_of_le (Nat.le_of_not_lt first)
        rw [maskAll, ← List.getElem?_drop, ← seam.mask_drop] at kept
        obtain ⟨k, above, below, comment⟩ := ih kept (Nat.le_of_add_le_add_left le) changed
        exact ⟨lexeme.source.length + k, by omega, by omega, seam.opensComment.mp comment⟩

end Comments

section Pieces

variable {start stop : Nat}

/-- A piece starts with a character that masking leaves visible, or is one character long. -/
def StartsInCode (masked : List Char) (start stop : Nat) : Prop :=
  ∀ c, masked[start]? = some c → isBlank c = true → stop = start + 1

theorem StartsInCode.short_or_visible (inCode : StartsInCode (maskAll text) start stop) :
    (slice text start stop).length ≤ 1 ∨
      ∃ c, (maskAll text)[start]? = some c ∧ isBlank c = false := by
  cases first : (maskAll text)[start]? with
  | none =>
    have ends : text.length ≤ start := by
      rw [← length_mask true text]
      exact List.getElem?_eq_none_iff.mp first
    exact .inl (by simp [slice, List.drop_eq_nil_of_le ends])
  | some c =>
    by_cases isVisible : isBlank c = false
    · exact .inr ⟨c, rfl, isVisible⟩
    · rw [inCode c first (by simpa using isVisible), slice, Nat.add_sub_cancel_left]
      exact .inl (List.length_take_le _ _)

theorem Blanks.strip_short (blanks : Blanks text other) (short : text.length ≤ 1)
    (kept : ∀ c, text[0]? = some c → isBlank c = false → other[0]? = some c) :
    strip text = strip other := by
  cases blanks with
  | nil => rfl
  | @cons c d rest tail same behind =>
    obtain rfl : rest = [] := by simpa using short
    cases behind
    rcases same with rfl | rfl
    · rfl
    · by_cases isVisible : isBlank c = false
      · have same : blanked c = c := by simpa using kept c rfl isVisible
        rw [same]
      · rw [(strip_eq_nil _).mpr (by simpa using isVisible),
          (strip_eq_nil _).mpr (by simp [isBlank_blanked])]

/-- Comments leave a stripped piece alone exactly if they have no visible character in it. -/
theorem strip_slice_iff (nonempty : start < stop) (inCode : StartsInCode (maskAll text) start stop) :
    strip (slice text start stop) = strip (slice (stripComments text) start stop) ↔
      CommentFree text start stop := by
  have blanks := (blanks_mask false text).slice start stop
  constructor
  · rintro same n low high ⟨c, here, isVisible, hidden⟩
    have all : visible (slice text start stop) = visible (slice (stripComments text) start stop) := by
      rw [← visible_strip, same, visible_strip]
    rw [← getElem?_slice low high] at here
    have kept := blanks.kept_of_visible all here isVisible
    rw [getElem?_slice low high] at kept
    exact hidden kept
  · intro free
    rcases inCode.short_or_visible with short | ⟨c, first, isVisible⟩
    · apply blanks.strip_short short
      intro c here isVisible
      rw [← Nat.sub_self start, getElem?_slice (Nat.le_refl start) nonempty] at here ⊢
      by_contra hidden
      exact free start (Nat.le_refl start) nonempty ⟨c, here, isVisible, hidden⟩
    · refine congrArg strip (slice_congr fun n low high => ?_)
      by_contra changed
      obtain ⟨k, above, below, comment⟩ :=
        opensComment_behind first isVisible low (Ne.symm changed)
      exact free k above (Nat.lt_of_le_of_lt below high) comment.commentAt

theorem strip_slice_eq_nil (blank : strip (slice text start stop) = []) :
    strip (slice (stripComments text) start stop) = [] := by
  rw [strip_eq_nil_iff_visible] at blank ⊢
  have shorter := ((blanks_mask false text).slice start stop).visible_sublist
  exact List.sublist_nil.mp (blank ▸ shorter)

/-- Comments fill a piece that is empty without them only if it is one character long. -/
theorem length_slice_le (inCode : StartsInCode (maskAll text) start stop)
    (nonempty : start < stop) (blank : strip (slice (stripComments text) start stop) = []) :
    (slice text start stop).length ≤ 1 := by
  refine inCode.short_or_visible.resolve_right ?_
  rintro ⟨c, first, isVisible⟩
  have here := (getElem?_of_masked first isVisible).2
  rw [← getElem?_slice (Nat.le_refl start) nonempty] at here
  have isBlank := (strip_eq_nil _).mp blank c (List.mem_of_getElem? here)
  simp [isBlank] at isVisible

/-- A piece of several characters without a slash has no comment in it. -/
theorem commentFree_of_slash (inCode : StartsInCode (maskAll text) start stop)
    (long : 1 < (strip (slice text start stop)).length)
    (noSlash : '/' ∉ strip (slice text start stop)) : CommentFree text start stop := by
  rintro n low high ⟨c, here, -, hidden⟩
  rcases inCode.short_or_visible with short | ⟨c, first, isVisible⟩
  · have := length_strip_le (slice text start stop)
    omega
  · obtain ⟨k, above, below, slash, -⟩ :=
      opensComment_behind first isVisible low (fun same => hidden (same.trans here))
    rw [← getElem?_slice above (Nat.lt_of_le_of_lt below high)] at slash
    exact noSlash (mem_strip (List.mem_of_getElem? slash) (by decide))

end Pieces

end ContractInspector.Source
