import ContractInspector.Proofs.Source.Numbering
import ContractInspector.Source.Spans

/-! The depth of braces: how many are open behind a text, when a closing one that nothing opens is passed
over. The outermost regions, which are found from left to right and searched for by halving, are where the
depth is above zero (`insideSpans_braceSpans`). -/
namespace ContractInspector.Source

/-- The depth of braces behind a character. -/
def depthStep (depth : Nat) (c : Char) : Nat :=
  if c = '{' then depth + 1 else if c = '}' then depth - 1 else depth

/-- The depth of braces behind a text. -/
def depthAfter (text : List Char) : Nat :=
  text.foldl depthStep 0

/-- Some brace is open in front of the character at an offset, which does not close the last one. -/
def Enclosed (text : List Char) (n : Nat) : Prop :=
  0 < depthAfter (text.take n) ∧ ¬(text[n]? = some '}' ∧ depthAfter (text.take (n + 1)) = 0)

variable {front text : List Char} {c : Char} {n opening : Nat} {found spans : List Span}

theorem depthAfter_concat (front : List Char) (c : Char) :
    depthAfter (front ++ [c]) = depthStep (depthAfter front) c := by
  rw [depthAfter, List.foldl_append, List.foldl_cons, List.foldl_nil, depthAfter]

/-- Only what stands up to an offset decides whether it is enclosed. -/
theorem enclosed_append (inside : n < front.length) (rest : List Char) :
    Enclosed (front ++ rest) n ↔ Enclosed front n := by
  rw [Enclosed, Enclosed, List.take_append_of_le_length (Nat.le_of_lt inside),
    List.take_append_of_le_length inside, List.getElem?_append_left inside]

theorem enclosed_concat (front : List Char) (c : Char) : Enclosed (front ++ [c]) front.length ↔
    0 < depthAfter front ∧ 0 < depthAfter (front ++ [c]) := by
  have all : (front ++ [c]).take (front.length + 1) = front ++ [c] := by
    rw [List.take_of_length_le (by simp)]
  have last : (front ++ [c])[front.length]? = some c := by simp
  rw [Enclosed, List.take_left, all, last, depthAfter_concat]
  by_cases closes : c = '}'
  · simp only [closes, true_and, Nat.pos_iff_ne_zero, ne_eq]
  · have kept : 0 < depthAfter front → 0 < depthStep (depthAfter front) c := by
      rw [depthStep, if_neg closes]
      split <;> omega
    simpa [closes] using kept

section Regions

/-- The regions of a text so far: the closed ones, last first, and the one that may be open. -/
structure Marks (front : List Char) (opening : Nat) (found : List Span) : Prop where
  sorted : found.Pairwise fun later earlier => earlier.closing < later.opening
  opens : ∀ span ∈ found, front[span.opening]? = some '{'
  bounds : ∀ span ∈ found, span.opening < span.closing ∧ span.closing < front.length
  opened : 0 < depthAfter front → front[opening]? = some '{'
  behind : 0 < depthAfter front → ∀ span ∈ found, span.closing < opening
  enclosed : ∀ n < front.length, Enclosed front n ↔
    (∃ span ∈ found, span.opening < n ∧ n < span.closing) ∨ 0 < depthAfter front ∧ opening < n

namespace Marks

variable (marks : Marks front opening found)
include marks

theorem opening_lt (deep : 0 < depthAfter front) : opening < front.length :=
  (List.getElem?_eq_some_iff.mp (marks.opened deep)).1

theorem opens_concat (c : Char) : ∀ span ∈ found, (front ++ [c])[span.opening]? = some '{' := by
  intro span member
  have bounds := marks.bounds span member
  rw [List.getElem?_append_left (by omega)]
  exact marks.opens span member

theorem bounds_concat (c : Char) :
    ∀ span ∈ found, span.opening < span.closing ∧ span.closing < (front ++ [c]).length := by
  intro span member
  have bounds := marks.bounds span member
  rw [List.length_append]
  omega

/-- No region reaches the end of what is read. -/
theorem not_enclosed_length : ¬∃ span ∈ found, span.opening < front.length ∧ front.length < span.closing := by
  rintro ⟨span, member, -, short⟩
  have bounds := marks.bounds span member
  omega

theorem stays (kept : 0 < depthAfter (front ++ [c]) ↔ 0 < depthAfter front) :
    Marks (front ++ [c]) opening found where
  sorted := marks.sorted
  opens := marks.opens_concat c
  bounds := marks.bounds_concat c
  opened deep := by
    rw [List.getElem?_append_left (marks.opening_lt (kept.mp deep))]
    exact marks.opened (kept.mp deep)
  behind deep := marks.behind (kept.mp deep)
  enclosed n inside := by
    rw [List.length_append, List.length_singleton] at inside
    rcases Nat.lt_succ_iff_lt_or_eq.mp inside with inside | rfl
    · rw [enclosed_append inside, marks.enclosed n inside, kept]
    · rw [enclosed_concat, kept, or_iff_right marks.not_enclosed_length, and_self]
      exact ⟨fun deep => ⟨deep, marks.opening_lt deep⟩, And.left⟩

theorem opens_region (closed : depthAfter front = 0) :
    Marks (front ++ ['{']) front.length found where
  sorted := marks.sorted
  opens := marks.opens_concat '{'
  bounds := marks.bounds_concat '{'
  opened _ := by simp
  behind _ span member := (marks.bounds span member).2
  enclosed n inside := by
    rw [List.length_append, List.length_singleton] at inside
    rcases Nat.lt_succ_iff_lt_or_eq.mp inside with inside | rfl
    · rw [enclosed_append inside, marks.enclosed n inside, closed]
      refine or_congr_right ⟨fun deep => ?_, fun past => ?_⟩
      · exact absurd deep.1 (Nat.lt_irrefl 0)
      · omega
    · rw [enclosed_concat, closed, or_iff_right marks.not_enclosed_length]
      refine ⟨fun deep => ?_, fun past => ?_⟩
      · exact absurd deep.1 (Nat.lt_irrefl 0)
      · exact absurd past.2 (Nat.lt_irrefl _)

theorem closes_region (last : depthAfter front = 1) :
    Marks (front ++ ['}']) opening (⟨opening, front.length⟩ :: found) := by
  have deep : 0 < depthAfter front := by omega
  have closed : depthAfter (front ++ ['}']) = 0 := by rw [depthAfter_concat, last]; rfl
  have none : ¬0 < depthAfter (front ++ ['}']) := by omega
  exact {
    sorted := .cons (marks.behind deep) marks.sorted
    opens := by
      refine List.forall_mem_cons.mpr ⟨?_, marks.opens_concat '}'⟩
      rw [List.getElem?_append_left (marks.opening_lt deep)]
      exact marks.opened deep
    bounds := by
      refine List.forall_mem_cons.mpr ⟨?_, marks.bounds_concat '}'⟩
      have inside := marks.opening_lt deep
      simpa using inside
    opened := fun open_ => absurd open_ none
    behind := fun open_ => absurd open_ none
    enclosed := by
      intro n inside
      rw [List.length_append, List.length_singleton] at inside
      simp only [none, false_and, or_false, List.mem_cons, exists_eq_or_imp]
      rcases Nat.lt_succ_iff_lt_or_eq.mp inside with inside | rfl
      · rw [enclosed_append inside, marks.enclosed n inside, or_comm]
        simp only [deep, true_and, inside, and_true]
      · rw [enclosed_concat, or_iff_left marks.not_enclosed_length]
        simp only [none, and_false, Nat.lt_irrefl] }

end Marks

/-- Regions of a text in order, which hold what is enclosed. -/
structure Regions (text : List Char) (spans : List Span) : Prop where
  sorted : spans.Pairwise fun earlier later => earlier.closing < later.opening
  opens : ∀ span ∈ spans, text[span.opening]? = some '{'
  bounds : ∀ span ∈ spans, span.opening < span.closing
  enclosed : ∀ n < text.length, Enclosed text n ↔ ∃ span ∈ spans, span.opening < n ∧ n < span.closing

theorem Marks.regions (marks : Marks front opening found) : Regions front
    (if depthAfter front = 0 then found else ⟨opening, front.length⟩ :: found).reverse := by
  split
  next closed =>
    exact {
      sorted := List.pairwise_reverse.mpr marks.sorted
      opens := fun span member => marks.opens span (List.mem_reverse.mp member)
      bounds := fun span member => (marks.bounds span (List.mem_reverse.mp member)).1
      enclosed := fun n inside => by simp [marks.enclosed n inside, closed] }
  next open_ =>
    have deep : 0 < depthAfter front := Nat.pos_of_ne_zero open_
    exact {
      sorted := List.pairwise_reverse.mpr (.cons (marks.behind deep) marks.sorted)
      opens := by
        simp only [List.mem_reverse, List.forall_mem_cons]
        exact ⟨marks.opened deep, marks.opens⟩
      bounds := by
        simp only [List.mem_reverse, List.forall_mem_cons]
        exact ⟨marks.opening_lt deep, fun span member => (marks.bounds span member).1⟩
      enclosed := fun n inside => by simp [marks.enclosed n inside, deep, inside, or_comm] }

theorem Marks.spansOnto (marks : Marks front opening found) (rest : List Char) :
    Regions (front ++ rest) (spansOnto rest (depthAfter front) front.length opening found) := by
  induction rest generalizing front opening found with
  | nil =>
    rw [Source.spansOnto, List.append_nil]
    exact marks.regions
  | cons c rest ih =>
    have next {opening : Nat} {found : List Span} (marks : Marks (front ++ [c]) opening found) := ih marks
    simp only [List.append_assoc, List.singleton_append, depthAfter_concat, depthStep,
      List.length_append, List.length_singleton] at next
    have stays (kept : 0 < depthStep (depthAfter front) c ↔ 0 < depthAfter front) :
        Marks (front ++ [c]) opening found := marks.stays (by rwa [depthAfter_concat])
    rw [depthStep] at stays
    rw [Source.spansOnto]
    by_cases opens : c = '{'
    · rw [if_pos opens] at next stays ⊢
      refine next ?_
      split
      next closed => exact opens ▸ marks.opens_region closed
      next deep => exact stays (by omega)
    · rw [if_neg opens] at next stays ⊢
      by_cases closes : c = '}'
      · rw [if_pos closes] at next stays ⊢
        refine next ?_
        split
        next last => exact closes ▸ marks.closes_region last
        next other => exact stays (by omega)
      · rw [if_neg closes] at next stays ⊢
        exact next (stays Iff.rfl)

theorem regions_braceSpans (text : List Char) : Regions text (braceSpans text) := by
  have none : Marks [] 0 [] := by
    constructor <;> simp [depthAfter]
  exact none.spansOnto text

end Regions

section Search

/-- Of regions in order, at most the last that opens in front of an offset can enclose it. -/
theorem insideSpans_iff (sorted : spans.Pairwise fun earlier later => earlier.closing < later.opening)
    (bounds : ∀ span ∈ spans, span.opening < span.closing) (n : Nat) :
    insideSpans spans n = true ↔ ∃ span ∈ spans, span.opening < n ∧ n < span.closing := by
  have order : (spans.map (·.opening)).Pairwise (· ≤ ·) := by
    refine List.pairwise_map.mpr (sorted.imp_of_mem fun {earlier later} member _ apart => ?_)
    have short := bounds earlier member
    omega
  have count := @Number.countUpTo_eq (spans.map (·.opening)).toArray order n
  have opens_iff {i : Nat} (inside : i < spans.length) : spans[i].opening ≤ n ↔
      i < Number.countUpTo (spans.map (·.opening)).toArray n := by
    have passed := Number.getElem_le_iff (n := n) order (i := i) (by simpa using inside)
    rwa [List.getElem_map, ← count] at passed
  change lastEncloses spans n (Number.countUpTo (spans.map (·.opening)).toArray n) = true ↔ _
  have within : Number.countUpTo (spans.map (·.opening)).toArray n ≤ spans.length := by
    rw [count]
    exact Nat.le_trans List.countP_le_length (Nat.le_of_eq (List.length_map _))
  generalize Number.countUpTo (spans.map (·.opening)).toArray n = counted at opens_iff within
  constructor
  · intro found
    cases counted with
    | zero => contradiction
    | succ last =>
      obtain ⟨span, here, encloses⟩ := (Option.any_eq_true _ _).mp found
      simp only [Span.encloses, Bool.and_eq_true, decide_eq_true_eq, Int.ofNat_lt] at encloses
      exact ⟨span, List.mem_of_getElem? here, encloses⟩
  · rintro ⟨span, member, opens, closes⟩
    obtain ⟨i, inside, rfl⟩ := List.getElem_of_mem member
    have before := (opens_iff inside).mp (Nat.le_of_lt opens)
    have last : counted ≤ i + 1 := by
      refine Nat.le_of_not_lt fun more => ?_
      have next : i + 1 < spans.length := Nat.lt_of_lt_of_le more within
      have apart := List.pairwise_iff_getElem.mp sorted i (i + 1) inside next (Nat.lt_succ_self i)
      have opens := (opens_iff next).mpr more
      omega
    obtain rfl : counted = i + 1 := Nat.le_antisymm last before
    simpa [lastEncloses, inside, Span.encloses] using And.intro opens closes

end Search

/-- The regions of a text stand in order and apart, each starts at an opening brace, and inside of them are
the offsets that braces enclose. -/
theorem insideSpans_braceSpans (text : List Char) (n : Nat) (inside : n < text.length) :
    insideSpans (braceSpans text) n = true ↔ Enclosed text n := by
  have regions := regions_braceSpans text
  rw [insideSpans_iff regions.sorted regions.bounds, regions.enclosed n inside]

end ContractInspector.Source
