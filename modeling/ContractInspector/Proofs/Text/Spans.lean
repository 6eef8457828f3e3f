import Mathlib.Data.List.TakeWhile

/-! Lists split where a property of their members ends. Such a split is the one of `takeWhile` and
`dropWhile` (`exists_spans`, `Spans.takeWhile`), so a list has one of them only (`Spans.unique`). -/
namespace ContractInspector.Text

variable {α : Type} {holds : α → Bool} {part rest part' rest' : List α} {stop : α}

/-- The members of a part have a property, and what stands behind them starts without it. -/
structure Spans (holds : α → Bool) (part rest : List α) : Prop where
  inside : ∀ c ∈ part, holds c = true
  ends : ∀ c, rest.head? = some c → holds c = false

theorem spans_takeWhile (holds : α → Bool) (text : List α) :
    Spans holds (text.takeWhile holds) (text.dropWhile holds) where
  inside _ member := List.all_eq_true.mp List.all_takeWhile _ member
  ends c first := by
    have stops := List.head?_dropWhile_not holds text
    rwa [first] at stops

theorem exists_spans (holds : α → Bool) (text : List α) :
    ∃ part rest, text = part ++ rest ∧ Spans holds part rest :=
  ⟨_, _, List.takeWhile_append_dropWhile.symm, spans_takeWhile holds text⟩

theorem Spans.takeWhile (spans : Spans holds part rest) : (part ++ rest).takeWhile holds = part := by
  rw [List.takeWhile_append_of_pos spans.inside]
  cases rest with
  | nil => exact List.append_nil part
  | cons c rest => rw [List.takeWhile_cons_of_neg (by simp [spans.ends c rfl]), List.append_nil]

theorem Spans.dropWhile (spans : Spans holds part rest) : (part ++ rest).dropWhile holds = rest := by
  rw [List.dropWhile_append_of_pos spans.inside]
  cases rest with
  | nil => rfl
  | cons c rest => exact List.dropWhile_cons_of_neg (by simp [spans.ends c rfl])

theorem Spans.unique (spans : Spans holds part rest) (other : Spans holds part' rest')
    (same : part ++ rest = part' ++ rest') : part = part' ∧ rest = rest' := by
  constructor
  · rw [← spans.takeWhile, same, other.takeWhile]
  · rw [← spans.dropWhile, same, other.dropWhile]

theorem spans_cons (inside : ∀ c ∈ part, holds c = true) (ends : holds stop = false) :
    Spans holds part (stop :: rest) := by
  refine ⟨inside, fun c first => ?_⟩
  rwa [← Option.some.inj first]

/-- Where only one value lacks a property, a list is split in front of that value. -/
theorem spans_iff_of_stop (only : ∀ c, holds c = false ↔ c = stop) :
    Spans holds part rest ↔ stop ∉ part ∧ ∀ c, rest.head? = some c → c = stop := by
  constructor
  · intro spans
    refine ⟨fun member => ?_, fun c first => (only c).mp (spans.ends c first)⟩
    have held := spans.inside stop member
    rw [(only stop).mpr rfl] at held
    contradiction
  · rintro ⟨absent, ends⟩
    refine ⟨fun c member => ?_, fun c first => (only c).mpr (ends c first)⟩
    rw [← Bool.not_eq_false, only]
    exact ne_of_mem_of_not_mem member absent

theorem spans_ne_iff [DecidableEq α] : Spans (fun c => decide (c ≠ stop)) part rest ↔
    stop ∉ part ∧ ∀ c, rest.head? = some c → c = stop :=
  spans_iff_of_stop fun c => by simp

theorem spans_bne_iff [DecidableEq α] : Spans (fun c => c != stop) part rest ↔
    stop ∉ part ∧ ∀ c, rest.head? = some c → c = stop :=
  spans_iff_of_stop fun c => by simp

end ContractInspector.Text
