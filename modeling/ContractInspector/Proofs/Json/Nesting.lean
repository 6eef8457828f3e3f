import ContractInspector.Proofs.Json.Reading

/-! Arrays inside one another. They are JSON by every dialect (`isJson_nested`), and are read if and only if
they are not deeper than the reader goes (`le_of_isJson_nested`). -/
namespace ContractInspector.Json

variable {depth n : Nat} {text gap : List Char}

/-- So many arrays, each inside another. -/
def nested (n : Nat) : List Char :=
  List.replicate n '[' ++ List.replicate n ']'

theorem spells_nested (dialect : Dialect) (n : Nat) :
    Spells dialect (n + 1) .value (nested (n + 1)) := by
  induction n with
  | zero => exact .empty .array nofun
  | succ n ih =>
    have split : nested (n + 2) = '[' :: ([] ++ (nested (n + 1) ++ ([] ++ [']']))) := by
      have closings : List.replicate (n + 2) ']' = List.replicate (n + 1) ']' ++ [']'] :=
        List.replicate_succ'
      rw [nested, closings, nested]
      simp [List.replicate_succ]
    rw [split]
    exact .container .array nofun (.last ih nofun)

theorem isJson_nested (dialect : Dialect) (n : Nat) : IsJson dialect (n + 1) (nested (n + 1)) := by
  have json : IsJson dialect (n + 1) ([] ++ (nested (n + 1) ++ [])) :=
    .json nofun (spells_nested dialect n) nofun
  rwa [List.append_nil] at json

/-- A text starts with at most `n` openings of arrays, and goes on with something else. -/
def Opens (n : Nat) (text : List Char) : Prop :=
  ∃ k c others, text = List.replicate k '[' ++ c :: others ∧ c ≠ '[' ∧ k ≤ n

theorem opens_of_ne {c : Char} (other : c ≠ '[') (others : List Char) : Opens n (c :: others) :=
  ⟨0, c, others, rfl, other, Nat.zero_le n⟩

namespace Opens

theorem cons (opens : Opens n text) : Opens (n + 1) ('[' :: text) := by
  obtain ⟨k, c, others, rfl, other, most⟩ := opens
  exact ⟨k + 1, c, others, rfl, other, Nat.succ_le_succ most⟩

theorem append (opens : Opens n text) (rest : List Char) : Opens n (text ++ rest) := by
  obtain ⟨k, c, others, rfl, other, most⟩ := opens
  exact ⟨k, c, others ++ rest, List.append_assoc _ _ _, other, most⟩

theorem behind_gap (opens : Opens n text) (isGap : IsGap gap) : Opens n (gap ++ text) := by
  cases gap with
  | nil => exact opens
  | cons c gap =>
    refine opens_of_ne ?_ _
    rintro rfl
    exact absurd (isGap '[' List.mem_cons_self) (by decide)

end Opens

theorem Spells.opens {form : Form} (spells : Spells .readable depth form text) : Opens depth text := by
  induction spells with
  | word known =>
    obtain ⟨c, others, form, -, other⟩ := first_word known
    rw [form]
    exact opens_of_ne (fun same => other (by simp [same])) others
  | number isNumber =>
    obtain ⟨c, others, rfl, -, other⟩ := isNumber.first
    exact opens_of_ne (fun same => other (by simp [same])) others
  | text isText =>
    cases isText
    exact opens_of_ne (by decide) _
  | empty container isGap =>
    cases container with
    | array => exact ((opens_of_ne (by decide) []).behind_gap isGap).cons
    | object => exact opens_of_ne (by decide) _
  | container container isGap _ inside =>
    cases container with
    | array => exact (inside.behind_gap isGap).cons
    | object => exact opens_of_ne (by decide) _
  | member isName =>
    cases isName
    exact opens_of_ne (by decide) _
  | last _ _ element => exact element.append _
  | more _ _ _ _ element => exact element.append _

theorem le_of_isJson_nested (json : IsJson .readable depth (nested n)) : n ≤ depth := by
  have opens : Opens depth (nested n) := by
    generalize nested n = text at json
    obtain ⟨isFront, isValue, -⟩ := json
    exact (isValue.opens.append _).behind_gap isFront
  obtain ⟨k, c, others, same, other, most⟩ := opens
  refine (Nat.le_of_not_lt fun short => other ?_).trans most
  have here := congrArg (·[k]?) same
  simpa [nested, List.getElem?_append, short, eq_comm] using here

end ContractInspector.Json
