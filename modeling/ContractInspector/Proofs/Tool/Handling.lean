import ContractInspector.Proofs.Compiler.History
import ContractInspector.Tool.Handling

/-! Handling failures. `builtFailure_eq` says that every failure makes a result: its particulars have
fields of their own, and these are for values of their kinds. -/
namespace ContractInspector.Tool

open Compiler (Procedure Request)
open Compiler.Procedure (run_bind)
open Json (Value)

/-- A particular has a field of its own, which is for values of its kind. -/
def fits (entry : Text.Wide × Value) : Bool :=
  (filledFields.lookup entry.1).isNone && (otherFields.lookup entry.1).any (·.admits entry.2)

theorem fits_of_mem (refusal : Refusal) : ∀ entry ∈ refusal.report.more, fits entry = true := by
  rw [← List.all_eq_true]
  cases refusal
  all_goals rfl

variable {entry : Text.Wide × Value}

theorem lookup_of_fits (fit : fits entry = true) : filledFields.lookup entry.1 = none ∧
    ∃ kind, otherFields.lookup entry.1 = some kind ∧ kind.admits entry.2 = true := by
  simpa [fits, Option.any_eq_true] using fit

theorem misfit?_of_fits (fit : fits entry = true) : misfit? entry = none := by
  obtain ⟨-, kind, found, admitted⟩ := lookup_of_fits fit
  rw [misfit?, found]
  exact if_pos admitted

theorem withFields_validationFailure (refusal : Refusal) :
    withFields (validationFailure refusal) = validationFailure refusal := by
  refine congrArg Value.object (List.filter_eq_self.mpr ?_)
  intro entry member
  simp only [List.mem_cons] at member
  rcases member with rfl | rfl | rfl | rfl | rfl | particular
  case inr.inr.inr.inr.inr =>
    obtain ⟨-, kind, found, -⟩ := lookup_of_fits (fits_of_mem refusal entry particular)
    rw [found, Option.isSome_some, Bool.or_true]
  all_goals rfl

theorem builtFailure_eq (refusal : Refusal) : builtFailure refusal = .ok (validationFailure refusal) := by
  have unfilled : (refusal.report.more.findSome? fun entry => filledFields.lookup entry.1) = none := by
    rw [List.findSome?_eq_none_iff]
    intro entry member
    exact (lookup_of_fits (fits_of_mem refusal entry member)).1
  have fitting : refusal.report.more.filterMap misfit? = [] := by
    rw [List.filterMap_eq_nil_iff]
    intro entry member
    exact misfit?_of_fits (fits_of_mem refusal entry member)
  simp only [builtFailure, unfilled, fitting, withFields_validationFailure]

/-- What a validation that has come to an outcome tells. -/
def told (outcome : Except Failure Validation) : Value :=
  match outcome.bind Validation.json with
  | .ok result => result
  | .error failure => validationFailure failure.refusal

section Running

variable {σ : Type} (answer : (request : Request) → σ → request.Answer × σ) (settings : Settings)
  (search : Compiler.SearchPath) (files : Host.FileView) (payload : Value) (state : σ)

theorem validationResult_run : (validationResult settings search files payload).run answer state =
    let (outcome, last) := (validate settings search files payload).run.run answer state
    (told outcome, last) := by
  refine (run_bind answer (validate settings search files payload).run _ state).trans ?_
  generalize (validate settings search files payload).run.run answer state = ended
  dsimp only [told]
  cases ended.1.bind Validation.json with
  | ok result => rfl
  | error failure => rfl

/-- Handling what fails always gives a result. -/
theorem handleValidation_run : (handleValidation settings search files payload).run answer state =
    let (result, last) := (validationResult settings search files payload).run answer state
    (.ok result, last) := by
  rw [validationResult_run]
  refine (run_bind answer (validate settings search files payload).run _ state).trans ?_
  generalize (validate settings search files payload).run.run answer state = ended
  dsimp only [told]
  cases ended.1.bind Validation.json with
  | ok result => rfl
  | error failure =>
    dsimp only
    rw [builtFailure_eq]
    rfl

end Running

end ContractInspector.Tool
