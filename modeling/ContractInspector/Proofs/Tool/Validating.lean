import ContractInspector.Proofs.Compiler.Safety
import ContractInspector.Proofs.Tool.Refusing

/-! The safety of a whole validation. Nothing is asked of the host before the contract has passed all
checks, what is asked then is safe, and the result tells whose affair a failure is. -/
namespace ContractInspector

open Compiler (Attempt Course Exchange Procedure Refuses Request Safe choices)
open Guard (ContractSource Input)
open Json (Value)

variable {settings : Settings} {search : Compiler.SearchPath} {files : Host.FileView}
variable {payload : Value} {source : ContractSource} {exchanges : List Exchange}

theorem Guard.slash_not_mem_filename {input : Input}
    (accepted : resolve settings files input = .ok source) : '/' ∉ source.filename.shown.toList := by
  rcases resolve_cases accepted with ⟨-, filename⟩ | ⟨_, real, _, -, -, filename, -⟩
  · have entry := isEntry_sanitizeFilename (input.filename.map (·.shown))
    rw [← Text.Wide.shown_plain (sanitizeFilename _), ← filename] at entry
    exact entry.inOne
  · rw [filename, shown_fileName, UnixPath.basename]
    intro member
    have kept := List.all_eq_true.mp List.all_takeWhile '/' (List.mem_reverse.mp member)
    contradiction

namespace Tool

/-- The payload gives a contract, which passes all checks that come before the compiler. -/
def Passes (settings : Settings) (files : Host.FileView) (payload : Value) (source : ContractSource) :
    Prop :=
  ∃ input includes, Input.ofJson payload = .ok input ∧ Guard.resolve settings files input = .ok source ∧
    Guard.checkIncludes source = .ok includes ∧ Guard.precheck source.text = .ok ()

/-- The checks that come before the compiler, with the source and its local includes. -/
def checked (settings : Settings) (files : Host.FileView) (payload : Value) :
    Except Failure (ContractSource × List String) := do
  let input ← (Input.ofJson payload).mapError .misshapen
  let source ← Guard.resolve settings files input
  let includes ← Guard.checkIncludes source
  Guard.precheck source.text
  return (source, includes)

theorem passes_iff :
    Passes settings files payload source ↔
      ∃ includes, checked settings files payload = .ok (source, includes) := by
  constructor
  · rintro ⟨input, includes, read, resolved, included, passed⟩
    refine ⟨includes, ?_⟩
    rw [checked, read]
    change (Guard.resolve settings files input >>= _) = _
    rw [resolved]
    change (Guard.checkIncludes source >>= _) = _
    rw [included]
    change (Guard.precheck source.text >>= _) = _
    rw [passed]
    rfl
  · rintro ⟨includes, accepted⟩
    obtain ⟨input, read, accepted⟩ := Guard.exists_of_bind_eq_ok accepted
    obtain ⟨_, resolved, accepted⟩ := Guard.exists_of_bind_eq_ok accepted
    obtain ⟨_, included, accepted⟩ := Guard.exists_of_bind_eq_ok accepted
    obtain ⟨_, passed, accepted⟩ := Guard.exists_of_bind_eq_ok accepted
    cases accepted
    refine ⟨input, includes, ?_, resolved, included, passed⟩
    cases given : Input.ofJson payload with
    | error fault =>
      rw [given] at read
      contradiction
    | ok other =>
      rw [given] at read
      exact congrArg Except.ok (Except.ok.inj read)

theorem validate_eq (settings : Settings) (search : Compiler.SearchPath) (files : Host.FileView)
    (payload : Value) : validate settings search files payload =
      (Attempt.settled (checked settings files payload) >>= fun (source, includes) => do
        let run ← Compiler.compile settings search source
        return ⟨source, includes, run⟩) := by
  rw [validate, checked]
  cases Input.ofJson payload with
  | error fault => rfl
  | ok input =>
    change (Attempt.settled (Guard.resolve settings files input) >>= _) =
      (Attempt.settled (Guard.resolve settings files input >>= _) >>= _)
    cases Guard.resolve settings files input with
    | error failure => rfl
    | ok source =>
      change (Attempt.settled (Guard.checkIncludes source) >>= _) =
        (Attempt.settled (Guard.checkIncludes source >>= _) >>= _)
      cases Guard.checkIncludes source with
      | error failure => rfl
      | ok includes =>
        change (Attempt.settled (Guard.precheck source.text) >>= _) =
          (Attempt.settled (Guard.precheck source.text >>= _) >>= _)
        cases Guard.precheck source.text <;> rfl

/-- The checks fail and nothing is asked, or they are passed and the contract is compiled. -/
theorem validate_cases {outcome : Except Failure Validation}
    (ends : (validate settings search files payload).run.Ends exchanges outcome) :
    (∃ failure, (∀ source, ¬ Passes settings files payload source) ∧ exchanges = [] ∧
        outcome = .error failure) ∨
      ∃ source includes ran, Passes settings files payload source ∧
        Course settings search source exchanges ran ∧
        outcome = ran.map fun run => ⟨source, includes, run⟩ := by
  rw [validate_eq] at ends
  rcases Attempt.ends_settled_bind_iff.mp ends with ⟨failure, refused, rfl, rfl⟩ |
    ⟨⟨source, includes⟩, accepted, compiling⟩
  · refine Or.inl ⟨failure, fun source passes => ?_, rfl, rfl⟩
    obtain ⟨includes, accepted⟩ := passes_iff.mp passes
    rw [refused] at accepted
    contradiction
  · refine Or.inr ⟨source, includes, ?_⟩
    have passes := passes_iff.mpr ⟨includes, accepted⟩
    rcases Attempt.ends_bind_iff.mp compiling with ⟨failure, ran, rfl⟩ | ⟨_, _, run, ran, last, rfl⟩
    · exact ⟨_, passes, Compiler.course_of_ends ran, rfl⟩
    · obtain ⟨rfl, rfl⟩ := Procedure.ends_done_iff.mp last
      rw [List.append_nil]
      exact ⟨_, passes, Compiler.course_of_ends ran, rfl⟩

theorem validationResult_history {σ : Type} (answer : (request : Request) → σ → request.Answer × σ)
    (state : σ) : (validationResult settings search files payload).history answer state =
      (validate settings search files payload).run.history answer state := by
  refine (Procedure.history_bind answer (validate settings search files payload).run _ state).trans ?_
  split
  · exact List.append_nil _
  · exact List.append_nil _

theorem validationResult_of_refuses {σ : Type}
    (answer : (request : Request) → σ → request.Answer × σ) (state : σ) {concern : Concern}
    (refuses : Refuses concern ((validate settings search files payload).run.run answer state).1) :
    Reports concern ((validationResult settings search files payload).run answer state).1 := by
  obtain ⟨failure, failed, rfl⟩ := refuses
  have result : ((validationResult settings search files payload).run answer state).1 =
      validationFailure failure.refusal := by
    refine (congrArg Prod.fst
      (Procedure.run_bind answer (validate settings search files payload).run _ state)).trans ?_
    rw [failed]
    rfl
  rw [result]
  exact reports_validationFailure _

/-- On every host a validation asks for something if and only if the contract passes the checks and there
is a candidate for the compiler. What it asks is safe, and a failure is reported as whose affair it is. -/
theorem validation_safe {σ : Type} (settings : Settings) (search : Compiler.SearchPath)
    (files : Host.FileView) (payload : Value)
    (answer : (request : Request) → σ → request.Answer × σ) (state : σ) :
    let history := (validationResult settings search files payload).history answer state
    let outcome := ((validate settings search files payload).run.run answer state).1
    (history ≠ [] ↔ (∃ source, Passes settings files payload source) ∧
        choices settings search false ≠ []) ∧
      Safe settings history outcome ∧
      ∀ concern, Refuses concern outcome →
        Reports concern ((validationResult settings search files payload).run answer state).1 := by
  intro history outcome
  have ends : (validate settings search files payload).run.Ends history outcome := by
    rw [show history = _ from validationResult_history answer state]
    exact Procedure.ends_run answer _ state
  refine ⟨?_, ?_, fun concern => validationResult_of_refuses answer state⟩
  · rcases validate_cases ends with ⟨failure, fails, nothing, failed⟩ |
      ⟨source, includes, ran, passes, course, same⟩
    · refine iff_of_false (absurd nothing) ?_
      rintro ⟨⟨source, passes⟩, -⟩
      exact fails source passes
    · rw [course.nonempty_iff]
      exact (and_iff_right ⟨source, passes⟩).symm
  · rcases validate_cases ends with ⟨failure, fails, nothing, failed⟩ |
      ⟨source, includes, ran, ⟨input, _, -, resolved, -, -⟩, course, same⟩
    · rw [nothing, failed]
      exact Compiler.safe_nil failure
    · rw [same]
      exact (course.safe (Guard.slash_not_mem_filename resolved)).map _

end Tool

end ContractInspector
