import ContractInspector.Proofs.Diagnostic.Reporting
import ContractInspector.Tool.Validation

/-! What a failed compilation reports. -/
namespace ContractInspector.Tool.Validation

open Diagnostic (Announces Readable)
open Json (Value)
open Text (isBlank strip)

/-- The compiler wrote blanks only, to its errors or, where these are empty, to its output. -/
def WroteBlanks (validation : Validation) : Prop :=
  let run := validation.run
  (run.errors ≠ "" ∧ ∀ c ∈ run.errors.toList, isBlank c = true) ∨
    (run.errors = "" ∧ run.output ≠ "" ∧ ∀ c ∈ run.output.toList, isBlank c = true)

instance (validation : Validation) : Decidable validation.WroteBlanks :=
  inferInstanceAs (Decidable (_ ∨ _))

variable (validation : Validation)

theorem failureText_blank_iff :
    (∀ c ∈ validation.failureText.toList, isBlank c = true) ↔ validation.WroteBlanks := by
  have spoken : ¬∀ c ∈ ("Compiler exited with code " ++ toString validation.run.status).toList,
      isBlank c = true := by
    intro blank
    exact absurd (blank 'C' (by simp [String.toList_append])) (by decide)
  by_cases silent : validation.run.errors = ""
  · by_cases quiet : validation.run.output = ""
    · have text : validation.failureText =
          "Compiler exited with code " ++ toString validation.run.status := by
        simp [failureText, silent, quiet]
      rw [text]
      exact iff_of_false spoken (by simp [WroteBlanks, silent, quiet])
    · simp [failureText, WroteBlanks, silent, quiet]
  · simp [failureText, WroteBlanks, silent]

/-- A failed compilation is reported with a diagnostic, unless the compiler wrote nothing but blanks,
and with the text of every marker in what it wrote, if no number there is too long to be read. -/
theorem failure_reported (failed : validation.run.isOk = false)
    (readable : Readable validation.failureText.toList) :
    ∃ result errors, validation.json = .ok result ∧
      result.member? "errors" = some (.array (errors.map Diagnostic.json)) ∧
      result.member? "errorCount" = some (.ofNat errors.length) ∧
      (errors = [] ↔ validation.WroteBlanks) ∧
      ∀ said, Announces "error" validation.failureText.toList said →
        (∃ c ∈ said, isBlank c = false) →
          ∃ diagnostic ∈ errors, strip said <:+ diagnostic.message.toList := by
  obtain ⟨errors, found, blank, spoken⟩ :=
    Diagnostic.exists_errors readable validation.source.text
  refine ⟨validation.failureJson errors, errors, ?_, rfl, rfl, ?_, spoken⟩
  · rw [json, failed, if_neg Bool.false_ne_true, Validation.errors, found]
  · rw [blank, failureText_blank_iff]

/-- A failed run that wrote an error message to its output, and a line end to its errors. -/
def lineEndRun : Validation where
  source := ⟨[], "contract.compact", .inline⟩
  localIncludes := []
  run := ⟨⟨"compact", "0.26.0"⟩, 1, "error: boom", "\n"⟩

theorem failure_reported_lineEnd :
    lineEndRun.run.isOk = false ∧ Announces "error" lineEndRun.run.output.toList " boom".toList ∧
      lineEndRun.json = .ok (lineEndRun.failureJson []) := by
  have none : lineEndRun.errors = .ok [] := by decide +kernel
  refine ⟨rfl, ⟨[], "error".toList, [], rfl, ?_, by decide, by simp [Diagnostic.EndsLine]⟩, ?_⟩
  · unfold Text.Spells
    decide
  · rw [json, none]
    rfl

/-- The same message, written to the errors, is reported. -/
def spokenRun : Validation :=
  { lineEndRun with run := { lineEndRun.run with errors := "error: boom" } }

theorem failure_reported_spoken : spokenRun.run.isOk = false ∧
    ∃ result errors, spokenRun.json = .ok result ∧
      result.member? "errors" = some (.array (errors.map Diagnostic.json)) ∧ errors ≠ [] := by
  have readable : Readable spokenRun.failureText.toList := by
    intro digits _ within
    have short : spokenRun.failureText.toList.length ≤ Text.maxDigits := by decide
    exact Nat.le_trans within.length_le short
  obtain ⟨result, errors, reported, listed, -, blank, -⟩ :=
    spokenRun.failure_reported rfl readable
  refine ⟨rfl, result, errors, reported, listed, ?_⟩
  rw [ne_eq, blank]
  decide

end ContractInspector.Tool.Validation
