import ContractInspector.Contract.Report
import ContractInspector.Guard.Resolve
import ContractInspector.Issue.Detect

/-! The outline tool: what a contract declares, and the issues in it. It never runs the compiler. -/
namespace ContractInspector.Tool

open Json (Value)

structure Outline where
  filename : Text.Wide
  scan : Contract.Scan
  issues : List Issue

/-- Outline the contract that a payload gives. -/
def outline (settings : Settings) (files : Host.FileView) (payload : Value) :
    Except Failure Outline := do
  let input ← (Guard.Input.ofJson payload).mapError .misshapen
  let source ← Guard.resolve settings files input
  let scan := Contract.scan source.text
  return ⟨source.filename, scan, Issue.detect scan⟩

namespace Outline

/-- What the contract contains, in words. -/
def message (outline : Outline) : String :=
  let declared := outline.scan.declared
  let contents := if declared.counted.isEmpty then "no definitions found" else declared.summary
  let found :=
    if outline.issues.isEmpty then ""
    else " (" ++ toString outline.issues.length ++ " potential issue(s) detected)"
  "Contract contains: " ++ contents ++ found

def json (outline : Outline) : Value :=
  let declared := outline.scan.declared
  .object
    [("success", .bool true), ("filename", .text outline.filename),
      ("languageVersion", .textOrNull outline.scan.languageVersion),
      ("imports", .texts outline.scan.imports), ("structure", declared.json),
      ("exports", declared.exports.json), ("stats", outline.scan.stats),
      ("potentialIssues", .array (outline.issues.map (·.json))),
      ("summary", .text declared.summary), ("message", .text outline.message)]

end Outline

/-- A failed outline. The details are those of the action to take, or else its problem. -/
def outlineFailure (refusal : Refusal) : Value :=
  let report := refusal.report
  let details := (report.action.details.filter (!·.isEmpty)).getD report.action.problem
  .object
    [("success", .bool false), ("errorType", .text report.concern.name),
      ("error", .text report.title), ("message", .text report.message),
      ("details", .text details)]

/-- The result of the outline tool for a payload. -/
def outlineResult (settings : Settings) (files : Host.FileView) (payload : Value) : Value :=
  match outline settings files payload with
  | .ok outline => outline.json
  | .error failure => outlineFailure failure.refusal

end ContractInspector.Tool
