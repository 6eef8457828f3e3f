import ContractInspector.Issue.Rules
import ContractInspector.Json.Value

/-! Detecting issues: every rule runs, and the issues are sorted by line. Issues of one line stay in
the order of the rules, and within a rule in the order in which it found them. They are told as JSON
values. -/
namespace ContractInspector.Issue

open Contract (Scan)

/-- The issues that some rules find, by line. -/
def detectWith (rules : List Rule) (scan : Scan) : List Issue :=
  (rules.flatMap (· scan)).mergeSort fun a b => a.line ≤ b.line

/-- The issues of a scanned contract, by line. -/
def detect (scan : Scan) : List Issue :=
  detectWith rules scan

end ContractInspector.Issue

namespace ContractInspector

def Issue.json (issue : Issue) : Json.Value :=
  .object [("kind", .text issue.kind.name), ("severity", .text issue.severity.name),
    ("message", .text issue.message), ("suggestion", .text issue.suggestion),
    ("line", .ofNat issue.line)]

end ContractInspector
