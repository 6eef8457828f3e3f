import ContractInspector.Diagnostic.Category
import ContractInspector.Diagnostic.Fixes
import ContractInspector.Json.Value

/-! Diagnostics as JSON values. -/
namespace ContractInspector

open Json (Value)

/-- The members of a diagnostic. Those that are missing are not there. -/
def Diagnostic.members (diagnostic : Diagnostic) : List (String × Option Value) :=
  [("line", diagnostic.location.map fun place => .ofNat place.line),
    ("column", (diagnostic.location.bind (·.column)).map .ofNat),
    ("message", some (.text diagnostic.message)),
    ("severity", some (.text diagnostic.severity.name)),
    ("sourceContext", diagnostic.sourceContext.map .text)]

/-- A diagnostic without the members that are missing. -/
def Diagnostic.json (diagnostic : Diagnostic) : Value :=
  .present diagnostic.members

/-- A diagnostic with null for the members that are missing. -/
def Diagnostic.fullJson (diagnostic : Diagnostic) : Value :=
  .object (diagnostic.members.map fun (name, value) => (name, value.getD .null))

namespace Diagnostic

def Category.json (category : Category) : Value :=
  .object [("category", .text category.name), ("title", .text category.title),
    ("explanation", .text category.explanation), ("solution", .text category.solution)]

end Diagnostic

def Language.CommonFix.json (fix : Language.CommonFix) : Value :=
  .object [("pattern", .text fix.pattern), ("fix", .text fix.fix)]

end ContractInspector
