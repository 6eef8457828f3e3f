import ContractInspector.Text.Basic
import ContractInspector.Text.LowerCase

/-! Categories of failed compilations. The whole output decides; the first category that fits is
taken. -/
namespace ContractInspector.Diagnostic

inductive Category where
  | syntaxError
  | typeError
  | referenceError
  | importError
  | structureError
  | unknownError
deriving DecidableEq

namespace Category

def name : Category → String
  | syntaxError => "syntax_error"
  | typeError => "type_error"
  | referenceError => "reference_error"
  | importError => "import_error"
  | structureError => "structure_error"
  | unknownError => "unknown_error"

def title : Category → String
  | syntaxError => "Syntax Error"
  | typeError => "Type Error"
  | referenceError => "Reference Error"
  | importError => "Import Error"
  | structureError => "Contract Structure Error"
  | unknownError => "Compilation Failed"

def explanation : Category → String
  | syntaxError => "The contract has invalid syntax that the parser cannot understand"
  | typeError => "There is a type mismatch in your contract"
  | referenceError => "The contract references something that doesn't exist"
  | importError => "There is a problem with an import or include statement"
  | structureError =>
    "There is an issue with the contract structure (circuits, witnesses, or ledger)"
  | unknownError => "The compiler encountered an error"

def solution : Category → String
  | syntaxError => "Check for missing semicolons, brackets, or typos near the indicated line"
  | typeError => "Ensure variable types match expected types in operations"
  | referenceError =>
    "Check that all variables, types, and functions are properly defined or imported"
  | importError => "Verify import paths and ensure required libraries are available"
  | structureError => "Review the contract structure against Compact documentation"
  | unknownError => "Review the error message and check Compact documentation"

/-- The category fits output in lower case. -/
def fits (category : Category) (lowered : List Char) : Bool :=
  let mentions (term : String) : Bool := Text.contains term.toList lowered
  match category with
  | syntaxError => mentions "parse error" || mentions "looking for"
  | typeError => mentions "type" && (mentions "mismatch" || mentions "expected")
  | referenceError => mentions "undefined" || mentions "not found" || mentions "unknown"
  | importError => mentions "import" || mentions "include" || mentions "module"
  | structureError => mentions "circuit" || mentions "witness" || mentions "ledger"
  | unknownError => true

/-- All categories, in the order in which they are tried. -/
def all : List Category :=
  [syntaxError, typeError, referenceError, importError, structureError, unknownError]

end Category

/-- The category of some compiler output. -/
def categorize (output : List Char) : Category :=
  let lowered := Text.lower output
  (Category.all.find? fun category => category.fits lowered).getD .unknownError

end ContractInspector.Diagnostic
