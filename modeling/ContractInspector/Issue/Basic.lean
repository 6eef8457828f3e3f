/-! Potential issues of a contract: what the compiler accepts no longer, and what it accepts but
gets wrong. -/
namespace ContractInspector.Issue

inductive Severity where
  | error
  | warning
deriving DecidableEq

namespace Severity

def name : Severity → String
  | error => "error"
  | warning => "warning"

end Severity

inductive Kind where
  | moduleLevelConst
  | stdlibNameCollision
  | sealedExportConflict
  | missingConstructor
  | unsupportedDivision
  | invalidCounterAccess
  | potentialOverflow
  | undisclosedWitnessConditional
  | undisclosedConstructorParam
  | deprecatedLedgerBlock
  | invalidVoidType
  | invalidPragmaFormat
  | deprecatedCellWrapper
  | unexportedEnum
deriving DecidableEq

namespace Kind

def name : Kind → String
  | moduleLevelConst => "module_level_const"
  | stdlibNameCollision => "stdlib_name_collision"
  | sealedExportConflict => "sealed_export_conflict"
  | missingConstructor => "missing_constructor"
  | unsupportedDivision => "unsupported_division"
  | invalidCounterAccess => "invalid_counter_access"
  | potentialOverflow => "potential_overflow"
  | undisclosedWitnessConditional => "undisclosed_witness_conditional"
  | undisclosedConstructorParam => "undisclosed_constructor_param"
  | deprecatedLedgerBlock => "deprecated_ledger_block"
  | invalidVoidType => "invalid_void_type"
  | invalidPragmaFormat => "invalid_pragma_format"
  | deprecatedCellWrapper => "deprecated_cell_wrapper"
  | unexportedEnum => "unexported_enum"

def severity : Kind → Severity
  | missingConstructor | unsupportedDivision | potentialOverflow | undisclosedWitnessConditional
  | undisclosedConstructorParam | unexportedEnum => .warning
  | _ => .error

end Kind

end ContractInspector.Issue

namespace ContractInspector

/-- A potential issue, with what is wrong, what to do, and the line where it is. -/
structure Issue where
  kind : Issue.Kind
  message : String
  suggestion : String
  line : Nat
deriving DecidableEq

def Issue.severity (issue : Issue) : Issue.Severity :=
  issue.kind.severity

end ContractInspector
