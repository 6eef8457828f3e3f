import ContractInspector.Tool.Outline
import ContractInspector.Tool.Validation

/-! Handling failures. What a tool fails with becomes a result, and so do the particulars that some
failures tell: a result is built from them only if it has room for each of them. -/
namespace ContractInspector.Tool

open Compiler (Procedure)
open Json (Value)

/-- The kinds of values that a failed validation has fields for. -/
inductive Kind where
  /-- The value `false` only. -/
  | no
  | flag
  | text
  | list
  | object
deriving DecidableEq

namespace Kind

def admits : Kind → Value → Bool
  | no, .bool value => !value
  | flag, .bool _ => true
  | text, .text _ => true
  | list, .array _ => true
  | object, .object _ => true
  | _, _ => false

def problem : Kind → Problem
  | no => .notFalse
  | flag => .notFlag
  | text => .notText
  | list => .notList
  | object => .notObject

end Kind

/-- The fields that are filled for every failure, each with its keyword. -/
def filledFields : List (Text.Wide × String) :=
  [("errorType", "error_type"), ("error", "error"), ("message", "message"),
    ("userAction", "user_action")]

/-- The fields that the particulars of a failure may fill. -/
def otherFields : List (Text.Wide × Kind) :=
  [("success", .no), ("compilerInstalled", .flag), ("compilerVersion", .text),
    ("compilerPath", .text), ("installation", .object), ("systemError", .object),
    ("detectedIssues", .list)]

/-- Why no result can be built for a failure. -/
inductive ResultFault where
  /-- A particular is for a field that is filled anyway. -/
  | repeated (keyword : String)
  | misshapen (fault : ShapeFault)
deriving DecidableEq

namespace ResultFault

def model : String := "ValidationFailure"

def message : ResultFault → String
  | repeated keyword =>
    "compact_mcp.models." ++ model ++ "() got multiple values for keyword argument " ++
      Text.quoted keyword
  | misshapen fault => fault.message

end ResultFault

/-- What is wrong with a particular. One that no field is for is passed over. -/
def misfit? (particular : Text.Wide × Value) : Option (Option String × Problem) :=
  match otherFields.lookup particular.1 with
  | some kind =>
    if kind.admits particular.2 then none else some (some particular.1.shown, kind.problem)
  | none => none

/-- The members of an object that a failed validation has fields for. -/
def withFields : Value → Value
  | .object members =>
    .object (members.filter fun entry =>
      (filledFields.lookup entry.1).isSome || (otherFields.lookup entry.1).isSome)
  | value => value

/-- The result for a failed validation. -/
def builtFailure (refusal : Refusal) : Except ResultFault Value :=
  let particulars := refusal.report.more
  match particulars.findSome? fun entry => filledFields.lookup entry.1 with
  | some keyword => .error (.repeated keyword)
  | none =>
    match particulars.filterMap misfit? with
    | [] => .ok (withFields (validationFailure refusal))
    | problems => .error (.misshapen ⟨ResultFault.model, problems⟩)

/-- Validate the contract that a payload gives, and handle what fails. -/
def handleValidation (settings : Settings) (search : Compiler.SearchPath) (files : Host.FileView)
    (payload : Value) : Procedure (Except ResultFault Value) := do
  let outcome ← (validate settings search files payload).run
  match outcome.bind Validation.json with
  | .ok result => return .ok result
  | .error failure => return builtFailure failure.refusal

/-- Outline the contract that a payload gives. A failed outline tells no particulars. -/
def handleOutline (settings : Settings) (files : Host.FileView) (payload : Value) :
    Procedure (Except ResultFault Value) :=
  return .ok (outlineResult settings files payload)

end ContractInspector.Tool
