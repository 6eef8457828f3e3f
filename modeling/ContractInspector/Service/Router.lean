import ContractInspector.Service.Message
import ContractInspector.Tool.Handling

/-! Answering messages: each action leads to a tool, and its result is the answer. -/
namespace ContractInspector.Service

open Compiler (Procedure)
open Json (Value)

inductive Action where
  | listTools
  | validate
  | outline
deriving DecidableEq

namespace Action

def name : Action → String
  | listTools => "list_tools"
  | validate => "validate_contract"
  | outline => "extract_contract_structure"

def ofName? (name : Text.Wide) : Option Action :=
  [listTools, validate, outline].find? fun action => Text.Wide.plain action.name == name

end Action

/-- The tools with their descriptions. -/
def toolList : Value :=
  .array
    [.object [("name", .text Action.validate.name), ("description", .text
        ("Compile a Compact contract with the installed compiler and return " ++
          "structured diagnostics"))],
      .object [("name", .text Action.outline.name), ("description", .text
        ("List circuits, witnesses, ledger items, types, structs and enums, plus " ++
          "potential issues"))]]

/-- What is wrong with a message that is not answered with a result. -/
inductive ErrorCode where
  | invalidRequest
  | unknownAction
  | internalError
deriving DecidableEq

def ErrorCode.name : ErrorCode → String
  | invalidRequest => "INVALID_REQUEST"
  | unknownAction => "UNKNOWN_ACTION"
  | internalError => "INTERNAL_ERROR"

inductive Answer where
  | result (id : Text.Wide) (data : Value)
  | error (id : Text.Wide) (code : ErrorCode) (message : Text.Wide)

def Answer.json : Answer → Value
  | result id data =>
    .object [("request_id", .text id), ("type", .text "result"), ("data", data),
      ("error", .null)]
  | error id code message =>
    .object [("request_id", .text id), ("type", .text "error"), ("data", .null),
      ("error", .object [("code", .text code.name), ("message", .text message)])]

/-- Do an action. It goes wrong only if a tool cannot build its result. -/
def perform (settings : Settings) (search : Compiler.SearchPath) (files : Host.FileView)
    (action : Action) (payload : Value) : Procedure (Except Tool.ResultFault Value) :=
  match action with
  | .listTools => return .ok toolList
  | .validate => Tool.handleValidation settings search files payload
  | .outline => Tool.handleOutline settings files payload

/-- Answer a message. -/
def answerMessage (settings : Settings) (search : Compiler.SearchPath) (files : Host.FileView)
    (message : Message) : Procedure Answer :=
  match Action.ofName? message.action with
  | some action => do
    match ← perform settings search files action message.payload with
    | .ok data => return .result message.id data
    | .error fault => return .error message.id .internalError fault.message
  | none =>
    return .error message.id .unknownAction ("Unsupported action: " ++ message.action)

/-- Answer a value that should be a message. -/
def route (settings : Settings) (search : Compiler.SearchPath) (files : Host.FileView)
    (value : Value) : Procedure Answer :=
  match Message.ofJson value with
  | .ok message => answerMessage settings search files message
  | .error defect => return .error (Message.idOf value) .invalidRequest defect.text

/-- Answer a call of an action by its name. A payload that is missing is empty. -/
def call (settings : Settings) (search : Compiler.SearchPath) (files : Host.FileView)
    (id action : String) (payload : Option Value) : Procedure Answer :=
  route settings search files
    (.object [("request_id", .text id), ("action", .text action),
      ("payload", payload.getD (.object []))])

def health : Value :=
  .object [("status", .text "ok"), ("service", .text "Compact MCP"), ("version", .text "0.1.0")]

end ContractInspector.Service
