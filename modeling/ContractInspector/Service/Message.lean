import ContractInspector.Tool.Shape

/-! Messages of clients: each asks for one action. -/
namespace ContractInspector.Service

open Json (Value)
open Tool (Field ShapeFault)

structure Message where
  id : Text.Wide
  action : Text.Wide
  payload : Value
  context : Option Value

namespace Message

def model : String := "MCPRequest"

/-- Why a value is no message. -/
inductive Defect where
  | misshapen (fault : ShapeFault)
  /-- The value is no object. -/
  | notObject (kind : String)

def Defect.text : Defect → String
  | misshapen fault => fault.message
  | notObject kind =>
    "compact_mcp.models.MCPRequest() argument after ** must be a mapping, not " ++ kind

/-- Read a message. Members with other names are passed over. -/
def ofJson (value : Value) : Except Defect Message :=
  match value with
  | .object _ =>
    let id := Tool.requiredText "request_id" (value.member? "request_id")
    let action := Tool.requiredText "action" (value.member? "action")
    let payload := Tool.objectOrEmpty "payload" (value.member? "payload")
    let context := Tool.optionalObject "context" (value.member? "context")
    match id, action, payload, context with
    | .ok id, .ok action, .ok payload, .ok context => .ok ⟨id, action, payload, context⟩
    | _, _, _, _ =>
      .error (.misshapen ⟨model,
        [id.problem?, action.problem?, payload.problem?, context.problem?].filterMap fun p => p⟩)
  | _ => .error (.notObject value.kind)

/-- The id to answer a value with that may be no message. -/
def idOf (value : Value) : Text.Wide :=
  ((value.member? "request_id").map (·.shown)).getD "unknown"

end Message

end ContractInspector.Service
