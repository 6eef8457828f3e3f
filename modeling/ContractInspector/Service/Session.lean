import ContractInspector.Json.Reader
import ContractInspector.Service.Router

/-! Sessions: frames of text come in and each is answered, until one is not JSON, or its answer cannot be
sent. -/
namespace ContractInspector.Service

open Json (Value)

/-- The way back to a client. It may have no bytes for halves of surrogate pairs. -/
structure Connection where
  /-- Why a message cannot be sent, if it cannot. -/
  refusal? : Value → Option String
  sends : ∀ message, message.isPlain = true → refusal? message = none

/-- A host with a state of type `σ`: how messages come and go, what its files are, where its programs are,
and how it answers requests. -/
structure Surroundings (σ : Type) where
  settings : Settings
  connection : Connection
  /-- How deep containers may stand inside one another in a frame. -/
  depth : Nat
  search : σ → Compiler.SearchPath
  files : σ → Host.FileView
  answer : (request : Compiler.Request) → σ → request.Answer × σ

namespace Surroundings

/-- Do what needs the host as it is now. -/
def run {α σ : Type} (on : Surroundings σ)
    (procedure : Settings → Compiler.SearchPath → Host.FileView → Compiler.Procedure α)
    (state : σ) : α × σ :=
  (procedure on.settings (on.search state) (on.files state)).run on.answer state

end Surroundings

/-- The last message of a session that cannot go on. -/
def fatal (message : String) : Value :=
  .object [("type", .text "error"),
    ("error", .object [("code", .text "FATAL"), ("message", .text message)])]

/-- Answer a value that came as a frame. -/
def answerFrame {σ : Type} (on : Surroundings σ) (value : Value) (state : σ) : Value × σ :=
  match value with
  | .object _ =>
    let (answer, state) :=
      on.run (fun settings search files => route settings search files value) state
    (answer.json, state)
  | _ => ((Answer.error "unknown" .invalidRequest "Expected a JSON object").json, state)

/-- The messages that are sent for some frames. -/
def session {σ : Type} (on : Surroundings σ) : List String → σ → List Value × σ
  | [], state => ([], state)
  | frame :: frames, state =>
    match Json.read on.depth frame.toList with
    | .error fault => ([fatal (fault.message frame.toList)], state)
    | .ok value =>
      let (message, state) := answerFrame on value state
      match on.connection.refusal? message with
      | some text => ([fatal text], state)
      | none =>
        let (others, state) := session on frames state
        (message :: others, state)

end ContractInspector.Service
