import ContractInspector.Proofs.Tool.Handling
import ContractInspector.Proofs.Tool.Refusing
import ContractInspector.Service.Session

/-! Answering the values that frames write. `answers_route` says what is sent for every value: the result
of a tool, or what is wrong. -/
namespace ContractInspector

open Json (Value)
open Text (Wide)
open Tool (Reports)

namespace Tool

variable {name : String} {text : Wide} {member? : Option Value} {value : Value}

theorem requiredText_eq_ok_iff : requiredText name member? = .ok text ↔ member? = some (.text text) := by
  unfold requiredText
  split
  · simp
  · simp
  next other => simpa using fun same => other text same

theorem objectOrEmpty_eq_ok_iff : objectOrEmpty name member? = .ok value ↔
    member? = none ∧ value = .object [] ∨
      ∃ members, member? = some (.object members) ∧ value = .object members := by
  cases member? with
  | none => simp [objectOrEmpty, eq_comm]
  | some given => cases given <;> simp [objectOrEmpty, eq_comm]

theorem optionalObject_eq_ok_iff {value? : Option Value} : optionalObject name member? = .ok value? ↔
    (member? = none ∨ member? = some .null) ∧ value? = none ∨
      ∃ members, member? = some (.object members) ∧ value? = some (.object members) := by
  cases member? with
  | none => simp [optionalObject, eq_comm]
  | some given => cases given <;> simp [optionalObject, eq_comm]

end Tool

namespace Service

/-- A value is a message: its id and its action are texts, its payload is an object or missing, and its
context is an object, null or missing. -/
structure IsMessage (value : Value) (message : Message) : Prop where
  id : value.member? "request_id" = some (.text message.id)
  action : value.member? "action" = some (.text message.action)
  payload : value.member? "payload" = none ∧ message.payload = .object [] ∨
    ∃ members, value.member? "payload" = some (.object members) ∧ message.payload = .object members
  context : (value.member? "context" = none ∨ value.member? "context" = some .null) ∧ message.context = none ∨
    ∃ members, value.member? "context" = some (.object members) ∧ message.context = some (.object members)

theorem ofJson_eq_ok_iff {value : Value} {message : Message} :
    Message.ofJson value = .ok message ↔ IsMessage value message := by
  constructor
  · intro read
    unfold Message.ofJson at read
    split at read
    next =>
      dsimp only at read
      split at read
      next id action payload context =>
        obtain rfl := Except.ok.inj read
        exact ⟨Tool.requiredText_eq_ok_iff.mp id, Tool.requiredText_eq_ok_iff.mp action,
          Tool.objectOrEmpty_eq_ok_iff.mp payload, Tool.optionalObject_eq_ok_iff.mp context⟩
      next => contradiction
    next => contradiction
  · rintro ⟨id, action, payload, context⟩
    unfold Message.ofJson
    split
    next =>
      rw [Tool.requiredText_eq_ok_iff.mpr id, Tool.requiredText_eq_ok_iff.mpr action,
        Tool.objectOrEmpty_eq_ok_iff.mpr payload, Tool.optionalObject_eq_ok_iff.mpr context]
    next other =>
      cases value with
      | object members => exact absurd rfl (other members)
      | _ => cases id

variable {σ : Type} (on : Surroundings σ) (state : σ)

/-- What an action comes to, and the host after it. -/
def attempt (on : Surroundings σ) (action : Action) (payload : Value) (state : σ) :
    Except Failure Value × σ :=
  match action with
  | .listTools => (.ok toolList, state)
  | .validate =>
    let (outcome, last) :=
      on.run (fun settings search files => (Tool.validate settings search files payload).run) state
    (outcome.bind Tool.Validation.json, last)
  | .outline => ((Tool.outline on.settings (on.files state) payload).map Tool.Outline.json, state)

/-- The data tell what an action came to: its result, or whose affair it is that it failed. -/
def Tells (data : Value) (outcome : Except Failure Value) : Prop :=
  match outcome with
  | .ok result => data = result
  | .error failure =>
    data.member? "success" = some (.bool false) ∧ Reports failure.refusal.report.concern data

theorem tells_told (outcome : Except Failure Tool.Validation) :
    Tells (Tool.told outcome) (outcome.bind Tool.Validation.json) := by
  unfold Tool.told
  cases outcome.bind Tool.Validation.json with
  | ok result => rfl
  | error failure => exact ⟨rfl, Tool.reports_validationFailure failure.refusal⟩

theorem tells_outlineResult (settings : Settings) (files : Host.FileView) (payload : Value) :
    Tells (Tool.outlineResult settings files payload)
      ((Tool.outline settings files payload).map Tool.Outline.json) := by
  unfold Tool.outlineResult
  cases Tool.outline settings files payload with
  | ok outline => rfl
  | error failure => exact ⟨rfl, Tool.reports_outlineFailure failure.refusal⟩

/-- No action goes wrong. -/
theorem run_perform (on : Surroundings σ) (action : Action) (payload : Value) (state : σ) :
    ∃ data, on.run (fun settings search files => perform settings search files action payload) state =
        (.ok data, (attempt on action payload state).2) ∧
      Tells data (attempt on action payload state).1 := by
  cases action with
  | listTools => exact ⟨toolList, rfl, rfl⟩
  | validate =>
    refine ⟨_, ?_, tells_told _⟩
    refine (Tool.handleValidation_run on.answer on.settings (on.search state) (on.files state) payload
      state).trans ?_
    rw [Tool.validationResult_run]
    rfl
  | outline => exact ⟨_, rfl, tells_outlineResult on.settings (on.files state) payload⟩

theorem ofName?_name (action : Action) : Action.ofName? action.name = some action := by
  cases action <;> rfl

theorem name_of_ofName? {name : Wide} {action : Action} (found : Action.ofName? name = some action) :
    name = action.name := by
  rw [Action.ofName?] at found
  have same := List.find?_some found
  exact (beq_iff_eq.mp same).symm

section Frames

variable {value : Value} {message : Message}

theorem isObject_of_isMessage (isMessage : IsMessage value message) :
    ∃ members, value = .object members := by
  cases value with
  | object members => exact ⟨members, rfl⟩
  | _ => cases isMessage.id

theorem answerFrame_message (isMessage : IsMessage value message) : answerFrame on value state =
    let (answer, last) := on.run (fun settings search files =>
      answerMessage settings search files message) state
    (answer.json, last) := by
  obtain ⟨members, rfl⟩ := isObject_of_isMessage isMessage
  rw [answerFrame]
  unfold route
  rw [ofJson_eq_ok_iff.mpr isMessage]

theorem answerFrame_known (isMessage : IsMessage value message) {action : Action}
    (known : message.action = action.name) : ∃ data, answerFrame on value state =
        ((Answer.result message.id data).json, (attempt on action message.payload state).2) ∧
      Tells data (attempt on action message.payload state).1 := by
  obtain ⟨data, done, tells⟩ := run_perform on action message.payload state
  refine ⟨data, ?_, tells⟩
  have answered : on.run (fun settings search files => answerMessage settings search files message) state =
      (.result message.id data, (attempt on action message.payload state).2) := by
    unfold answerMessage
    rw [known, ofName?_name]
    refine (Compiler.Procedure.run_bind on.answer
      (perform on.settings (on.search state) (on.files state) action message.payload) _ state).trans ?_
    rw [show Compiler.Procedure.run _ _ _ = _ from done]
    rfl
  rw [answerFrame_message on state isMessage, answered]

theorem answerFrame_unknown (isMessage : IsMessage value message)
    (unknown : ∀ action : Action, message.action ≠ action.name) : answerFrame on value state =
      ((Answer.error message.id .unknownAction ("Unsupported action: " ++ message.action)).json, state) := by
  have unnamed : Action.ofName? message.action = none := by
    rw [Option.eq_none_iff_forall_ne_some]
    intro action found
    exact unknown action (name_of_ofName? found)
  rw [answerFrame_message on state isMessage]
  unfold answerMessage
  rw [unnamed]
  rfl

theorem answerFrame_invalid (invalid : ∀ message, ¬ IsMessage value message) :
    ∃ id text, answerFrame on value state = ((Answer.error id .invalidRequest text).json, state) := by
  unfold answerFrame
  split
  next members =>
    cases read : Message.ofJson (.object members) with
    | ok message => exact absurd (ofJson_eq_ok_iff.mp read) (invalid message)
    | error defect =>
      refine ⟨Message.idOf (.object members), defect.text, ?_⟩
      unfold route
      rw [read]
      rfl
  next => exact ⟨"unknown", "Expected a JSON object", rfl⟩

end Frames

/-- A message with the result of a request. -/
structure GivesResult (sent : Value) (id : Wide) (data : Value) : Prop where
  id : sent.member? "request_id" = some (.text id)
  type : sent.member? "type" = some (.text "result")
  data : sent.member? "data" = some data
  error : sent.member? "error" = some .null

/-- A message that says what is wrong. -/
structure GivesError (sent : Value) (id : Wide) (code : ErrorCode) : Prop where
  id : sent.member? "request_id" = some (.text id)
  type : sent.member? "type" = some (.text "error")
  data : sent.member? "data" = some .null
  error : ∃ error, sent.member? "error" = some error ∧ error.member? "code" = some (.text code.name)

theorem givesResult_json (id : Wide) (data : Value) : GivesResult (Answer.result id data).json id data :=
  ⟨rfl, rfl, rfl, rfl⟩

theorem givesError_json (id : Wide) (code : ErrorCode) (message : Wide) :
    GivesError (Answer.error id code message).json id code :=
  ⟨rfl, rfl, rfl, _, rfl, rfl⟩

/-- What is sent for a value on a host in some state, and the host after it. -/
structure Answers (on : Surroundings σ) (value : Value) (state : σ) (sent : Value) (last : σ) : Prop where
  result : ∀ message, IsMessage value message → ∀ action : Action, message.action = action.name →
    last = (attempt on action message.payload state).2 ∧
      ∃ data, GivesResult sent message.id data ∧ Tells data (attempt on action message.payload state).1
  unknown : ∀ message, IsMessage value message → (∀ action : Action, message.action ≠ action.name) →
    last = state ∧ GivesError sent message.id .unknownAction
  invalid : (∀ message, ¬ IsMessage value message) →
    last = state ∧ ∃ id, GivesError sent id .invalidRequest
  internal : ∀ id, ¬ GivesError sent id .internalError

theorem ErrorCode.name_injective {one two : ErrorCode} (same : one.name = two.name) : one = two := by
  cases one <;> cases two
  all_goals first | rfl | exact absurd same (by decide)

theorem not_givesError_result (id : Wide) (data : Value) (other : Wide) (code : ErrorCode) :
    ¬ GivesError (Answer.result id data).json other code := by
  rintro ⟨-, type, -, -⟩
  have same : "result" = "error" := Wide.plain.inj (Value.text.inj (Option.some.inj type))
  exact absurd same (by decide)

theorem code_of_givesError {id text other : Wide} {code found : ErrorCode}
    (gives : GivesError (Answer.error id code text).json other found) : code = found := by
  obtain ⟨-, -, -, error, here, coded⟩ := gives
  obtain rfl := Option.some.inj here
  exact ErrorCode.name_injective (Wide.plain.inj (Value.text.inj (Option.some.inj coded)))

/-- Every value is answered. -/
theorem answers_answerFrame (value : Value) :
    Answers on value state (answerFrame on value state).1 (answerFrame on value state).2 := by
  by_cases accepted : ∃ message, IsMessage value message
  · obtain ⟨message, isMessage⟩ := accepted
    have only {other : Message} (isOther : IsMessage value other) : message = other :=
      Except.ok.inj ((ofJson_eq_ok_iff.mpr isMessage).symm.trans (ofJson_eq_ok_iff.mpr isOther))
    by_cases known : ∃ action : Action, message.action = action.name
    · obtain ⟨action, known⟩ := known
      obtain ⟨data, answered, tells⟩ := answerFrame_known on state isMessage known
      rw [answered]
      refine ⟨?_, ?_, ?_, fun other => not_givesError_result _ _ other _⟩
      · intro other isOther action' known'
        obtain rfl := only isOther
        obtain rfl : action = action' := by
          have named := ofName?_name action
          rw [← known, known', ofName?_name] at named
          exact (Option.some.inj named).symm
        exact ⟨rfl, data, givesResult_json _ _, tells⟩
      · intro other isOther unknown
        obtain rfl := only isOther
        exact absurd known (unknown action)
      · intro none
        exact absurd isMessage (none message)
    · have unknown (action : Action) : message.action ≠ action.name := fun same => known ⟨action, same⟩
      rw [answerFrame_unknown on state isMessage unknown]
      refine ⟨?_, ?_, ?_, fun other internal => nomatch code_of_givesError internal⟩
      · intro other isOther action named
        obtain rfl := only isOther
        exact absurd named (unknown action)
      · intro other isOther _
        obtain rfl := only isOther
        exact ⟨rfl, givesError_json _ _ _⟩
      · intro none
        exact absurd isMessage (none message)
  · have invalid (message : Message) : ¬ IsMessage value message := fun same => accepted ⟨message, same⟩
    obtain ⟨id, text, answered⟩ := answerFrame_invalid on state invalid
    rw [answered]
    refine ⟨?_, ?_, ?_, fun other internal => nomatch code_of_givesError internal⟩
    · intro message isMessage
      exact absurd isMessage (invalid message)
    · intro message isMessage
      exact absurd isMessage (invalid message)
    · intro _
      exact ⟨rfl, id, givesError_json _ _ _⟩

end Service

end ContractInspector
