import ContractInspector.Compiler.Procedure

/-! What a procedure asks of its host and what it is answered, in order. A run on a host has one such
history, and a history of a compound procedure is made of those of its parts. -/
namespace ContractInspector

namespace Compiler

/-- A request with the answer to it. -/
structure Exchange where
  request : Request
  answer : request.Answer

namespace Procedure

variable {α β σ : Type}

/-- The exchanges of a run on a host. -/
def history (answer : (request : Request) → σ → request.Answer × σ) :
    Procedure α → σ → List Exchange
  | done _, _ => []
  | ask request next, state =>
    let (given, state) := answer request state
    ⟨request, given⟩ :: (next given).history answer state

/-- After some exchanges a procedure ends with a result. -/
inductive Ends : Procedure α → List Exchange → α → Prop
  | done (result : α) : Ends (.done result) [] result
  | ask {request : Request} {next : request.Answer → Procedure α} {later : List Exchange}
      {result : α} (given : request.Answer) (ends : Ends (next given) later result) :
      Ends (.ask request next) (⟨request, given⟩ :: later) result

/-- Every run on a host ends after the exchanges of its history. -/
theorem ends_run (answer : (request : Request) → σ → request.Answer × σ) (procedure : Procedure α)
    (state : σ) :
    procedure.Ends (procedure.history answer state) (procedure.run answer state).1 := by
  induction procedure generalizing state with
  | done result => exact .done result
  | ask request next ih => exact .ask _ (ih _ _)

theorem run_bind (answer : (request : Request) → σ → request.Answer × σ) (procedure : Procedure α)
    (next : α → Procedure β) (state : σ) :
    (procedure.bind next).run answer state =
      (next (procedure.run answer state).1).run answer (procedure.run answer state).2 := by
  induction procedure generalizing state with
  | done result => rfl
  | ask request others ih => exact ih _ _

theorem history_bind (answer : (request : Request) → σ → request.Answer × σ)
    (procedure : Procedure α) (next : α → Procedure β) (state : σ) :
    (procedure.bind next).history answer state = procedure.history answer state ++
      (next (procedure.run answer state).1).history answer (procedure.run answer state).2 := by
  induction procedure generalizing state with
  | done result => rfl
  | ask request others ih => exact congrArg (_ :: ·) (ih _ _)

variable {procedure : Procedure α} {exchanges : List Exchange} {result : α}

theorem ends_done_iff {other : α} :
    (done other).Ends exchanges result ↔ exchanges = [] ∧ result = other := by
  constructor
  · rintro ⟨⟩
    exact ⟨rfl, rfl⟩
  · rintro ⟨rfl, rfl⟩
    exact .done _

theorem ends_ask_iff {request : Request} {next : request.Answer → Procedure α} :
    (ask request next).Ends exchanges result ↔
      ∃ given later, exchanges = ⟨request, given⟩ :: later ∧ (next given).Ends later result := by
  constructor
  · rintro (_ | ⟨given, ends⟩)
    exact ⟨given, _, rfl, ends⟩
  · rintro ⟨given, later, rfl, ends⟩
    exact .ask given ends

theorem ends_bind_iff {next : α → Procedure β} {result : β} :
    (procedure.bind next).Ends exchanges result ↔
      ∃ first second value, procedure.Ends first value ∧ (next value).Ends second result ∧
        exchanges = first ++ second := by
  induction procedure generalizing exchanges with
  | done value =>
    constructor
    · intro ends
      exact ⟨[], exchanges, value, .done value, ends, rfl⟩
    · rintro ⟨first, second, other, ends, others, rfl⟩
      obtain ⟨rfl, rfl⟩ := ends_done_iff.mp ends
      exact others
  | ask request others ih =>
    constructor
    · intro ends
      obtain ⟨given, later, rfl, rest⟩ := ends_ask_iff.mp ends
      obtain ⟨first, second, value, before, behind, rfl⟩ := (ih given).mp rest
      exact ⟨_, second, value, .ask given before, behind, rfl⟩
    · rintro ⟨first, second, value, ends, behind, rfl⟩
      obtain ⟨given, later, rfl, before⟩ := ends_ask_iff.mp ends
      exact .ask given ((ih given).mpr ⟨later, second, value, before, behind, rfl⟩)

end Procedure

end Compiler

namespace Host.Reply

/-- What an answer to a request comes to. -/
def outcome {α : Type} (onFault : Fault → Refusal) : Reply α → Except Failure α
  | .done answer => .ok answer
  | .failed fault => .error (.refused (onFault fault))
  | .broke accident => .error (.broken accident)

theorem eq_done_of_outcome {α : Type} {reply : Reply α} {onFault : Fault → Refusal} {value : α}
    (outcome : reply.outcome onFault = .ok value) : reply = .done value := by
  cases reply with
  | done answer =>
    cases outcome
    rfl
  | failed fault => contradiction
  | broke accident => contradiction

/-- What was asked for was not done. -/
def fails {α : Type} : Reply α → Bool
  | .done _ => false
  | .failed _ | .broke _ => true

theorem fails_of_outcome {α : Type} {reply : Reply α} {onFault : Fault → Refusal} {failure : Failure}
    (failed : reply.outcome onFault = .error failure) : reply.fails = true := by
  cases reply with
  | done answer => contradiction
  | failed fault => rfl
  | broke accident => rfl

end Host.Reply

namespace Compiler

open Host (Reply)

namespace Attempt

variable {α β : Type} {attempt : Attempt α} {exchanges : List Exchange}

theorem ends_bind_iff {next : α → Attempt β} {outcome : Except Failure β} :
    (attempt >>= next).run.Ends exchanges outcome ↔
      (∃ failure, attempt.run.Ends exchanges (.error failure) ∧ outcome = .error failure) ∨
        ∃ first second value, attempt.run.Ends first (.ok value) ∧
          (next value).run.Ends second outcome ∧ exchanges = first ++ second := by
  change (attempt.run.bind _).Ends exchanges outcome ↔ _
  rw [Procedure.ends_bind_iff]
  constructor
  · rintro ⟨first, second, failure | value, ends, later, rfl⟩
    · obtain ⟨rfl, rfl⟩ := Procedure.ends_done_iff.mp later
      rw [List.append_nil]
      exact Or.inl ⟨failure, ends, rfl⟩
    · exact Or.inr ⟨first, second, value, ends, later, rfl⟩
  · rintro (⟨failure, ends, rfl⟩ | ⟨first, second, value, ends, later, rfl⟩)
    · exact ⟨exchanges, [], .error failure, ends, .done _, (List.append_nil _).symm⟩
    · exact ⟨first, second, .ok value, ends, later, rfl⟩

theorem ends_settled_iff {settled outcome : Except Failure α} :
    (Attempt.settled settled).run.Ends exchanges outcome ↔ exchanges = [] ∧ outcome = settled :=
  Procedure.ends_done_iff

theorem ends_settled_bind_iff {settled : Except Failure α} {next : α → Attempt β}
    {outcome : Except Failure β} :
    (Attempt.settled settled >>= next).run.Ends exchanges outcome ↔
      (∃ failure, settled = .error failure ∧ exchanges = [] ∧ outcome = .error failure) ∨
        ∃ value, settled = .ok value ∧ (next value).run.Ends exchanges outcome := by
  simp only [ends_bind_iff, ends_settled_iff]
  constructor
  · rintro (⟨failure, ⟨rfl, rfl⟩, rfl⟩ | ⟨_, second, value, ⟨rfl, rfl⟩, ends, rfl⟩)
    · exact Or.inl ⟨failure, rfl, rfl, rfl⟩
    · exact Or.inr ⟨value, rfl, ends⟩
  · rintro (⟨failure, rfl, rfl, rfl⟩ | ⟨value, rfl, ends⟩)
    · exact Or.inl ⟨failure, ⟨rfl, rfl⟩, rfl⟩
    · exact Or.inr ⟨[], exchanges, value, ⟨rfl, rfl⟩, ends, rfl⟩

theorem request_run (request : Request) (isReply : request.Answer = Reply α)
    (onFault : Host.Fault → Refusal) : (Attempt.request request isReply onFault).run =
      .ask request fun given => .done ((isReply ▸ given : Reply α).outcome onFault) := by
  apply congrArg (Procedure.ask _)
  funext given
  change (match (isReply ▸ given : Reply α) with
    | .done answer => pure answer
    | .failed fault => refuse (onFault fault)
    | .broke accident => throw (.broken accident) : Attempt α).run = _
  cases (isReply ▸ given : Reply α) <;> rfl

theorem ends_request_iff {request : Request} {isReply : request.Answer = Reply α}
    {onFault : Host.Fault → Refusal} {outcome : Except Failure α} :
    (Attempt.request request isReply onFault).run.Ends exchanges outcome ↔
      ∃ given, exchanges = [⟨request, given⟩] ∧
        outcome = (isReply ▸ given : Reply α).outcome onFault := by
  rw [request_run]
  simp only [Procedure.ends_ask_iff, Procedure.ends_done_iff]
  constructor
  · rintro ⟨given, later, rfl, rfl, rfl⟩
    exact ⟨given, rfl, rfl⟩
  · rintro ⟨given, rfl, rfl⟩
    exact ⟨given, [], rfl, rfl, rfl⟩

/-- A request and what follows its answer. -/
theorem ends_request_bind_iff {request : Request} {isReply : request.Answer = Reply α}
    {onFault : Host.Fault → Refusal} {next : α → Attempt β} {outcome : Except Failure β} :
    (Attempt.request request isReply onFault >>= next).run.Ends exchanges outcome ↔
      ∃ given later, exchanges = ⟨request, given⟩ :: later ∧
        ((∃ failure, (isReply ▸ given : Reply α).outcome onFault = .error failure ∧ later = [] ∧
            outcome = .error failure) ∨
          ∃ value, (isReply ▸ given : Reply α).outcome onFault = .ok value ∧
            (next value).run.Ends later outcome) := by
  simp only [ends_bind_iff, ends_request_iff]
  constructor
  · rintro (⟨failure, ⟨given, rfl, failed⟩, rfl⟩ | ⟨_, later, value, ⟨given, rfl, done⟩, ends, rfl⟩)
    · exact ⟨given, [], rfl, Or.inl ⟨failure, failed.symm, rfl, rfl⟩⟩
    · exact ⟨given, later, rfl, Or.inr ⟨value, done.symm, ends⟩⟩
  · rintro ⟨given, later, rfl, ⟨failure, failed, rfl, rfl⟩ | ⟨value, done, ends⟩⟩
    · exact Or.inl ⟨failure, ⟨given, rfl, failed.symm⟩, rfl⟩
    · exact Or.inr ⟨_, later, value, ⟨given, rfl, done.symm⟩, ends, rfl⟩

theorem ends_ending_iff {last : Procedure Unit} {outcome : Except Failure α} :
    (attempt.ending last).run.Ends exchanges outcome ↔
      ∃ first second, attempt.run.Ends first outcome ∧ last.Ends second () ∧
        exchanges = first ++ second := by
  change (attempt.run.bind fun outcome => last.bind fun _ => .done outcome).Ends exchanges outcome ↔ _
  simp only [Procedure.ends_bind_iff, Procedure.ends_done_iff]
  constructor
  · rintro ⟨first, second, value, ends, ⟨last, none, _, later, ⟨rfl, rfl⟩, rfl⟩, rfl⟩
    exact ⟨first, last, ends, later, by rw [List.append_nil]⟩
  · rintro ⟨first, second, ends, later, rfl⟩
    refine ⟨first, second, outcome, ends, ?_, rfl⟩
    exact ⟨second, [], (), later, ⟨rfl, rfl⟩, (List.append_nil second).symm⟩

end Attempt

end Compiler

end ContractInspector
