import ContractInspector.Refusal

/-! What a compilation asks of its host. A procedure is a tree: at each request it goes on as the
answer says. It can be run on any host that answers requests. -/
namespace ContractInspector.Compiler

open Host (Reply)
open Text (Wide)

/-- How a process ended, with what it wrote. A negative status is the signal that killed it. -/
structure Finished where
  status : Int
  output : List UInt8
  errors : List UInt8

/-- What was seen of a running process: whether it ended in time, and what it wrote until then. -/
structure Watched where
  status : Option Int
  output : List UInt8
  errors : List UInt8

inductive Request where
  /-- Ask the program at a path for its version. -/
  | probe (path : String)
  /-- Make a new staging directory. -/
  | makeStaging
  | makeDirectory (path : Wide)
  | writeFile (path : Wide) (text : List Char)
  /-- Start a compiler on a source, with its output directory and its working directory. -/
  | start (compiler : String) (target output directory : Wide)
  /-- Watch the process until it ends, for some time at most, or until one of its outputs is over so
  many characters. -/
  | watch (time : Number.Seconds) (limit : Nat)
  | kill
  /-- Remove a directory with all that it holds. -/
  | remove (path : String)
deriving DecidableEq

namespace Request

def Answer : Request → Type
  | probe _ => Reply Finished
  | makeStaging => Reply String
  | makeDirectory _ => Reply Unit
  | writeFile _ _ => Reply Unit
  | start _ _ _ _ => Reply Unit
  | watch _ _ => Reply Watched
  | kill => Unit
  | remove _ => Unit

end Request

inductive Procedure (α : Type) where
  | done (result : α)
  | ask (request : Request) (next : request.Answer → Procedure α)

namespace Procedure

def bind {α β : Type} : Procedure α → (α → Procedure β) → Procedure β
  | done result, next => next result
  | ask request others, next => ask request fun answer => (others answer).bind next

instance : Monad Procedure where
  pure := done
  bind := bind

/-- One request, with its answer as the result. -/
def request (request : Request) : Procedure request.Answer :=
  ask request done

/-- Run a procedure on a host, which answers each request and changes its state. -/
def run {α σ : Type} (answer : (request : Request) → σ → request.Answer × σ) :
    Procedure α → σ → α × σ
  | done result, state => (result, state)
  | ask request next, state =>
    let (given, state) := answer request state
    (next given).run answer state

end Procedure

/-- A procedure that may end in a failure. -/
abbrev Attempt (α : Type) := ExceptT Failure Procedure α

namespace Attempt

/-- An outcome that asks nothing of the host. -/
def settled {α : Type} (outcome : Except Failure α) : Attempt α :=
  ExceptT.mk (.done outcome)

def refuse {α : Type} (refusal : Refusal) : Attempt α :=
  throw (.refused refusal)

/-- Make a request; `onFault` is the refusal for a fault of the host. -/
def request {α : Type} (request : Request) (isReply : request.Answer = Reply α)
    (onFault : Host.Fault → Refusal) : Attempt α := do
  match isReply ▸ (← Procedure.request request) with
  | .done answer => return answer
  | .failed fault => refuse (onFault fault)
  | .broke accident => throw (.broken accident)

/-- Do `last` at the end, whether the procedure succeeds or fails. -/
def ending {α : Type} (attempt : Attempt α) (last : Procedure Unit) : Attempt α :=
  ExceptT.mk do
    let outcome ← attempt.run
    last
    return outcome

end Attempt

end ContractInspector.Compiler
