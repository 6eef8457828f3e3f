import ContractInspector.Machine.Shell.State

/-! Steady commands: they write, and change nothing but the status. In a loop of them every round
that starts and ends with one status does the same as the next one, so that what an endless loop
comes to is known after such a round. -/
namespace ContractInspector.Machine.Shell

/-- The commands of the shell that write, and change nothing but the status. -/
def steadyNames : List String :=
  [":", "true", "false", "echo", "printf"]

def Word.isSteady (word : Word) : Bool :=
  word.all fun part =>
    match part.piece with
    | .text _ | .variable _ => true
    | _ => false

def Redirect.isSteady (redirect : Redirect) : Bool :=
  redirect.direction = .duplicate && Word.isSteady redirect.target

/-- A command is steady if nothing else than the commands with some names is run by it. -/
def Command.isSteady (names : List String) : Command → Bool
  | nothing => true
  | located _ body => body.isSteady names
  | simple _ assignments words redirects =>
    assignments.isEmpty && words.all Word.isSteady && redirects.all Redirect.isSteady &&
      ((words.head?.bind Word.plain?).any names.contains)
  | sequence first second => first.isSteady names && second.isSteady names
  | both first second => first.isSteady names && second.isSteady names
  | either first second => first.isSteady names && second.isSteady names
  | negated body => body.isSteady names
  | choice condition yes no =>
    condition.isSteady names && yes.isSteady names && no.isSteady names
  | _ => false

namespace Sink

/-- How often what was written since `before` has to be written again until the channel is full. It
is never full if that is nothing, or if it has no limit. -/
def roundsLeft? (sink before : Sink) : Option Nat :=
  let growth := sink.plain - before.plain
  if growth = 0 then none
  else sink.limit.map fun limit => (limit - sink.plain + growth - 1) / growth

/-- Write what was written since `before` some more times. -/
def again (sink before : Sink) (count : Nat) : Sink :=
  let pieces := sink.pieces.take (sink.pieces.length - before.pieces.length)
  let round := pieces.foldl (fun behind piece => piece.2 ++ behind) ByteArray.empty
  if round.isEmpty then sink
  else
    let all := count.fold (fun _ _ text => text ++ round) ByteArray.empty
    { sink with
      pieces := (sink.latest, all) :: sink.pieces
      plain := sink.plain + count * (sink.plain - before.plain) }

end Sink

namespace Configuration

/-- No file is written by what is written to a descriptor. -/
def writesNoFile (state : Configuration) : Bool :=
  state.process.streams.all fun stream =>
    match stream.2 with
    | .file _ => false
    | _ => true

def isSteadyLoop (state : Configuration) (condition body : Command) : Bool :=
  let names := steadyNames.filter fun name => (state.process.functions.lookup name).isNone
  condition.isSteady names && body.isSteady names && state.writesNoFile

/-- What comes of a round that is repeated for ever; `before` holds the channels as they were before
it. The first channel that gets full stops everything; if there is none, the time runs out. -/
def repeatForever (state : Configuration) (before : Array Sink) : Configuration :=
  let world := state.world
  let counts := (List.range world.sinks.size).filterMap fun index =>
    (world.sinks[index]?.bind fun sink => sink.roundsLeft? (before[index]?.getD {})).map (·, index)
  match counts with
  | [] => { state with world := { world with stop := some .late } }
  | first :: others =>
    let (count, index) := others.foldl (fun least found =>
      if found.1 < least.1 then found else least) first
    let sinks := world.sinks.mapIdx fun place sink => sink.again (before[place]?.getD {}) count
    { state with world := { world with sinks, stop := some (.full index) } }

end Configuration

end ContractInspector.Machine.Shell
