import ContractInspector.Machine.FileTree
import ContractInspector.Machine.Shell.Bindings

/-! The state of a running shell: the process with its variables and its connections, and the world
outside it, with the files, the channels that are written and read, and the time. -/
namespace ContractInspector.Machine.Shell

inductive Stream where
  | sink (index : Nat)
  | source (index : Nat)
  | file (names : Names)
  | nowhere
deriving DecidableEq

/-- What was written into a channel, last piece first, each with its time. `plain` counts the bytes
that are characters by themselves; a channel with a limit is full when they reach it. -/
structure Sink where
  pieces : List (Nat × ByteArray) := []
  plain : Nat := 0
  limit : Option Nat := none

namespace Sink

/-- A byte that is a character of its own, whatever is before and behind it. -/
def isPlain (c : Char) : Bool :=
  c.toNat < 128 && c != '\r'

def write (sink : Sink) (time : Nat) (text : ByteText) : Sink :=
  { sink with
    pieces := (time, ⟨(ByteText.toBytes text).toArray⟩) :: sink.pieces
    plain := sink.plain + text.countP isPlain }

def isFull (sink : Sink) : Bool :=
  sink.limit.any (· ≤ sink.plain)

/-- The pieces, the latest first. Of those with one time, the one that was added last comes
first. -/
def inOrder (sink : Sink) : List (Nat × ByteArray) :=
  let times := sink.pieces.map (·.1)
  if (times.zip (times.drop 1)).all fun (later, earlier) => earlier ≤ later then sink.pieces
  else sink.pieces.mergeSort fun first second => second.1 ≤ first.1

def latest (sink : Sink) : Nat :=
  sink.pieces.foldl (fun time piece => max time piece.1) 0

def bytes (sink : Sink) : List UInt8 :=
  sink.inOrder.foldl (fun behind piece => piece.2.data.toList ++ behind) []

end Sink

/-- What is left to read in a channel, and whether it comes from a file. -/
structure Source where
  text : ByteText
  isFile : Bool := false

inductive Stop where
  | full (sink : Nat)
  | late
  | killed (signal : Nat)
deriving DecidableEq

/-- A command in the background: its process, its status, and the time of its end if it ends. -/
structure Job where
  number : Nat
  status : Nat
  finish : Option Nat

structure World where
  tree : FileTree
  sinks : Array Sink := #[]
  sources : Array Source := #[]
  /-- Thousandths of a second since the start. -/
  clock : Nat := 0
  deadline : Option Nat := none
  stop : Option Stop := none
  spawned : Nat := 0
  /-- The signals that have been sent to processes and have not arrived yet. -/
  sent : List (Nat × Nat) := []
  /-- The channels that were kept open from the background, and until when. -/
  held : List (Nat × Option Nat) := []

/-- The number of the first process, and of the one that has started it. -/
def firstProcess : Nat := 4242

def origin : Nat := 4241

structure Process where
  name : ByteText
  number : Nat := firstProcess
  /-- The processes that have started this one, directly or not, the nearest first. -/
  ancestors : List Nat := [origin]
  arguments : List ByteText := []
  bindings : Bindings := []
  exported : List String := []
  constants : List String := []
  functions : List (String × Command) := []
  shorthands : Bindings := []
  tracked : Bindings := []
  directory : Names
  /-- The names by which the working directory was reached. -/
  shown : Names := directory
  streams : List (Nat × Stream)
  status : Nat := 0
  line : Nat := 1
  speaker : ByteText := []
  options : List Char := []
  /-- The status of the command is looked at, so that it does not end a strict shell. -/
  checked : Bool := false
  loops : Nat := 0
  depth : Nat := 0
  /-- The variables that are local to the function, with their values outside it. -/
  locals : List (String × Option ByteText) := []
  outerOptions : Option (List Char) := none
  /-- The scripts to run when a signal arrives, or at the end, which has the number zero. -/
  traps : List (Nat × ByteText) := []
  jobs : List Job := []
  /-- How far the search for options has come in an argument, and in which one. -/
  optionPlace : Option (Nat × Nat) := none
  mask : Nat := 0o022

structure Configuration where
  process : Process
  world : World

inductive Flow where
  | next
  | finished
  | killed (signal : Nat)
  | leave (loops : Nat)
  /-- Start the next round of the loop that is so many loops out. -/
  | again (loops : Nat)
  | back
  | stopped
deriving DecidableEq

namespace World

def writeSink (world : World) (index : Nat) (text : ByteText) : World :=
  let world := { world with sinks := world.sinks.modify index (·.write world.clock text) }
  if (world.sinks[index]?.map Sink.isFull).getD false then
    { world with stop := some (.full index) }
  else world

def writeFile (world : World) (names : Names) (text : ByteText) : World :=
  match world.tree.node? names with
  | some (.file content mode) =>
    { world with tree := world.tree.put names (.file (content ++ ByteText.toBytes text) mode) }
  | _ => world

def wait (world : World) (milliseconds : Nat) : World :=
  let clock := world.clock + milliseconds
  if world.deadline.any (· ≤ clock) then { world with clock, stop := some .late }
  else { world with clock }

end World

namespace Configuration

def setStatus (state : Configuration) (status : Nat) : Configuration :=
  { state with process := { state.process with status } }

/-- Write to a descriptor. The answer tells whether it is open for that. -/
def writeTo (state : Configuration) (descriptor : Nat) (text : ByteText) : Bool × Configuration :=
  match state.process.streams.lookup descriptor with
  | some (.sink index) =>
    (true, { state with world := state.world.writeSink index text })
  | some (.file names) =>
    (true, { state with world := state.world.writeFile names text })
  | some .nowhere => (true, state)
  | _ => (false, state)

def write (state : Configuration) (descriptor : Nat) (text : ByteText) : Configuration :=
  (state.writeTo descriptor text).2

/-- Report what is wrong, behind the name of the script, the line, and the command of the shell that
is being carried out. -/
def complain (state : Configuration) (message : String) : Configuration :=
  let process := state.process
  let place := ByteText.ofString (": " ++ toString process.line ++ ": ")
  let speaker := if process.speaker.isEmpty then [] else process.speaker ++ [':', ' ']
  state.write 2 (process.name ++ place ++ speaker ++ ByteText.ofString message ++ ['\n'])

def fail (state : Configuration) (status : Nat) (message : String) : Configuration :=
  (state.complain message).setStatus status

def pending (state : Configuration) (descriptor : Nat) : Source :=
  match state.process.streams.lookup descriptor with
  | some (.source index) => state.world.sources[index]?.getD ⟨[], false⟩
  | _ => ⟨[], false⟩

def leavePending (state : Configuration) (descriptor : Nat) (text : ByteText) : Configuration :=
  match state.process.streams.lookup descriptor with
  | some (.source index) =>
    { state with
      world :=
        { state.world with
          sources := state.world.sources.modify index fun source => { source with text } } }
  | _ => state

def value? (state : Configuration) (name : String) : Option ByteText :=
  state.process.bindings.lookup name

def hasOption (state : Configuration) (letter : Char) : Bool :=
  state.process.options.contains letter

def markExported (state : Configuration) (name : String) : Configuration :=
  let process := state.process
  if process.exported.contains name then state
  else { state with process := { process with exported := name :: process.exported } }

def assign (state : Configuration) (name : String) (value : ByteText) : Configuration :=
  let state := { state with
    process := { state.process with bindings := state.process.bindings.put name value } }
  if state.hasOption 'a' then state.markExported name else state

/-- Give a variable a value, unless it has a fixed one or is none. -/
def store (state : Configuration) (name : String) (value : ByteText) :
    Except String Configuration :=
  if !isName name.toList then .error (name ++ ": bad variable name")
  else if state.process.constants.contains name then .error (name ++ ": is read only")
  else .ok (state.assign name value)

def unset (state : Configuration) (name : String) : Configuration :=
  let process := state.process
  { state with
    process :=
      { process with
        bindings := process.bindings.remove name
        exported := process.exported.filter (· != name) } }

def track (state : Configuration) (name : String) (path : ByteText) : Configuration :=
  { state with
    process := { state.process with tracked := state.process.tracked.put name path } }

def connect (state : Configuration) (descriptor : Nat) (stream : Stream) : Configuration :=
  let others := state.process.streams.filter (·.1 != descriptor)
  { state with process := { state.process with streams := (descriptor, stream) :: others } }

def newSink (state : Configuration) (limit : Option Nat) : Nat × Configuration :=
  (state.world.sinks.size,
    { state with world := { state.world with sinks := state.world.sinks.push { limit } } })

/-- Take the newest channel away, with what was written into it, after all of it was written. -/
def takeSink (state : Configuration) : ByteText × Configuration :=
  match state.world.sinks.back? with
  | none => ([], state)
  | some sink =>
    let clock := max state.world.clock sink.latest
    (ByteText.ofBytes sink.bytes,
      { state with world := { state.world with sinks := state.world.sinks.pop, clock } })

def newSource (state : Configuration) (source : Source) : Nat × Configuration :=
  (state.world.sources.size,
    { state with
      world := { state.world with sources := state.world.sources.push source } })

/-- The next signal that has been sent to the process. -/
def received? (state : Configuration) : Option (Nat × Configuration) :=
  (state.world.sent.find? (·.1 = state.process.number)).map fun message =>
    let sent := state.world.sent.erase message
    (message.2, { state with world := { state.world with sent } })

def isStopped (state : Configuration) : Bool :=
  state.world.stop.isSome

end Configuration

end ContractInspector.Machine.Shell
