import ContractInspector.Machine.Shell.State

/-! Processes that begin and end: what a shell starts with, and what programs get from it. -/
namespace ContractInspector.Machine.Shell

structure Invocation where
  letters : List Char := []
  arguments : List ByteText := []

def Invocation.ofArguments : List ByteText → Invocation
  | ['-', '-'] :: others => { arguments := others }
  | ['-', 'o'] :: _ :: others => Invocation.ofArguments others
  | ('-' :: c :: letters) :: others =>
    let behind := Invocation.ofArguments others
    { behind with letters := c :: letters ++ behind.letters }
  | others => { arguments := others }

namespace Configuration

def firstBindings (parent : Nat) : Bindings :=
  [("IFS", [' ', '\t', '\n']), ("OPTIND", ['1']), ("PPID", (toString parent).toList),
    ("PS1", ['#', ' ']), ("PS2", ['>', ' ']), ("PS4", ['+', ' '])]

/-- The state of a shell that starts with the variables that it was given. The search path is its
oldest variable. The working directory goes by the name that it was given by, if that leads
there. -/
def prepared (state : Configuration) : Configuration :=
  let process := state.process
  let (paths, others) := process.bindings.partition (·.1 == "PATH")
  let bindings := (firstBindings (process.ancestors.headD origin)).foldl
    (fun bindings (name, value) => Bindings.put name value bindings) (paths ++ others)
  let given := (process.bindings.lookup "PWD").map ByteText.toString
  let leadsHere (path : String) : Bool :=
    FileTree.isAbsolute path &&
      match state.world.tree.find [] path with
      | .ok (names, _) => names == process.directory
      | .error _ => false
  let shown := ((given.filter leadsHere).map FileTree.namesOf).getD process.directory
  let bindings := Bindings.put "PWD" (ByteText.ofString (FileTree.pathOf shown)) bindings
  { state with process := { process with bindings, shown } }.markExported "PWD"

/-- Take a process back, with the status that another process has ended with. -/
def restore (state : Configuration) (process : Process) : Configuration :=
  { state with process := { process with status := state.process.status % 256 } }

/-- The state of a shell of its own: signals do again what they usually do. -/
def separated (state : Configuration) : Configuration :=
  let process := state.process
  { state with
    process := { process with traps := process.traps.filter (·.2.isEmpty), jobs := [] } }

/-- The process of a program that a shell starts, with the variables that it gets. It may take the
place of the shell. -/
def child (state : Configuration) (inPlace : Bool) (name : ByteText) (arguments : List ByteText)
    (assigned : List String) : Configuration :=
  let process := state.process
  let spawned := state.world.spawned + 1
  let (number, ancestors) :=
    if inPlace then (process.number, process.ancestors)
    else (firstProcess + spawned, process.number :: process.ancestors)
  let isKept (entry : String × ByteText) : Bool :=
    process.exported.contains entry.1 || assigned.contains entry.1
  let bindings := Bindings.inEnvironment (process.bindings.filter isKept)
  { state with
    world := { state.world with spawned }
    process :=
      { name, number, ancestors, arguments, bindings, exported := bindings.map (·.1)
        directory := process.directory, streams := process.streams, mask := process.mask
        traps := process.traps.filter (·.2.isEmpty) } }

/-- The state of a command that is started in the background: nothing can be read there, and no end
is set to it. -/
def inBackground (state : Configuration) : Configuration :=
  let state := state.separated.connect 0 .nowhere
  { state with world := { state.world with deadline := none }.wait 1 }

/-- Go on in front of a command that has been run in the background, with its outcome noted. `held`
are the channels that it kept open. -/
def noted (after : Configuration) (before : Configuration) (held : List Nat) :
    Configuration :=
  let finish := if after.world.stop = some .late then none else some after.world.clock
  let stop := if after.world.stop = some .late then none else after.world.stop
  let number := firstProcess + after.world.spawned + 1
  let job : Job := ⟨number, after.process.status, finish⟩
  { process := { before.process with status := 0, jobs := job :: before.process.jobs }
    world :=
      { after.world with
        clock := before.world.clock
        deadline := before.world.deadline
        stop
        spawned := after.world.spawned + 1
        held := held.map (·, finish) ++ after.world.held } }

def openSinks (state : Configuration) : List Nat :=
  state.process.streams.filterMap fun entry =>
    match entry.2 with
    | .sink index => some index
    | _ => none

end Configuration

end ContractInspector.Machine.Shell
