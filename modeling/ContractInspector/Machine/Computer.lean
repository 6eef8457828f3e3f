import ContractInspector.Compiler.Candidates
import ContractInspector.Compiler.Output
import ContractInspector.Compiler.Procedure
import ContractInspector.Host.Reply
import ContractInspector.Machine.Shell.Run

/-! A machine on which compilations run: its files, its programs and its processes. It answers what
a compilation asks of its host. -/
namespace ContractInspector.Machine

open Compiler (Finished Request Watched)
open Host (Cause Reply)
open Shell (ByteText)
open Text (Wide)

structure Computer where
  tree : FileTree
  /-- The variables that every program gets. -/
  environment : List (String × String) := []
  /-- Where staging directories are made. -/
  temporary : String
  /-- The program that was started, with its working directory. -/
  started : Option (Image × Names) := none
  /-- How many staging directories have been made. -/
  stagings : Nat := 0

namespace Computer

def fuel : Nat := 600000

def shells : List String := ["sh", "dash", "bash"]

/-- The files of a machine that has nothing but its programs. -/
def freshTree : FileTree :=
  let directories : List Names :=
    [["usr"], ["usr", "bin"], ["usr", "sbin"], ["usr", "lib"], ["usr", "lib64"], ["usr", "local"],
      ["usr", "share"], ["etc"], ["var"], ["var", "tmp"], ["tmp"], ["root"], ["home"], ["dev"],
      ["opt"], ["mnt"], ["srv"], ["proc"], ["sys"], ["run"], ["media"], ["boot"]]
  let links : List (Names × String) :=
    [(["bin"], "usr/bin"), (["sbin"], "usr/sbin"), (["lib"], "usr/lib"),
      (["lib64"], "usr/lib64"), (["var", "run"], "/run")]
  let programs := Program.all.map (·.1) ++ ["env"]
  ⟨directories.map (fun names => (names, .directory FileTree.directoryMode)) ++
    links.map (fun (names, target) => (names, .link target)) ++
    programs.map (fun name => (["usr", "bin", name], .program name)) ++
    shells.map (fun name => (["usr", "bin", name], .program "sh")) ++
    [(["dev", "null"], .sink)]⟩

def value? (computer : Computer) (name : String) : Option String :=
  computer.environment.lookup name

def read (computer : Computer) (path : Wide) : Reply (List UInt8) :=
  match handed path with
  | .error accident => .broke accident
  | .ok name =>
    match computer.tree.read [] name with
    | .error cause => .failed (cause.fault path)
    | .ok content => .done content

/-- The files as the guard sees them. -/
def files (computer : Computer) : Host.FileView where
  realPath := computer.tree.realPath []
  read := computer.read

/-- The search path as the search for compilers sees it. -/
def search (computer : Computer) : Compiler.SearchPath where
  style := .unix
  path := (computer.value? "PATH").getD ""
  extensions := computer.value? "PATHEXT"
  isExecutable path := computer.tree.isExecutable [] path

/-- The paths at which a program may be that is to be started. -/
def startPaths (computer : Computer) (program : String) : List String :=
  if program.contains '/' then [program]
  else
    let directories := Text.splitAt ':' ((computer.value? "PATH").getD "/bin:/usr/bin").toList
    directories.map fun directory => Host.Unix.join (String.ofList directory) program

/-- The image of a program, at the first of its paths at which there is one. If there is none, the
first cause is told that is not the absence of a file. -/
def imageOf (computer : Computer) (directory : Names) (program : String) (arguments : List String) :
    Except Cause Image :=
  let name := ByteText.ofString program
  let arguments := arguments.map ByteText.ofString
  let imageAt := Image.ofPath computer.tree directory Image.maxInterpreters name
  let outcomes := (computer.startPaths program).map fun path =>
    imageAt (ByteText.ofString path) arguments
  let isAbsence (cause : Cause) : Bool := cause = .noEntry || cause = .notDirectory
  match outcomes.findSome? Except.toOption with
  | some image => .ok image
  | none =>
    let causes := outcomes.filterMap fun outcome =>
      match outcome with
      | .error cause => some cause
      | .ok _ => none
    .error ((causes.find? fun cause => !isAbsence cause).getD (causes.getLast?.getD .noEntry))

structure Ended where
  status : Option Int
  world : Shell.World

namespace Ended

/-- Until when a channel has been kept open, by the program or from the background. There is no end
if something in the background never ends. -/
def openUntil (ended : Ended) (index : Nat) : Option Nat :=
  let finishes := (ended.world.held.filter (·.1 = index)).map (·.2)
  finishes.foldl (fun time finish => return max (← time) (← finish)) (some ended.world.clock)

def written (ended : Ended) (index : Nat) : List UInt8 :=
  (ended.world.sinks[index]?.map Shell.Sink.bytes).getD []

/-- What has been read from a channel when the patience with it ends at a time, and the time at
which the reading was over. A channel that is open still has given away whole pieces only. -/
def readUntil (ended : Ended) (index limit : Nat) : List UInt8 × Nat :=
  match (ended.openUntil index).filter (· ≤ limit) with
  | some time => (ended.written index, time)
  | none =>
    let sink := ended.world.sinks[index]?.getD {}
    let pieces := sink.pieces.filter (·.1 ≤ limit)
    let early := Shell.Sink.bytes { sink with pieces }
    (early.take (early.length / Compiler.pieceLength * Compiler.pieceLength), limit)

end Ended

/-- Run a program for some thousandths of a second at most, and until one of its outputs is full. A program that is
stopped because an output is full is killed. -/
def runImage (computer : Computer) (image : Image) (directory : Names) (time : Int)
    (limit : Option Nat) : Ended × Computer :=
  if time ≤ 0 then (⟨none, { tree := computer.tree }⟩, computer)
  else
    let sinks : Array Shell.Sink := #[{ limit }, { limit }]
    let bindings := computer.environment.map fun (name, value) => (name, ByteText.ofString value)
    let state : Shell.Configuration :=
      { process :=
          { name := image.name, arguments := image.arguments, bindings
            exported := bindings.map (·.1), directory
            streams := [(0, .nowhere), (1, .sink 0), (2, .sink 1)] }
        world :=
          { tree := computer.tree, sinks, deadline := some time.toNat } }
    let (flow, state) := Shell.launch fuel image.program state
    let status : Option Int :=
      match flow, state.world.stop with
      | .killed signal, _ => some (-(signal : Int))
      | .stopped, some (.full _) => some (-9)
      | .stopped, some (.killed signal) => some (-(signal : Int))
      | .stopped, _ => none
      | _, _ => some (state.process.status % 256 : Nat)
    (⟨status, state.world⟩, { computer with tree := state.world.tree })

/-- How many thousandths of a second a program has to answer when it is asked for its version. -/
def probeTime : Nat := 10000

/-- Ask a program for its version. Its answer is complete when nothing keeps its channels open. -/
def probe (computer : Computer) (path : String) : Reply Finished × Computer :=
  if path.contains '\x00' then (.broke .nullInPath, computer)
  else
    match computer.imageOf [] path ["compile", "--version"] with
    | .error cause => (.failed (cause.fault path), computer)
    | .ok image =>
      let (ended, computer) := computer.runImage image [] probeTime none
      let isInTime (index : Nat) : Bool :=
        (ended.openUntil index).any (· < probeTime)
      match ended.status.filter fun _ => isInTime 0 && isInTime 1 with
      | some status => (.done ⟨status, ended.written 0, ended.written 1⟩, computer)
      | none => (.failed ⟨none, "timed out", none⟩, computer)

def change (computer : Computer) (path : Wide)
    (changed : (tree : FileTree) → (path : String) → Except Cause FileTree) :
    Reply Unit × Computer :=
  match handed path with
  | .error accident => (.broke accident, computer)
  | .ok name =>
    match changed computer.tree name with
    | .ok tree => (.done (), { computer with tree })
    | .error cause => (.failed (cause.fault path), computer)

def makeStaging (computer : Computer) : Reply String × Computer :=
  let name := "compact-validate-1700000000000-staging" ++ toString computer.stagings
  let path := Host.Unix.join computer.temporary name
  match computer.change path (·.makeDirectory []) with
  | (.done (), computer) => (.done path, { computer with stagings := computer.stagings + 1 })
  | (.failed fault, computer) => (.failed fault, computer)
  | (.broke accident, computer) => (.broke accident, computer)

def start (computer : Computer) (compiler : String) (target output directory : Wide) :
    Reply Unit × Computer :=
  let paths : Except Accident (String × String × String) := do
    return (← handed target, ← handed output, ← handed directory)
  match paths with
  | .error accident => (.broke accident, computer)
  | .ok (source, files, place) =>
    match computer.tree.find [] place with
    | .error cause => (.failed (cause.fault directory), computer)
    | .ok (names, .directory _) =>
      match computer.imageOf names compiler ["compile", source, files] with
      | .error cause => (.failed (cause.fault compiler), computer)
      | .ok image => (.done (), { computer with started := some (image, names) })
    | .ok _ => (.failed (Cause.notDirectory.fault directory), computer)

/-- How many characters an output must have so that, read in pieces, it is over a limit for sure
before it ends. -/
def overfull (limit : Nat) : Nat :=
  Compiler.pieceLength * (limit / Compiler.pieceLength + 1)

/-- For how many thousandths of a second a channel is waited for when the program has ended. -/
def patience : Nat := 5000

def watch (computer : Computer) (time : Number.Seconds) (limit : Nat) : Reply Watched × Computer :=
  match computer.started with
  | none => (.done ⟨none, [], []⟩, computer)
  | some (image, directory) =>
    let (ended, computer) :=
      computer.runImage image directory time.milliseconds (some (overfull limit))
    -- The errors are waited for when the output is done.
    let (output, read) := ended.readUntil 0 (ended.world.clock + patience)
    let (errors, _) := ended.readUntil 1 (read + patience)
    (.done ⟨ended.status, output, errors⟩, computer)

def remove (computer : Computer) (path : String) : Computer :=
  match computer.tree.place [] path false with
  | .ok ⟨names, _⟩ => { computer with tree := computer.tree.remove names }
  | .error _ => computer

def answer : (request : Request) → Computer → request.Answer × Computer
  | .probe path, computer => computer.probe path
  | .makeStaging, computer => computer.makeStaging
  | .makeDirectory path, computer => computer.change path (·.makeDirectory [])
  | .writeFile path text, computer =>
    computer.change path fun tree name => tree.write [] name false (Text.Utf8.encode text)
  | .start compiler target output directory, computer =>
    computer.start compiler target output directory
  | .watch time limit, computer => computer.watch time limit
  | .kill, computer => ((), { computer with started := none })
  | .remove path, computer => ((), computer.remove path)

end Computer

end ContractInspector.Machine
