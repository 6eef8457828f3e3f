import ContractInspector.Machine.Executable
import ContractInspector.Machine.Shell.Builtin.Processes
import ContractInspector.Machine.Shell.Builtin.Variables
import ContractInspector.Machine.Shell.Condition
import ContractInspector.Machine.Shell.Format

/-! The commands that the shell does by itself. -/
namespace ContractInspector.Machine.Shell.Builtin

def echo : Action := fun arguments state =>
  put (Format.echo arguments) state

def print : Action := fun arguments state =>
  withOptions [] arguments state fun _ arguments state =>
    match arguments with
    | [] => reject "usage: printf format [arg ...]" state
    | format :: others =>
      let (text, mistakes, isWrong) := Format.print format others
      let (flow, state) := put text state
      if mistakes.isEmpty then (flow, state)
      else (flow, (mistakes.foldl .complain state).setStatus (if isWrong then 2 else 1))

/-- End something with a status. -/
def leave (flow : Flow) : Action := fun arguments state =>
  withNumber state.process.status arguments state fun status state =>
    (flow, state.setStatus status)

/-- Leave loops, or go on with the next round of one. -/
def jump (flow : Nat → Flow) : Action := fun arguments state =>
  withNumber 1 arguments state fun wanted state =>
    if wanted = 0 then illegalNumber ['0'] state
    else
      let loops := min wanted state.process.loops
      (if loops = 0 then .next else flow loops, state.setStatus 0)

def judge (words : List ByteText) (state : Configuration) : Flow × Configuration :=
  match Condition.evaluate ⟨state.world.tree, state.process.directory⟩ words with
  | .ok holds => giveStatus (if holds then 0 else 1) state
  | .error message => reject message state

/-- A condition between brackets. -/
def bracket : Action := fun words state =>
  if words.getLast? = some [']'] then judge words.dropLast state else reject "missing ]" state

/-- The commands of the shell that are not about other commands. -/
def plain : List (String × Action) :=
  [(":", fun _ state => succeed state), ("true", fun _ state => succeed state),
    ("false", fun _ state => giveStatus 1 state), ("echo", echo), ("printf", print),
    ("exit", leave .finished), ("return", leave .back), ("break", jump .leave),
    ("continue", jump .again), ("cd", changeDirectory), ("chdir", changeDirectory),
    ("pwd", printDirectory), ("kill", kill), ("read", read), ("test", judge), ("[", bracket),
    ("shift", shift), ("set", set), ("export", exportNames), ("readonly", fixNames),
    ("local", declareLocal), ("unset", unset), ("getopts", getOptions), ("alias", shorten),
    ("unalias", unshorten), ("wait", wait), ("jobs", jobs), ("fg", resume), ("bg", resume),
    ("umask", umask), ("ulimit", ulimit), ("times", times), ("trap", trap)]

/-- The commands of the shell that are about other commands. -/
def others : List String :=
  [".", "command", "eval", "exec", "hash", "type"]

/-- The shell does a command by itself. -/
def isOwn (name : ByteText) : Bool :=
  others.any (·.toList == name) || plain.any (·.1.toList == name)

/-- What a name stands for as a command. -/
inductive Meaning where
  | keyword
  | shorthand (text : ByteText)
  | function
  | own
  | program (path : ByteText) (isTracked : Bool)
  | unknown

def meaning (state : Configuration) (name : ByteText) : Meaning :=
  let text := String.ofList name
  if text = "in" || Script.reserved.contains text then .keyword
  else
    match state.process.shorthands.lookup text with
    | some text => .shorthand text
    | none =>
      if isSpecial name then .own
      else if (state.process.functions.lookup text).isSome then .function
      else if isOwn name then .own
      else
        let tree := state.world.tree
        let directory := state.process.directory
        let search := (state.value? "PATH").getD []
        match Image.locate? tree directory search name with
        | none => .unknown
        | some path =>
          let isThere := (tree.find directory (ByteText.toString path)).isOk
          let isTracked := (state.process.tracked.lookup text).isSome
          if isThere then .program path isTracked else .unknown

/-- Tell what names stand for. -/
def describe : Action := fun names state =>
  names.foldl (fun (flow, state) name =>
    let tell (text : ByteText) : Configuration := (put (name ++ text ++ ['\n']) state).2
    let known (text : ByteText) : Flow × Configuration :=
      (flow, (tell text).setStatus state.process.status)
    match meaning state name with
    | .keyword => known " is a shell keyword".toList
    | .shorthand text => known (" is an alias for ".toList ++ text)
    | .function => known " is a shell function".toList
    | .own =>
      known (if isSpecial name then " is a special shell builtin" else " is a shell builtin").toList
    | .program path isTracked =>
      known ((if isTracked then " is a tracked alias for " else " is ").toList ++ path)
    | .unknown => (flow, (tell ": not found".toList).setStatus 127)) (succeed state)

/-- Tell by which name a command is called. -/
def locate (name : ByteText) (state : Configuration) : Flow × Configuration :=
  match meaning state name with
  | .unknown => giveStatus 127 state
  | .program path _ => put (path ++ ['\n']) state
  | .shorthand text => put ("alias ".toList ++ name ++ '=' :: ByteText.quoted text ++ ['\n']) state
  | _ => put (name ++ ['\n']) state

/-- Search for programs and remember their paths, or list or forget these paths. -/
def rehash : Action := fun arguments state =>
  withOptions ['r', 'v'] arguments state fun letters names state =>
    let process := state.process
    if letters.contains 'r' then succeed { state with process := { process with tracked := [] } }
    else if names.isEmpty then
      let tracked := process.tracked.mergeSort fun first second =>
        Bindings.bucketOf 31 first.1 ≤ Bindings.bucketOf 31 second.1
      put (tracked.flatMap fun entry => entry.2 ++ ['\n']) state
    else
      names.foldl (fun (flow, state) name =>
        let search := (state.value? "PATH").getD []
        if name.contains '/' || isOwn name then (flow, state)
        else
          match Image.locate? state.world.tree process.directory search name with
          | some path => (flow, state.track (String.ofList name) path)
          | none => (flow, state.fail 1 (ByteText.toString name ++ ": not found")))
        (succeed state)

/-- The commands that are done with their arguments alone. -/
def all : List (String × Action) :=
  plain ++ [("hash", rehash), ("type", describe)]

end ContractInspector.Machine.Shell.Builtin
