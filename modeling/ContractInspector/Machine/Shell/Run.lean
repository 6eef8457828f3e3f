import ContractInspector.Machine.Program
import ContractInspector.Machine.Shell.Redirection
import ContractInspector.Machine.Shell.Startup
import ContractInspector.Machine.Shell.Steady

/-! Running commands. Every step takes fuel, so that a script that does not end is stopped. -/
namespace ContractInspector.Machine.Shell

open Host (Cause)

namespace Configuration

def exhaust (state : Configuration) : Flow × Configuration :=
  (.stopped, { state with world := { state.world with stop := some .late } })

def assignAll (run : Expansion.Runner) : List (String × Word) → Configuration → Bool × Configuration
  | [], state => (true, state)
  | (name, value) :: others, state =>
    match Expansion.single run value state with
    | (none, state) => (false, state)
    | (some text, state) =>
      match state.store name text with
      | .ok state => assignAll run others state
      | .error message => (false, state.fail 2 message)

/-- Give variables the values that they have in a process. -/
def resetVariables (state : Configuration) (names : List String) (process : Process) :
    Configuration :=
  names.foldl (fun state name =>
    match process.bindings.lookup name with
    | some value => state.assign name value
    | none => state.unset name) state

/-- A strict shell ends after a command that fails. -/
def settle (state : Configuration) : Flow × Configuration :=
  let process := state.process
  if process.status != 0 && !process.checked && state.hasOption 'e' then (.finished, state)
  else (.next, state)

def enterLoop (state : Configuration) : Configuration :=
  { state with process := { state.process with loops := state.process.loops + 1 } }

/-- The state of a shell that has left a loop, with the number of loops around it. -/
def leaveLoop (state : Configuration) (loops : Nat) : Configuration :=
  { state with process := { state.process with loops } }

def maxDepth : Nat := 1000

def enterFunction (state : Configuration) (arguments : List ByteText) : Configuration :=
  let process := state.process
  { state with
    process :=
      { process with
        arguments, locals := [], outerOptions := none, loops := 0, depth := process.depth + 1
        optionPlace := none } }

/-- Give the variables that are local to a function the values that they had before it. -/
def leaveFunction (state : Configuration) (process : Process) : Configuration :=
  let options := state.process.outerOptions.getD state.process.options
  let state := state.process.locals.reverse.foldl (fun state (name, value) =>
    match value with
    | some value => state.assign name value
    | none => state.unset name) state
  let { arguments, locals, outerOptions, loops, depth, optionPlace, .. } := process
  { state with
    process :=
      { state.process with
        arguments, locals, outerOptions, loops, depth, optionPlace, options } }

def absorb (state : Configuration) (effect : Effect) : Configuration :=
  let state := { state with world := { state.world with tree := effect.tree } }
  let state := if effect.readsInput then state.leavePending 0 [] else state
  let state := { state with world := state.world.wait effect.milliseconds }
  let state := effect.writes.foldl (fun state (descriptor, text) =>
    state.write descriptor text) state
  state.setStatus effect.status

/-- Write a command that is about to be carried out to where errors went before its
redirections. -/
def trace (state : Configuration) (streams : List (Nat × Stream)) (assigned : List String)
    (fields : List ByteText) : Configuration :=
  if !state.hasOption 'x' then state
  else
    let values := assigned.map fun name =>
      ByteText.ofString name ++ '=' :: (state.value? name).getD []
    let line := (state.value? "PS4").getD [] ++ [' '].intercalate (values ++ fields) ++ ['\n']
    let inner := state.process.streams
    let state := { state with process := { state.process with streams } }.write 2 line
    { state with process := { state.process with streams := inner } }

def speakAs (state : Configuration) (speaker : ByteText) : Configuration :=
  { state with process := { state.process with speaker } }

end Configuration

/-- How much a program may write into a pipe before its reader has to read. -/
def pipeLimit : Nat := 4194304

/-- A part of some words comes from other commands. -/
def runCommands (words : List Word) : Bool :=
  words.any fun word => word.any fun part =>
    match part.piece with
    | .substitution _ _ => true
    | _ => false

/-- The search path that is used if there is none. -/
def usualPath : ByteText :=
  "/usr/local/sbin:/usr/local/bin:/usr/sbin:/usr/bin:/sbin:/bin".toList

/-- What a subshell ends with. It does not leave anything outside it. -/
def Flow.outside : Flow → Flow
  | .killed signal => .killed signal
  | .stopped => .stopped
  | _ => .next

mutual

def exec : (fuel : Nat) → Command → Configuration → Flow × Configuration
  | 0, _, state => state.exhaust
  | fuel + 1, command, state =>
    match command with
    | .nothing => (.next, state)
    | .located line body =>
      exec fuel body { state with process := { state.process with line } }
    | .simple line assignments words redirects =>
      simple fuel line assignments words redirects state
    | .sequence first second =>
      match exec fuel first state with
      | (.next, state) => exec fuel second state
      | ended => ended
    | .both first second =>
      match checked fuel first state with
      | (.next, state) =>
        if state.process.status = 0 then exec fuel second state else (.next, state)
      | ended => ended
    | .either first second =>
      match checked fuel first state with
      | (.next, state) =>
        if state.process.status = 0 then (.next, state) else exec fuel second state
      | ended => ended
    | .negated body =>
      match checked fuel body state with
      | (.next, state) =>
        (.next, state.setStatus (if state.process.status = 0 then 1 else 0))
      | ended => ended
    | .pipe first second => piped fuel first second state
    | .subshell body =>
      match apart fuel body state with
      | (.next, state) => state.settle
      | ended => ended
    | .background body =>
      let (flow, after) := apart fuel body state.inBackground
      -- A channel is kept open by the command as it is redirected, not by the shell around it.
      let held :=
        match body with
        | .simple _ _ _ redirects | .located _ (.redirected _ redirects) =>
          (state.redirectAll (capture fuel) redirects).2.openSinks
        | _ => state.openSinks
      match flow with
      | .killed signal =>
        (.next, (after.setStatus (128 + signal)).noted state held)
      | _ =>
        let state := after.noted state held
        (if state.isStopped then .stopped else .next, state)
    | .redirected body redirects =>
      let streams := state.process.streams
      let back (state : Configuration) : Configuration :=
        { state with process := { state.process with streams } }
      match state.redirectAll (capture fuel) redirects with
      | (.fatal, state) => (.finished, state)
      | (.failed, state) => ((back state).setStatus 2).settle
      | (.done, state) =>
        let (flow, state) := exec fuel body state
        (flow, back state)
    | .choice condition yes no =>
      match checked fuel condition state with
      | (.next, state) =>
        if state.process.status = 0 then exec fuel yes state
        else exec fuel no (state.setStatus 0)
      | ended => ended
    | .loop negative condition body =>
      let isSteady := state.isSteadyLoop condition body
      let (flow, after) := rounds fuel isSteady negative condition body 0 state.enterLoop
      (flow, after.leaveLoop state.process.loops)
    | .each name words body =>
      match Expansion.allFields (capture fuel) words state with
      | (none, state) => (.finished, state)
      | (some items, state) =>
        let (flow, after) := roundFor fuel name items body (state.setStatus 0).enterLoop
        (flow, after.leaveLoop state.process.loops)
    | .select word cases =>
      match Expansion.single (capture fuel) word state with
      | (none, state) => (.finished, state)
      | (some text, state) => selected fuel text cases (state.setStatus 0)
    | .define name body =>
      let functions := (name, body) :: state.process.functions
      (.next, { state with process := { state.process with functions } }.setStatus 0)
    | .faulty line message =>
      let state := { state with process := { state.process with line } }
      (.finished, state.fail 2 ("Syntax error: " ++ message))

/-- Run a command whose status is looked at. -/
def checked : (fuel : Nat) → Command → Configuration → Flow × Configuration
  | 0, _, state => state.exhaust
  | fuel + 1, command, state =>
    let before := state.process.checked
    let (flow, state) :=
      exec fuel command { state with process := { state.process with checked := true } }
    (flow, { state with process := { state.process with checked := before } })

def apart : (fuel : Nat) → Command → Configuration → Flow × Configuration
  | 0, _, state => state.exhaust
  | fuel + 1, command, state =>
    let process := state.process
    let (flow, state) := exec fuel command state.separated
    let (flow, state) := if flow.outside = .next then conclude fuel state else (flow, state)
    (flow.outside, state.restore process)

/-- Run what is to be run at the end of a shell. -/
def conclude : (fuel : Nat) → Configuration → Flow × Configuration
  | 0, state => state.exhaust
  | fuel + 1, state =>
    match state.process.traps.lookup 0 with
    | none => (.finished, state)
    | some last =>
      let status := state.process.status
      let process := { state.process with traps := state.process.traps.filter (·.1 ≠ 0) }
      match commands fuel (.ofText 1 last) { state with process } with
      | (.next, state) => (.finished, state.setStatus status)
      | ended => ended

/-- Run a script in a shell of its own and take what it writes. -/
def capture : (fuel : Nat) → (line : Nat) → ByteText → Configuration → ByteText × Configuration
  | 0, _, _, state => ([], state.exhaust.2)
  | fuel + 1, line, text, state =>
    let process := state.process
    let (index, state) := state.newSink none
    let unread := Unread.ofText line text
    let (flow, state) := script fuel unread (state.separated.connect 1 (.sink index))
    let (text, state) := state.takeSink
    let state :=
      match flow with
      | .killed signal =>
        { state with world := { state.world with stop := some (.killed signal) } }
      | _ => state
    (text, state.restore process)

def commands : (fuel : Nat) → Unread → Configuration → Flow × Configuration
  | 0, _, state => state.exhaust
  | fuel + 1, unread, state =>
    match unread.next? state.process.shorthands with
    | none => (.next, state)
    | some (command, unread) =>
      match exec fuel command state with
      | (.next, state) => commands fuel unread state
      | ended => ended

def piped : (fuel : Nat) → (first second : Command) → Configuration → Flow × Configuration
  | 0, _, _, state => state.exhaust
  | fuel + 1, first, second, state =>
    let process := state.process
    let (index, state) := state.newSink (some pipeLimit)
    let (flow, state) := apart fuel first (state.connect 1 (.sink index))
    let (text, state) := state.takeSink
    let (source, state) := state.newSource ⟨text, false⟩
    let state := state.restore process
    -- Nobody reads on, so the first command ends there, and the second one runs with what came.
    let isFull := state.world.stop = some (.full index)
    let state :=
      if isFull then { state with world := { state.world with stop := none } } else state
    if flow = .next || isFull then
      match apart fuel second (state.connect 0 (.source source)) with
      | (.next, state) => (state.restore process).settle
      | (flow, state) => (flow, state.restore process)
    else (flow, state)

/-- Repeat a body as long as a condition has the right outcome. `last` is the status of the last
round. If the loop is steady, a round that ends with the status that it started with is the same as
all that follow it. -/
def rounds : (fuel : Nat) → (isSteady negative : Bool) → (condition body : Command) →
    (last : Nat) → Configuration → Flow × Configuration
  | 0, _, _, _, _, _, state => state.exhaust
  | fuel + 1, isSteady, negative, condition, body, last, state =>
    let before := if isSteady then some (state.process.status, state.world.sinks) else none
    match checked fuel condition state with
    | (.next, state) =>
      if (state.process.status = 0) = negative then (.next, state.setStatus last)
      else
        match exec fuel body state with
        | (.next, state) =>
          match before.filter (·.1 = state.process.status) with
          | some (_, sinks) => (.stopped, state.repeatForever sinks)
          | none => rounds fuel isSteady negative condition body state.process.status state
        | (.again loops, state) =>
          if loops ≤ 1 then rounds fuel isSteady negative condition body 0 state
          else (.again (loops - 1), state)
        | (.leave loops, state) => (if loops ≤ 1 then .next else .leave (loops - 1), state)
        | ended => ended
    | ended => ended

def roundFor : (fuel : Nat) → (name : String) → (items : List ByteText) → (body : Command) →
    Configuration → Flow × Configuration
  | 0, _, _, _, state => state.exhaust
  | _ + 1, _, [], _, state => (.next, state)
  | fuel + 1, name, item :: items, body, state =>
    match state.store name item with
    | .error message => (.finished, state.fail 2 message)
    | .ok state =>
      match exec fuel body state with
      | (.next, state) => roundFor fuel name items body state
      | (.again loops, state) =>
        if loops ≤ 1 then roundFor fuel name items body state else (.again (loops - 1), state)
      | (.leave loops, state) => (if loops ≤ 1 then .next else .leave (loops - 1), state)
      | ended => ended

def selected : (fuel : Nat) → ByteText → List (List Word × Command) → Configuration →
    Flow × Configuration
  | 0, _, _, state => state.exhaust
  | _ + 1, _, [], state => (.next, state)
  | fuel + 1, text, ([], _) :: cases, state => selected fuel text cases state
  | fuel + 1, text, (word :: words, body) :: cases, state =>
    match Expansion.pattern (capture fuel) word state with
    | (none, state) => (.finished, state)
    | (some pattern, state) =>
      if Glob.fits pattern text then exec fuel body state
      else selected fuel text ((words, body) :: cases) state

/-- Run a simple command: expand its words, connect its descriptors, assign its variables, and do
what its first word names. -/
def simple : (fuel : Nat) → (line : Nat) → List (String × Word) → List Word → List Redirect →
    Configuration → Flow × Configuration
  | 0, _, _, _, _, state => state.exhaust
  | fuel + 1, line, assignments, words, redirects, state =>
    let state := { state with process := { state.process with line } }
    if state.hasOption 'n' then (.next, state.setStatus 0)
    else match Expansion.allFields (capture fuel) words state with
    | (none, state) => (.finished, state)
    | (some fields, state) =>
      let streams := state.process.streams
      let back (state : Configuration) : Configuration :=
        { state with process := { state.process with streams } }
      match state.redirectAll (capture fuel) redirects with
      | (.fatal, state) => (.finished, state)
      | (.failed, state) =>
        if Builtin.isSpecial (fields.headD []) then (.finished, back state)
        else (back (state.setStatus 2)).settle
      | (.done, state) =>
        let process := state.process
        match state.assignAll (capture fuel) assignments with
        | (false, state) => (.finished, back state)
        | (true, state) =>
          let assigned := assignments.map (·.1)
          let state := state.trace streams assigned fields
          if state.isStopped then (.stopped, back state)
          else
            match fields with
            | [] =>
              let state := back state
              (if runCommands (words ++ assignments.map (·.2)) then state
                else state.setStatus 0).settle
            | name :: arguments =>
              let (flow, state) := call fuel name arguments assigned false state
              -- The redirections of a bare `exec` stay.
              let isExec := name = ['e', 'x', 'e', 'c'] && arguments.isEmpty
              let state := if isExec then state else back state
              let state :=
                if assignments.isEmpty || Builtin.isSpecial name then state
                else state.resetVariables assigned process
              if state.isStopped then (.stopped, state)
              else if flow = .next then state.settle
              else (flow, state)

/-- Do what a name stands for: a function, a command of the shell, or a program. -/
def call : (fuel : Nat) → (name : ByteText) → (arguments : List ByteText) →
    (assigned : List String) → (plain : Bool) → Configuration → Flow × Configuration
  | 0, _, _, _, _, state => state.exhaust
  | fuel + 1, name, arguments, assigned, plain, state =>
    let text := String.ofList name
    match if plain then none else state.process.functions.lookup text with
    | some body =>
      let process := state.process
      if Configuration.maxDepth ≤ process.depth then
        (.finished, state.fail 2 ("Maximum function recursion depth (" ++
          toString Configuration.maxDepth ++ ") reached"))
      else
        let (flow, state) := exec fuel body (state.enterFunction arguments)
        (if flow = .back then .next else flow, state.leaveFunction process)
    | none =>
      let speaker := state.process.speaker
      match Builtin.all.lookup text with
      | some action =>
        let (flow, state) := action arguments (state.speakAs name)
        let state := state.speakAs speaker
        match flow with
        | .killed signal => deliver fuel signal state
        | flow => (flow, state)
      | none =>
        match text, arguments with
        | "eval", _ =>
          let unread := Unread.ofText 1 ([' '].intercalate arguments)
          let (flow, state) := commands fuel unread ((state.setStatus 0).speakAs name)
          (flow, state.speakAs speaker)
        | "exec", [] => (.next, state.setStatus 0)
        | "exec", program :: arguments =>
          let (flow, state) := external fuel true program arguments assigned (state.speakAs name)
          let state := state.speakAs speaker
          if flow = .next then (.finished, state)
          else (flow, { state with process := { state.process with traps := [] } })
        | ".", _ =>
          match arguments with
          | [] => (.next, state.setStatus 0)
          | path :: _ =>
            let (flow, state) := source fuel path (state.speakAs name)
            (flow, state.speakAs speaker)
        | "command", _ =>
          match Options.take ['p', 'v', 'V'] arguments with
          | .error wrong =>
            let message := "Illegal option -" ++ ByteText.toString [wrong]
            let (flow, state) := Builtin.reject message (state.speakAs name)
            (flow, state.speakAs speaker)
          | .ok (_, []) => (.next, state.setStatus 0)
          | .ok (letters, name :: arguments) =>
            if letters.contains 'V' then Builtin.describe [name] state
            else if letters.contains 'v' then Builtin.locate name state
            else
              let search := if letters.contains 'p' then some usualPath else none
              let before := state.value? "PATH"
              let state := search.elim state (state.assign "PATH")
              let (flow, state) := call fuel name arguments assigned true state
              (flow, if search.isSome then state.assign "PATH" (before.getD []) else state)
        | _, _ =>
          match external fuel false name arguments assigned state with
          | (.killed signal, state) =>
            let state := (Signal.report? signal).elim state fun text =>
              state.write 2 (ByteText.ofString (text ++ "\n"))
            (.next, state.setStatus (128 + signal))
          | (.finished, state) =>
            match state.received? with
            | some (signal, state) => deliver fuel signal state
            | none => (.next, state)
          | ended => ended

/-- Let a signal arrive: it runs what is to be run then, or ends the process. -/
def deliver : (fuel : Nat) → (signal : Nat) → Configuration → Flow × Configuration
  | 0, _, state => state.exhaust
  | fuel + 1, signal, state =>
    match if signal = 9 then none else state.process.traps.lookup signal with
    | some script =>
      match commands fuel (.ofText 1 script) state with
      | (.next, after) => (.next, after.setStatus state.process.status)
      | ended => ended
    | none => (if Signal.isHarmless signal then .next else .killed signal, state)

/-- Run the script in a file. One that is given without a slash is searched for. -/
def source : (fuel : Nat) → (path : ByteText) → Configuration → Flow × Configuration
  | 0, _, state => state.exhaust
  | fuel + 1, path, state =>
    let tree := state.world.tree
    let directory := state.process.directory
    let search := (state.value? "PATH").getD []
    let found? :=
      if path.contains '/' then some path
      else (Image.searched search path).find? fun path =>
        match tree.find directory (ByteText.toString path) with
        | .ok (_, .file _ _) => true
        | _ => false
    match found? with
    | none => Builtin.reject (ByteText.toString path ++ ": not found") state
    | some path =>
      match state.openInput path with
      | .error message => Builtin.reject message state
      | .ok _ =>
        let content := (tree.read directory (ByteText.toString path)).toOption.getD []
        let unread := Unread.ofText 1 (ByteText.ofBytes content)
        match commands fuel unread ((state.setStatus 0).speakAs path) with
        | (.back, state) => (.next, state)
        | ended => ended

/-- Run a program in a process of its own. If there is no such program, that is reported, and there
is nothing that has finished. -/
def external : (fuel : Nat) → (inPlace : Bool) → (name : ByteText) → (arguments : List ByteText) →
    (assigned : List String) → Configuration → Flow × Configuration
  | 0, _, _, _, _, state => state.exhaust
  | fuel + 1, inPlace, name, arguments, assigned, state =>
    let process := state.process
    let problem := ByteText.toString name ++ ": "
    let missing : Flow × Configuration := (.next, state.fail 127 (problem ++ "not found"))
    let search := (state.value? "PATH").getD []
    match Image.locate? state.world.tree process.directory search name with
    | none => missing
    | some path =>
      let image : Except Cause Image :=
        match Image.ofPath state.world.tree process.directory Image.maxInterpreters name path
          arguments with
        | .error .badFormat => .ok ⟨"sh", "sh".toList, path :: arguments⟩
        | found => found
      match image with
      | .error .noEntry | .error .notDirectory => missing
      | .error cause =>
        let isLost := cause = .loop || cause = .nameTooLong
        (.next, state.fail (if isLost then 127 else 126) (problem ++ cause.text))
      | .ok image =>
        let state := { state with world := state.world.wait 1 }
        let state := if name.contains '/' then state else state.track (String.ofList name) path
        let process := state.process
        let (flow, state) :=
          launch fuel image.program (state.child inPlace image.name image.arguments assigned)
        (if flow.outside = .next then .finished else flow, state.restore process)

/-- Run the commands of a script, and at the end what is to be run then. -/
def script : (fuel : Nat) → Unread → Configuration → Flow × Configuration
  | 0, _, state => state.exhaust
  | fuel + 1, unread, state =>
    let (flow, state) := commands fuel unread state
    if flow.outside = .next then conclude fuel state else (flow, state)

def launch : (fuel : Nat) → (program : String) → Configuration → Flow × Configuration
  | 0, _, state => state.exhaust
  | fuel + 1, program, state =>
    let process := state.process
    if program = "sh" then
      let invocation := Invocation.ofArguments process.arguments
      let state := invocation.letters.foldl (Builtin.setOption · true ·) state.prepared
      let start (name : ByteText) (arguments : List ByteText) : Configuration :=
        { state with process := { state.process with name, arguments } }
      if invocation.letters.contains 'c' then
        match invocation.arguments with
        | text :: others =>
          script fuel (.ofText 1 text) (start (others.headD process.name) (others.drop 1))
        | [] =>
          let state := { state with process := { state.process with line := 0 } }
          (.finished, state.fail 2 "-c requires an argument")
      else
        let isInput := invocation.letters.contains 's'
        match if isInput then [] else invocation.arguments with
        | path :: arguments =>
          match state.openInput path with
          | .ok _ =>
            let content :=
              (state.world.tree.read process.directory (ByteText.toString path)).toOption.getD []
            script fuel (.ofText 1 (ByteText.ofBytes content)) (start path arguments)
          | .error message =>
            let state := { state with process := { state.process with line := 0 } }
            (.finished, state.fail 2 message)
        | [] =>
          let unread := Unread.ofText 1 (state.pending 0).text
          script fuel unread ((start process.name invocation.arguments).leavePending 0 [])
    else if program = "env" then
      let isFresh := process.arguments.head? = some ['-', 'i']
      let words := if isFresh then process.arguments.drop 1 else process.arguments
      let assigned := words.takeWhile (·.contains '=')
      let given := assigned.map fun word =>
        let (name, value?) := Builtin.splitAssignment word
        (name, value?.getD [])
      let bindings := given.foldl
        (fun bindings (name, value) => Bindings.put name value bindings)
        (if isFresh then [] else process.bindings)
      match words.drop assigned.length with
      | [] =>
        let lines := bindings.flatMap fun (name, value) =>
          ByteText.ofString name ++ '=' :: value ++ ['\n']
        (.finished, (state.write 1 lines).setStatus 0)
      | name :: arguments =>
        let search := (bindings.lookup "PATH").getD usualPath
        let found := Image.locate? state.world.tree process.directory search name
        let image := (found.map fun path =>
          Image.ofPath state.world.tree process.directory Image.maxInterpreters name path
            arguments).getD (.error .noEntry)
        match image with
        | .ok image =>
          let process :=
            { process with
              name := image.name, arguments := image.arguments, bindings
              exported := bindings.map (·.1) }
          launch fuel image.program { state with process }
        | .error cause =>
          let message := ": '" ++ ByteText.toString name ++ "': " ++ cause.text ++ "\n"
          let state := state.write 2 (process.name ++ ByteText.ofString message)
          (.finished, state.setStatus (if cause = .noEntry then 127 else 126))
    else
      match Program.all.lookup program with
      | none => (.finished, state.setStatus 127)
      | some act =>
        let input := state.pending 0
        let effect := act ⟨process.name, process.arguments, input.text, input.isFile,
          process.directory, state.world.tree, process.mask⟩
        let state := state.absorb effect
        (if state.isStopped then .stopped else .finished, state)

end

end ContractInspector.Machine.Shell
