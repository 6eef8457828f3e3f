import ContractInspector.Machine.Permissions
import ContractInspector.Machine.Shell.Builtin.Basic
import ContractInspector.Machine.Shell.Signal

/-! The commands of the shell that deal with processes and their surroundings: signals, commands in
the background, the working directory, and permissions. -/
namespace ContractInspector.Machine.Shell.Builtin

/-- Names behind other ones, with the dots among them followed. -/
def walked (start names : Names) : Names :=
  FileTree.walked (· = ".") (· = "..") (start ++ names)

/-- Go to a directory. `shown` are the names by which it was reached. -/
def setDirectory (state : Configuration) (place shown : Names) : Configuration :=
  let before := FileTree.pathOf state.process.shown
  let state := { state with process := { state.process with directory := place, shown } }
  let state := state.assign "OLDPWD" (ByteText.ofString before)
  let state := state.assign "PWD" (ByteText.ofString (FileTree.pathOf shown))
  (state.markExported "OLDPWD").markExported "PWD"

def changeDirectory : Action := fun arguments state =>
  withOptions ['L', 'P'] arguments state fun letters targets state =>
    let isBack := targets.head? = some ['-']
    let wanted :=
      match targets with
      | [] => (state.value? "HOME").getD []
      | ['-'] :: _ => (state.value? "OLDPWD").getD []
      | target :: _ => target
    let path := ByteText.toString wanted
    if wanted.isEmpty then succeed state
    else
      let start := if FileTree.isAbsolute path then [] else state.process.shown
      let shown := walked start (FileTree.namesOf path)
      let isPhysical := letters.getLast? = some 'P'
      let target := if isPhysical then path else FileTree.pathOf shown
      match state.world.tree.find state.process.directory target with
      | .ok (place, .directory _) =>
        let shown := if isPhysical then place else shown
        let state := setDirectory state place shown
        if isBack then put (ByteText.ofString (FileTree.pathOf shown) ++ ['\n']) state
        else succeed state
      | _ => reject ("can't cd to " ++ path) state

def printDirectory : Action := fun arguments state =>
  withOptions ['L', 'P'] arguments state fun letters _ state =>
    let process := state.process
    let names := if letters.getLast? = some 'P' then process.directory else process.shown
    put (ByteText.ofString (FileTree.pathOf names) ++ ['\n']) state

def signalList : ByteText :=
  "0\n".toList ++ (List.range Signal.greatest).flatMap fun n =>
    (Signal.name (n + 1)).toList ++ ['\n']

def killUsage : String :=
  "Usage: kill [-s sigspec | -signum | -sigspec] [pid | job]... or\nkill -l [exitstatus]"

/-- Send a signal to some processes: the process itself, those that have started it, and those that
it has started in the background, which have ended by now. -/
def signalAll (signal : Nat) : Action
  | [], state => succeed state
  | ('%' :: job) :: _, state => reject ("No such job: %" ++ ByteText.toString job) state
  | target :: others, state =>
    let digits := if target.head? = some '-' then target.drop 1 else target
    match natural? digits with
    | none => illegalNumber digits state
    | some number =>
      if Signal.isHarmless signal && number = state.process.number then
        signalAll signal others state
      else if number = state.process.number || number = 0 then (.killed signal, state.setStatus 0)
      else if state.process.ancestors.contains number then
        let sent := state.world.sent ++ [(number, signal)]
        signalAll signal others { state with world := { state.world with sent } }
      else if state.process.jobs.any (·.number = number) then signalAll signal others state
      else
        let (flow, state) := signalAll signal others (state.complain "No such process\n")
        (flow, state.setStatus 1)

def kill : Action := fun arguments state =>
  match arguments with
  | ('-' :: letters) :: others =>
    match if letters.isEmpty then none else Signal.number? letters with
    | some signal =>
      if others.isEmpty then reject killUsage state else signalAll signal others state
    | none =>
      match letters, others with
      | ['s'], name :: targets => named name targets state
      | 's' :: name, targets =>
        if name.isEmpty then reject "No arg for -s option" state else named name targets state
      | ['l'], [] => put signalList state
      | ['l'], text :: _ =>
        match natural? text with
        | none => illegalNumber text state
        | some number =>
          let signal := if 128 < number then number - 128 else number
          if 0 < signal && signal ≤ Signal.greatest then
            put ((Signal.name signal).toList ++ ['\n']) state
          else
            reject ("invalid signal number or exit status: " ++ ByteText.toString text) state
      | letter :: _, _ => reject ("Illegal option -" ++ ByteText.toString [letter]) state
      | [], _ => reject killUsage state
  | [] => reject killUsage state
  | targets => signalAll 15 targets state
where
  named (name : ByteText) (targets : List ByteText) (state : Configuration) :
      Flow × Configuration :=
    match Signal.number? name with
    | none =>
      reject ("invalid signal number or name: " ++ ByteText.toString name) state
    | some signal =>
      if targets.isEmpty then reject killUsage state else signalAll signal targets state

/-- Set the script to run when signals arrive, or list these scripts. -/
def trap : Action := fun arguments state =>
  withOptions [] arguments state fun _ words state =>
    match words with
    | [] =>
      let traps := state.process.traps.mergeSort fun first second => first.1 ≤ second.1
      put (traps.flatMap fun (signal, script) =>
        "trap -- ".toList ++ ByteText.quoted script ++ ' ' :: (Signal.name signal).toList ++
          ['\n']) state
    | first :: others =>
      if others.isEmpty || (Signal.number? first).isSome then setAll none words state
      else setAll (some first) others state
where
  setAll (script? : Option ByteText) : Action
    | [], state => succeed state
    | name :: names, state =>
      match Signal.number? name with
      | none =>
        giveStatus 1 (state.write 2 ("trap: ".toList ++ name ++ ": bad trap\n".toList))
      | some signal =>
        let others := state.process.traps.filter (·.1 ≠ signal)
        let traps :=
          match script? with
          | some script => if script = ['-'] then others else (signal, script) :: others
          | none => others
        setAll script? names { state with process := { state.process with traps } }

/-- Let the time go by until commands in the background have ended. -/
def awaitJobs (jobs : List Job) (state : Configuration) : Configuration :=
  jobs.foldl (fun state job =>
    match job.finish with
    | some time =>
      { state with world := state.world.wait (time - state.world.clock) }
    | none => { state with world := { state.world with stop := some .late } }) state

def wait : Action := fun arguments state =>
  withOptions [] arguments state fun _ targets state =>
    let jobs := state.process.jobs
    let (flow, state) :=
      if targets.isEmpty then succeed (awaitJobs jobs state)
      else targets.foldl (fun (_, state) target =>
        match target with
        | '%' :: _ => reject ("No such job: " ++ ByteText.toString target) state
        | _ =>
          match natural? target with
          | none => illegalNumber target state
          | some number =>
            match jobs.find? (·.number = number) with
            | some job => giveStatus job.status (awaitJobs [job] state)
            | none => giveStatus 127 state) (succeed state)
    (if state.isStopped then .stopped else flow, state)

def jobs : Action := fun arguments state =>
  withOptions ['l', 'p'] arguments state fun _ _ state => succeed state

/-- Go on with a command that was stopped, of which there is none. -/
def resume : Action := fun arguments state =>
  withOptions [] arguments state fun _ targets state =>
    match targets with
    | target :: _ => reject ("No such job: " ++ ByteText.toString target) state
    | [] => reject "No current job" state

/-- The permissions of a digit, as letters. -/
def permissions (bits : Nat) : ByteText :=
  (if bits &&& 4 ≠ 0 then ['r'] else []) ++ (if bits &&& 2 ≠ 0 then ['w'] else []) ++
    (if bits &&& 1 ≠ 0 then ['x'] else [])

/-- Show or set the permissions that new files do not get. -/
def umask : Action := fun arguments state =>
  withOptions ['S'] arguments state fun letters targets state =>
    let mask := state.process.mask
    let setMask (mask : Nat) : Flow × Configuration :=
      succeed { state with process := { state.process with mask := mask &&& Permissions.full } }
    match targets with
    | [] =>
      let kept := Permissions.full - mask
      if letters.isEmpty then
        let digits := Nat.toDigits 8 mask
        put (List.replicate (4 - digits.length) '0' ++ digits ++ ['\n']) state
      else
        put ("u=".toList ++ permissions (kept / 64) ++ ",g=".toList ++
          permissions (kept / 8 % 8) ++ ",o=".toList ++ permissions (kept % 8) ++ ['\n']) state
    | target :: _ =>
      if target.head?.any Char.isDigit then
        match Arithmetic.numberIn 8 target with
        | some mask => setMask mask
        | none => illegalNumber target state
      else
        match Permissions.changed? 0 target (Permissions.full - mask) with
        | some mode => setMask (Permissions.full - mode)
        | none => reject ("Illegal mode: " ++ ByteText.toString target) state

/-- The limits of processes by their letters. Those that are not listed have no end. -/
def limits : List (Char × String) :=
  [('c', "0"), ('s', "8192"), ('l', "8192"), ('n', "1048576"), ('r', "0")]

def ulimit : Action := fun arguments state =>
  withOptions ("HSatfdscmlpnvwr".toList) arguments state fun letters targets state =>
    let wanted := (letters.filter fun letter => letter ≠ 'H' && letter ≠ 'S').getLast?.getD 'f'
    if !targets.isEmpty then succeed state
    else put (((limits.lookup wanted).getD "unlimited").toList ++ ['\n']) state

/-- Show how long processes have taken. -/
def times : Action := fun _ state =>
  let row := "0m0.000000s 0m0.000000s\n".toList
  put (row ++ row) state

end ContractInspector.Machine.Shell.Builtin
