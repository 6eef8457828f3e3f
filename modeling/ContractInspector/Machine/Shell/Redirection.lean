import ContractInspector.Machine.Shell.Builtin
import ContractInspector.Machine.Shell.Expansion

/-! Redirections: descriptors are connected with files, documents and other descriptors. -/
namespace ContractInspector.Machine.Shell.Configuration

open Host (Cause)

/-- The stream of a file that is opened for reading. -/
def openInput (state : Configuration) (path : ByteText) : Except String (Stream × Configuration) :=
  let text := ByteText.toString path
  if text = "/dev/null" then .ok (.nowhere, state)
  else if text = "/dev/stdin" || text = "/dev/fd/0" then
    .ok ((state.process.streams.lookup 0).getD .nowhere, state)
  else
    match state.world.tree.read state.process.directory text with
    | .ok content =>
      let (index, state) := state.newSource ⟨ByteText.ofBytes content, true⟩
      .ok (.source index, state)
    | .error .isDirectory => .ok (.nowhere, state)
    | .error cause =>
      let isAbsent := cause = .noEntry || cause = .notDirectory
      .error ("cannot open " ++ text ++ ": " ++ if isAbsent then "No such file" else cause.text)

/-- The stream of a file that is opened for writing. It is emptied unless `append` is set. A file
that is there already is kept if `keep` is set. -/
def openOutput (state : Configuration) (path : ByteText) (append keep : Bool) :
    Except String (Stream × Configuration) :=
  let text := ByteText.toString path
  let copied (descriptor : Nat) : Except String (Stream × Configuration) :=
    .ok ((state.process.streams.lookup descriptor).getD .nowhere, state)
  if text = "/dev/null" then .ok (.nowhere, state)
  else if text = "/dev/stdout" || text = "/dev/fd/1" then copied 1
  else if text = "/dev/stderr" || text = "/dev/fd/2" then copied 2
  else
    let tree := state.world.tree
    let problem := "cannot create " ++ text ++ ": "
    match tree.writable state.process.directory text with
    | .ok names =>
      let isThere := (tree.node? names).isSome
      if isThere && keep then .error (problem ++ "File exists")
      else
        let (content, mode) := tree.contentAt names
        let mode := if isThere then mode else Permissions.without 0o666 state.process.mask
        let kept := if append then content else []
        let world := { state.world with tree := tree.put names (.file kept mode) }
        .ok (.file names, { state with world })
    | .error cause =>
      let isAbsent := cause = .noEntry || cause = .notDirectory
      .error (problem ++ if isAbsent then "Directory nonexistent" else cause.text)

/-- The message about a target that cannot be a descriptor: it is no single digit. -/
def badDescriptor : String := "Syntax error: Bad fd number"

/-- Connect a descriptor as a redirection demands. -/
def redirect (state : Configuration) (descriptor : Nat) (direction : Direction)
    (target : ByteText) : Except String Configuration := do
  match direction with
  | .input =>
    let (stream, state) ← state.openInput target
    return state.connect descriptor stream
  | .output =>
    let (stream, state) ← state.openOutput target false (state.hasOption 'C')
    return state.connect descriptor stream
  | .overwrite =>
    let (stream, state) ← state.openOutput target false false
    return state.connect descriptor stream
  | .append =>
    let (stream, state) ← state.openOutput target true false
    return state.connect descriptor stream
  | .document =>
    let (index, state) := state.newSource ⟨target, false⟩
    return state.connect descriptor (.source index)
  | .duplicate =>
    if target = ['-'] then
      let streams := state.process.streams.filter (·.1 != descriptor)
      return { state with process := { state.process with streams } }
    else
      match target with
      | [digit] =>
        let number := if digit.isDigit then some (digit.toNat - '0'.toNat) else none
        match number with
        | none => throw badDescriptor
        | some number =>
          match state.process.streams.lookup number with
          | some stream => return state.connect descriptor stream
          | none => throw (ByteText.toString target ++ ": Bad file descriptor")
      | _ => throw badDescriptor

/-- What has come of redirections. -/
inductive Redirected where
  | done
  | failed
  /-- The shell cannot go on. -/
  | fatal
deriving DecidableEq

/-- Connect descriptors as redirections demand. If that fails, it is reported. -/
def redirectAll (run : Expansion.Runner) : List Redirect → Configuration →
    Redirected × Configuration
  | [], state => (.done, state)
  | ⟨descriptor, direction, target⟩ :: others, state =>
    match Expansion.single run target state with
    | (none, state) => (.fatal, state)
    | (some text, state) =>
      match state.redirect descriptor direction text with
      | .ok state => redirectAll run others state
      | .error message =>
        (if message = badDescriptor then .fatal else .failed, state.fail 2 message)

end ContractInspector.Machine.Shell.Configuration
