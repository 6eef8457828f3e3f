import ContractInspector.Compiler.Candidates
import ContractInspector.Compiler.Output
import ContractInspector.Compiler.Procedure
import ContractInspector.Compiler.Version
import ContractInspector.Guard.Resolve

/-! Running the compiler: find one that answers, check its version, stage the source, compile, and
clean up. The staging directory is removed whatever happens after it was made. -/
namespace ContractInspector.Compiler

open Host (Reply)
open Text (Wide)

structure Run where
  compiler : Identity
  status : Int
  output : String
  errors : String
deriving DecidableEq

namespace Run

def isOk (run : Run) : Bool :=
  run.status == 0

end Run

/-- The version in the answer of a program that was asked for it: its stripped output, or else its
stripped errors. A program that fails or answers nothing has none. -/
def answeredVersion? (finished : Finished) : Except Failure (Option String) := do
  let read (bytes : List UInt8) : Except Failure (List Char) :=
    match Text.Utf8.decode bytes with
    | .ok text => .ok (Text.withNewlines text)
    | .error fault => .error (.broken (.undecodable fault))
  let output ← read finished.output
  let errors ← read finished.errors
  if finished.status ≠ 0 then return none
  let version := Text.strip (if output.isEmpty then errors else output)
  return if version.isEmpty then none else some (String.ofList version)

/-- The version of the compiler at a path, if there is one. -/
def probe (path : String) : Attempt (Option String) := do
  match (← Procedure.request (.probe path) : Reply Finished) with
  | .done finished => Attempt.settled (answeredVersion? finished)
  | .failed _ => return none
  | .broke accident => throw (.broken accident)

/-- The first candidate that answers. Programs that come with Windows are passed over there. -/
def selectCompiler (windows : Bool) : List String → Attempt (Option Identity)
  | [] => return none
  | path :: others => do
    if windows && isWindowsSystemPath path then selectCompiler windows others
    else
      match ← probe path with
      | some version => return some ⟨path, version⟩
      | none => selectCompiler windows others

/-- The candidates for the compiler: the one that is set, or those on the search path. -/
def choices (settings : Settings) (search : SearchPath) (windows : Bool) : List String :=
  match settings.compilerPath.filter (!·.isEmpty) with
  | some path => [path]
  | none => candidates search binaryName windows

def locate (settings : Settings) (search : SearchPath) (windows : Bool) : Attempt Identity := do
  match ← selectCompiler windows (choices settings search windows) with
  | some compiler => return compiler
  | none => Attempt.refuse .noCompiler

def stagingFailure (fault : Host.Fault) : Refusal :=
  .hostFailure "Failed to create temporary directory" "System error: Cannot create temp files" fault

def writeFailure (fault : Host.Fault) : Refusal :=
  .hostFailure "Failed to write contract file" "System error: Cannot write temp file" fault

def startFailure (path : String) (fault : Host.Fault) : Refusal :=
  .hostFailure "Failed to run compiler" ("System error: Cannot run " ++ path) fault

def inDirectory (directory : String) (name : Wide) : Wide :=
  if Host.Unix.isAbsolute name.shown then name else Host.Unix.opened directory ++ name

/-- Write the source into a staging directory, beside a new directory for the compiler's files. -/
def stage (staging : String) (source : Guard.ContractSource) : Attempt Wide := do
  Attempt.request (.makeDirectory (inDirectory staging "output")) rfl stagingFailure
  let staged := inDirectory staging source.filename
  Attempt.request (.writeFile staged source.text) rfl writeFailure
  return staged

/-- What to compile and where: a file in its own directory, so that its includes resolve, and code
that was sent in the staging directory. -/
def target (staging : String) (staged : Wide) : Guard.Origin → Wide × Wide
  | .inline => (staged, staging)
  | .file path directory => (path, directory)

/-- Compile in a staging directory. A process that is not done in time or writes too much is
killed. -/
def compileIn (settings : Settings) (compiler : Identity) (staging : String)
    (source : Guard.ContractSource) : Attempt Run := do
  let staged ← stage staging source
  let (file, directory) := target staging staged source.origin
  Attempt.request (.start compiler.path file (inDirectory staging "output") directory) rfl
    (startFailure compiler.path)
  let limit := settings.maxCompilerOutput.toNat
  let watched ← Attempt.request (.watch settings.compileTimeout limit) rfl
    fun fault => .unexpected fault.details
  let output := readOutput limit watched.output
  let errors := readOutput limit watched.errors
  match watched.status with
  | none =>
    (Procedure.request .kill : Procedure Unit)
    Attempt.refuse (.timedOut settings.compileTimeout compiler)
  | some status =>
    if output.overflowed || errors.overflowed then
      (Procedure.request .kill : Procedure Unit)
      Attempt.refuse (.tooMuchOutput settings.maxCompilerOutput compiler)
    else return ⟨compiler, status, String.ofList output.text, String.ofList errors.text⟩

def compile (settings : Settings) (search : SearchPath) (source : Guard.ContractSource) :
    Attempt Run := do
  let compiler ← locate settings search false
  Attempt.settled (checkVersion compiler)
  let staging ← Attempt.request .makeStaging rfl stagingFailure
  -- The staging directory is removed however the compilation ends.
  (compileIn settings compiler staging source).ending
    (Procedure.request (.remove staging) : Procedure Unit)

end ContractInspector.Compiler
