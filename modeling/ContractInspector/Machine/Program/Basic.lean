import ContractInspector.Machine.FileTree
import ContractInspector.Machine.Shell.Command

/-! Programs of the system: how they are called, and what they do. -/
namespace ContractInspector.Machine

open Host (Cause)
open Shell (ByteText)

/-- A program that was called: by what name and with what arguments, what it can read, and the files
around it. -/
structure Call where
  name : ByteText
  arguments : List ByteText
  input : ByteText
  /-- The input comes from a file. -/
  hasFileInput : Bool := false
  directory : Names
  tree : FileTree
  /-- The permissions that new files do not get. -/
  mask : Nat := 0o022

/-- What a program has done. `writes` holds what it wrote to its output (1) and its errors (2), in
order. -/
structure Effect where
  tree : FileTree
  writes : List (Nat × ByteText) := []
  status : Nat := 0
  milliseconds : Nat := 0
  /-- The program has read all of its input. -/
  readsInput : Bool := false

namespace Effect

def print (effect : Effect) (text : ByteText) : Effect :=
  { effect with writes := effect.writes ++ [(1, text)] }

end Effect

namespace Call

/-- The program ends with a status and has done nothing. -/
def done (call : Call) (status : Nat) : Effect :=
  { tree := call.tree, status }

def prints (call : Call) (text : ByteText) : Effect :=
  (call.done 0).print text

/-- The options, as letters, and the other arguments. -/
def options (call : Call) : List Char × List ByteText :=
  let isOption (argument : ByteText) : Bool := argument.head? == some '-' && 1 < argument.length
  ((call.arguments.filter isOption).flatMap (·.drop 1),
    call.arguments.filter fun argument => !isOption argument)

/-- What a program has done that also reports a mistake. -/
def complain (call : Call) (effect : Effect) (status : Nat) (message : String) : Effect :=
  { effect with
    writes := effect.writes ++ [(2, call.name ++ ByteText.ofString (": " ++ message) ++ ['\n'])]
    status }

/-- What a program has done that was called in a wrong way. -/
def misused (call : Call) (status : Nat) (message : String) : Effect :=
  let hint := "\nTry '" ++ ByteText.toString call.name ++ " --help' for more information."
  call.complain (call.done 0) status (message ++ hint)

/-- The paths that lead to the input of a program. -/
def inputPaths : List ByteText :=
  [['-'], "/dev/stdin".toList, "/dev/fd/0".toList]

def contents (call : Call) (path : ByteText) : Except Cause ByteText :=
  if inputPaths.contains path then .ok call.input
  else (call.tree.read call.directory (ByteText.toString path)).map ByteText.ofBytes

def quoted (path : ByteText) : String :=
  "'" ++ ByteText.toString path ++ "'"

def forEach (call : Call) (paths : List ByteText) (act : Effect → ByteText → Effect) : Effect :=
  paths.foldl act (call.done 0)

/-- Change the files at a path, or report what went wrong. -/
def change (call : Call) (effect : Effect) (problem : String)
    (result : Except Cause FileTree) : Effect :=
  match result with
  | .ok tree => { effect with tree }
  | .error cause => call.complain effect 1 (problem ++ ": " ++ cause.text)

end Call

end ContractInspector.Machine
