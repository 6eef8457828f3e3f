import ContractInspector.Machine.FileTree
import ContractInspector.Machine.Shell.Command

/-! Executable files: a program of the system, or a script whose first line names its
interpreter. -/
namespace ContractInspector.Machine

open Host (Cause)
open Shell (ByteText)

/-- A program to run, with the name it is called by and its arguments. -/
structure Image where
  program : String
  name : ByteText
  arguments : List ByteText

namespace Image

def isBlank (c : Char) : Bool :=
  c == ' ' || c == '\t'

/-- The interpreter in the first line of a script, and its argument if there is one. -/
def interpreter? (content : ByteText) : Option (ByteText × Option ByteText) :=
  match content with
  | '#' :: '!' :: rest =>
    let line := ((rest.takeWhile (· ≠ '\n')).take 254).dropWhile isBlank
    let path := line.takeWhile fun c => !isBlank c
    let behind := (line.drop path.length).dropWhile isBlank
    let argument := (behind.reverse.dropWhile isBlank).reverse
    if path.isEmpty then none
    else some (path, if argument.isEmpty then none else some argument)
  | _ => none

/-- How many interpreters may be scripts themselves. -/
def maxInterpreters : Nat := 5

/-- What is run for the file at a path. -/
def ofPath (tree : FileTree) (directory : Names) :
    (depth : Nat) → (name path : ByteText) → (arguments : List ByteText) → Except Cause Image
  | 0, _, _, _ => .error .loop
  | depth + 1, name, path, arguments =>
    match tree.find directory (ByteText.toString path) with
    | .error cause => .error cause
    | .ok (_, .program program) => .ok ⟨program, name, arguments⟩
    | .ok (_, .file content mode) =>
      if mode &&& 0o111 = 0 then .error .denied
      else
        match interpreter? (ByteText.ofBytes content) with
        | none => .error .badFormat
        | some (interpreter, argument) =>
          ofPath tree directory depth interpreter interpreter
            (argument.toList ++ path :: arguments)
    | .ok (_, _) => .error .denied

/-- The paths at which a program may be that is called by a name without a slash. -/
def searched (search name : ByteText) : List ByteText :=
  (Text.splitAt ':' search).map fun directory =>
    if directory.isEmpty then name else directory ++ ['/'] ++ name

/-- The path of the program with a name. -/
def locate? (tree : FileTree) (directory : Names) (search name : ByteText) : Option ByteText :=
  if name.contains '/' then some name
  else
    (searched search name).find? fun path => tree.isExecutable directory (ByteText.toString path)

end Image

end ContractInspector.Machine
