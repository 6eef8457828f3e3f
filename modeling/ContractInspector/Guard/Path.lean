import ContractInspector.Guard.UnixPath
import ContractInspector.Guard.WindowsPath
import ContractInspector.Host.Reply
import ContractInspector.Refusal

/-! Checking the path of a contract file. A path is accepted if it is absolute, has no two dots in a
row, ends in the extension of contracts, and does not lead into a directory of the system. -/
namespace ContractInspector.Guard

/-- The first of the problems that do not depend on the file system. -/
def pathProblem? (absolute : Bool) (path : List Char) : Option PathProblem :=
  if !absolute then some .relative
  else if Text.contains ['.', '.'] path then some .traversal
  else if !Language.fileExtension.toList.isSuffixOf path then some .extension
  else none

/-- Check a Windows path by its text alone, and give it back without empty and single-dot
components. -/
def checkWindowsPath (path : List Char) : Except Failure String :=
  let parsed := WindowsPath.ofText path
  match pathProblem? parsed.isAbsolute path with
  | some problem => .error (.refused (.badPath problem))
  | none =>
    if WindowsPath.isDenied parsed.text then .error (.refused (.badPath .systemDirectory))
    else .ok (String.ofList parsed.text)

/-- Check a Unix path, and give back the path that it leads to. Neither the path as it is written
nor the one that it leads to may be in a directory of the system. -/
def checkUnixPath (files : Host.FileView) (path : Text.Wide) : Except Failure Text.Wide :=
  let text := path.shown.toList
  match pathProblem? (UnixPath.isAbsolute text) text with
  | some problem => .error (.refused (.badPath problem))
  | none =>
    match files.realPath path with
    | .error accident => .error (.broken accident)
    | .ok real =>
      if UnixPath.isDenied (UnixPath.form text) || UnixPath.isDenied real.shown.toList then
        .error (.refused (.badPath .systemDirectory))
      else .ok real

end ContractInspector.Guard
