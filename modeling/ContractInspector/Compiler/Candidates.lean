import ContractInspector.Host.PathStyle
import ContractInspector.Text.LowerCase

/-! Finding compilers on the search path. -/
namespace ContractInspector.Compiler

/-- How the host writes paths, its search path, its list of executable extensions if there is one, and
which paths are executable files. -/
structure SearchPath where
  style : Host.PathStyle
  path : String
  extensions : Option String
  isExecutable : String → Bool

/-- The binary that is looked for. -/
def binaryName : String := "compact"

/-- The extensions that Windows runs when it has no list of its own. -/
def defaultExtensions : String := ".EXE;.CMD;.BAT"

/-- The extensions to try, in order. On Windows they come from the list, in lower case, behind no
extension if the binary has one already. -/
def extensionsFor (search : SearchPath) (binary : String) (windows : Bool) : List String :=
  if windows then
    let listed := (Text.splitAt ';' (search.extensions.getD defaultExtensions).toList).filter
      (!·.isEmpty)
    let lowered := listed.map fun extension => String.ofList (Text.lower extension)
    if search.style.hasExtension binary then "" :: lowered else lowered
  else [""]

/-- The paths to try, in order. -/
def searched (search : SearchPath) (binary : String) (windows : Bool) : List String :=
  let directories := (Text.splitAt search.style.separator search.path.toList).filter (!·.isEmpty)
  let extensions := extensionsFor search binary windows
  directories.flatMap fun directory =>
    extensions.map fun extension => search.style.join (String.ofList directory) (binary ++ extension)

/-- The executable files with the binary's name, each once, in search order. -/
def candidates (search : SearchPath) (binary : String) (windows : Bool) : List String :=
  (searched search binary windows).foldl (fun found path =>
    if !found.contains path && search.isExecutable path then found ++ [path] else found) []

/-- A program that comes with Windows, which is not the compiler. -/
def isWindowsSystemPath (path : String) : Bool :=
  let lowered := Text.lower (path.toList.map fun c => if c = '/' then '\\' else c)
  Text.contains "\\system32\\".toList lowered ||
    match lowered with
    | letter :: rest => 'a' ≤ letter && letter ≤ 'z' && ":\\windows\\".toList.isPrefixOf rest
    | [] => false

end ContractInspector.Compiler
