import ContractInspector.Text.Basic

/-! How hosts write paths and lists of them. -/
namespace ContractInspector.Host

structure PathStyle where
  /-- What stands between the entries of a search path. -/
  separator : Char
  /-- The path of a file in a directory. -/
  join : (directory name : String) → String
  /-- The name of a file has an extension. -/
  hasExtension : (name : String) → Bool

namespace Unix

def isAbsolute (path : String) : Bool :=
  path.toList.head? == some '/'

/-- A directory with what comes between it and the names in it. -/
def opened (directory : String) : String :=
  if directory.isEmpty || directory.toList.getLast? = some '/' then directory else directory ++ "/"

def join (directory name : String) : String :=
  if isAbsolute name then name else opened directory ++ name

/-- A dot stands behind the first characters of the last component that are no dots. -/
def hasExtension (name : String) : Bool :=
  let last := (name.toList.reverse.takeWhile (· != '/')).reverse
  (last.dropWhile (· == '.')).contains '.'

end Unix

/-- The paths of Unix. -/
def PathStyle.unix : PathStyle := ⟨':', Unix.join, Unix.hasExtension⟩

end ContractInspector.Host
