import ContractInspector.Text.Wide

/-! Unix paths: their form without empty and single-dot components, their last component and their
directory, and the directories that belong to the system. All of this asks for slashes, dots and letters
only, which no half of a surrogate pair is: it is told from the characters that a wide path shows. -/
namespace ContractInspector.Guard.UnixPath

def isAbsolute (path : List Char) : Bool :=
  path.head? == some '/'

/-- The root of an absolute path. Two leading slashes, and no more than two, are kept. -/
def root (path : List Char) : List Char :=
  if (path.takeWhile (· == '/')).length = 2 then ['/', '/'] else ['/']

/-- The components of a path that are neither empty nor a single dot. -/
def components (path : List Char) : List (List Char) :=
  (Text.splitAt '/' path).filter fun name => !name.isEmpty && name != ['.']

/-- An absolute path without empty and single-dot components. -/
def form (path : List Char) : List Char :=
  root path ++ ['/'].intercalate (components path)

def systemDirectories : List String :=
  ["etc", "var", "usr", "bin", "sbin", "root"]

/-- The path is a directory of the system or below one. -/
def isDenied (path : List Char) : Bool :=
  systemDirectories.any fun name =>
    let directory := '/' :: name.toList
    path == directory || (directory ++ ['/']).isPrefixOf path

def basename (path : List Char) : List Char :=
  (path.reverse.takeWhile (· != '/')).reverse

/-- What comes before the last slash. The slashes of a root stay. -/
def dirname (path : List Char) : List Char :=
  let head := path.reverse.dropWhile (· != '/')
  if head.all (· == '/') then head else (head.dropWhile (· == '/')).reverse

/-- The last component of a path that may hold halves, and its directory. -/
def fileName (path : Text.Wide) : Text.Wide :=
  path.drop (path.shown.toList.length - (basename path.shown.toList).length)

def directory (path : Text.Wide) : Text.Wide :=
  path.take (dirname path.shown.toList).length

end ContractInspector.Guard.UnixPath
