import ContractInspector.Text.Basic
import ContractInspector.Text.LowerCase

/-! Windows paths: drives, shares, extended-length and device prefixes, and the directories that
belong to the system. -/
namespace ContractInspector.Guard

/-- A path as its drive, its root, which is a backslash or nothing, and its components. -/
structure WindowsPath where
  drive : List Char
  root : List Char
  components : List (List Char)

namespace WindowsPath

def withBackslashes (path : List Char) : List Char :=
  path.map fun c => if c = '/' then '\\' else c

/-- The prefix of an extended-length path, and what follows it. Behind the prefix for shares a share
is written with one backslash less. -/
def splitExtended (path : List Char) : List Char × List Char :=
  if "\\\\?\\".toList.isPrefixOf path then
    let rest := path.drop 4
    if "UNC\\".toList.isPrefixOf rest then (path.take 7, '\\' :: rest.drop 3)
    else (path.take 4, rest)
  else ([], path)

/-- The share at the front of a path that starts with two backslashes, if its machine and its
directory are not empty, and what follows the backslash behind it. -/
def splitShare? (path : List Char) : Option (List Char × List Char) :=
  let body := path.drop 2
  if !"\\\\".toList.isPrefixOf path || body.head? == some '\\' then none
  else
    let machine := body.takeWhile (· != '\\')
    let behind := body.drop (machine.length + 1)
    if machine.length = body.length || behind.head? == some '\\' then none
    else
      let directory := behind.takeWhile (· != '\\')
      some ("\\\\".toList ++ machine ++ '\\' :: directory, behind.drop (directory.length + 1))

def isDriveLetter (c : Char) : Bool :=
  c.toNat < 128 && c.isAlpha

/-- The drive, the root and the rest of a path with backslashes. -/
def split (path : List Char) : List Char × List Char × List Char :=
  let (start, rest) := splitExtended path
  match splitShare? rest with
  | some (share, relative) =>
    (start ++ (if start.isEmpty then share else share.drop 1), ['\\'], relative)
  | none =>
    let (letter, rest) :=
      match rest with
      | c :: ':' :: behind => if isDriveLetter c then ([c, ':'], behind) else ([], rest)
      | _ => ([], rest)
    if rest.head? = some '\\' then (start ++ letter, ['\\'], rest.dropWhile (· == '\\'))
    else (start ++ letter, [], rest)

/-- Read a path. Components that are empty or a single dot are dropped. -/
def ofText (path : List Char) : WindowsPath :=
  let (drive, root, relative) := split (withBackslashes path)
  ⟨drive, root, (Text.splitAt '\\' relative).filter fun name => !name.isEmpty && name != ['.']⟩

def isAbsolute (path : WindowsPath) : Bool :=
  !path.drive.isEmpty && !path.root.isEmpty

def text (path : WindowsPath) : List Char :=
  path.drive ++ path.root ++ ['\\'].intercalate path.components

def systemDirectories : List String :=
  ["c:\\windows", "c:\\system32", "c:\\programdata"]

/-- What the paths of installed programs start with, in lower case. -/
def programDirectories : String := "c:\\program files"

/-- The path is a directory of the system or below one, in any case, or starts like the paths of
installed programs. -/
def isDenied (path : List Char) : Bool :=
  let lowered := Text.lower (withBackslashes path)
  programDirectories.toList.isPrefixOf lowered ||
    systemDirectories.any fun name =>
      lowered == name.toList || (name.toList ++ ['\\']).isPrefixOf lowered

end WindowsPath

end ContractInspector.Guard
