import ContractInspector.Guard.UnixPath
import ContractInspector.Machine.Spelling
import ContractInspector.Text.Utf8

/-! A tree of files, as a list of nodes with their full paths. A path is a list of names below the
root; the root itself is always there. -/
namespace ContractInspector.Machine

open Host (Cause)

/-- The names on the way from the root. -/
abbrev Names := List String

inductive Node where
  | file (content : List UInt8) (mode : Nat)
  | directory (mode : Nat)
  | link (target : String)
  /-- A program of the system, by its name. -/
  | program (name : String)
  /-- A device that is empty and takes in all that is written to it. -/
  | sink

structure FileTree where
  nodes : List (Names × Node)

namespace FileTree

def node? (tree : FileTree) : Names → Option Node
  | [] => some (.directory 0o755)
  | names => tree.nodes.lookup names

/-- Put a node at a place, in the place of what is there. -/
def put (tree : FileTree) (names : Names) (node : Node) : FileTree :=
  ⟨(names, node) :: tree.nodes.filter (·.1 != names)⟩

def remove (tree : FileTree) (names : Names) : FileTree :=
  ⟨tree.nodes.filter fun entry => !names.isPrefixOf entry.1⟩

/-- The names in a directory, sorted by their bytes. -/
def entries (tree : FileTree) (names : Names) : List String :=
  (tree.nodes.filterMap fun entry =>
    if entry.1.dropLast = names && !entry.1.isEmpty then entry.1.getLast? else none).mergeSort
      fun a b => a ≤ b

/-- The names of a path, without empty ones. One that ends in a slash leads to a directory. -/
def namesOf (path : String) : Names :=
  let names := ((Text.splitAt '/' path.toList).filter (!·.isEmpty)).map String.ofList
  if path.toList.getLast? = some '/' then names ++ ["."] else names

def isAbsolute (path : String) : Bool :=
  path.toList.head? == some '/'

def pathOf (names : Names) : String :=
  "/" ++ "/".intercalate names

def maxName : Nat := 255

def maxPath : Nat := 4095

def maxLinks : Nat := 40

/-- A place, and what is there. The directory that holds it exists. -/
structure Place where
  names : Names
  node : Option Node

/-- Follow names from a directory. Links on the way are followed, a link at the end only if
`followLast` is set; `links` more may be followed. -/
def follow (tree : FileTree) (followLast : Bool) (links : Nat) (here : Names) (names : Names) :
    Except Cause Place :=
  match names with
  | [] => .ok ⟨here, tree.node? here⟩
  | name :: rest =>
    match tree.node? here with
    | some (.directory _) =>
      if name = "." then tree.follow followLast links here rest
      else if name = ".." then tree.follow followLast links here.dropLast rest
      else if maxName < name.utf8ByteSize then .error .nameTooLong
      else
        let there := here ++ [name]
        match tree.node? there with
        | none => if rest.isEmpty then .ok ⟨there, none⟩ else .error .noEntry
        | some (.link target) =>
          if rest.isEmpty && !followLast then .ok ⟨there, some (.link target)⟩
          else
            match links with
            | 0 => .error .loop
            | links + 1 =>
              tree.follow followLast links (if isAbsolute target then [] else here)
                (namesOf target ++ rest)
        | some _ => tree.follow followLast links there rest
    | some _ => .error .notDirectory
    | none => .error .noEntry
  termination_by (links, names.length)

def place (tree : FileTree) (directory : Names) (path : String) (followLast : Bool) :
    Except Cause Place :=
  if path.isEmpty then .error .noEntry
  else if maxPath < path.utf8ByteSize then .error .nameTooLong
  else tree.follow followLast maxLinks (if isAbsolute path then [] else directory) (namesOf path)

def find (tree : FileTree) (directory : Names) (path : String) : Except Cause (Names × Node) :=
  match tree.place directory path true with
  | .error cause => .error cause
  | .ok ⟨names, some node⟩ => .ok (names, node)
  | .ok ⟨_, none⟩ => .error .noEntry

def read (tree : FileTree) (directory : Names) (path : String) : Except Cause (List UInt8) :=
  match tree.find directory path with
  | .error cause => .error cause
  | .ok (_, .file content _) => .ok content
  | .ok (_, .directory _) => .error .isDirectory
  | .ok (_, _) => .ok []

/-- The mode of files and directories that are made without one. -/
def fileMode : Nat := 0o644

def directoryMode : Nat := 0o755

/-- The place at which a file can be written. -/
def writable (tree : FileTree) (directory : Names) (path : String) : Except Cause Names :=
  match tree.place directory path true with
  | .error cause => .error cause
  | .ok ⟨names, node⟩ =>
    match node with
    | some (.directory _) => .error .isDirectory
    | _ => if path.toList.getLast? = some '/' then .error .isDirectory else .ok names

/-- The contents and the mode of the file at a place. A new one is empty. -/
def contentAt (tree : FileTree) (names : Names) : List UInt8 × Nat :=
  match tree.node? names with
  | some (.file content mode) => (content, mode)
  | _ => ([], fileMode)

/-- Put a file at a place, unless a device is there that takes in all. -/
def save (tree : FileTree) (names : Names) (content : List UInt8) (mode : Nat) : FileTree :=
  match tree.node? names with
  | some .sink => tree
  | _ => tree.put names (.file content mode)

/-- Write a file, behind its contents if `append` is set. -/
def write (tree : FileTree) (directory : Names) (path : String) (append : Bool)
    (content : List UInt8) : Except Cause FileTree := do
  let names ← tree.writable directory path
  let (before, mode) := tree.contentAt names
  return tree.save names (if append then before ++ content else content) mode

def makeDirectory (tree : FileTree) (directory : Names) (path : String) :
    Except Cause FileTree := do
  match ← tree.place directory path false with
  | ⟨_, some _⟩ => .error .alreadyThere
  | ⟨names, none⟩ => return tree.put names (.directory directoryMode)

def isExecutableNode : Node → Bool
  | .file _ mode => mode &&& 0o111 != 0
  | .program _ => true
  | _ => false

def isExecutable (tree : FileTree) (directory : Names) (path : String) : Bool :=
  match tree.find directory path with
  | .ok (_, node) => isExecutableNode node && !path.contains '\x00'
  | .error _ => false

/-- A path, or a name in it, as it is written. -/
abbrev Written := List Text.Point

abbrev slash : Text.Point := '/'

abbrev dot : Text.Point := '.'

/-- The names on a way from the root, the last one first. -/
abbrev Trail := List Written

/-- What resolving links has found out so far: for each link where it leads, or none as long as it
is being followed. -/
abbrev Resolved := List (Trail × Option Trail)

/-- Why links are not resolved: a link leads back to itself, and `left` is what is left of the path, or
something else happens. -/
inductive Unresolved where
  | loop (left : Written)
  | broke (accident : Accident)

/-- A path behind another one. An absolute path stays as it is. -/
def joined (path behind : Written) : Written :=
  if behind.head? = some slash then behind else path ++ slash :: behind

def Unresolved.followedBy (behind : Written) : Unresolved → Unresolved
  | loop left => loop (joined left behind)
  | broke accident => broke accident

def writtenPath (names : List Written) : Written :=
  slash :: [slash].intercalate names

/-- How many names the longest way to a node has. -/
def height (tree : FileTree) : Nat :=
  tree.nodes.foldl (fun height entry => max height entry.1.length) 0

/-- The target of a link at the end of a way. A way that is longer than all ways to nodes has
none. -/
def linkAt? (tree : FileTree) (height : Nat) (trail : Trail) : Option String :=
  if (trail.drop height).isEmpty then
    match tree.node? (trail.reverse.map fun name => spelled (.ofList name)) with
    | some (.link target) => some target
    | _ => none
  else none

/-- Why a name on a way cannot be handed over, if it cannot. Its offset is that in the whole path. -/
def unhanded? (here : Trail) (name : Written) : Option Accident :=
  let offset := (writtenPath here.reverse).length + if here.isEmpty then 0 else 1
  match handedAt offset (.ofList name) with
  | .error accident => some accident
  | .ok _ => none

/-- The place without links that a path leads to from another place, whether or not it exists. What the
search does not come to is not looked at. `height` is that of the tree. -/
def resolveFrom (tree : FileTree) (height : Nat) : (fuel : Nat) → (here : Trail) →
    (path : Written) → Resolved → Except Unresolved (Trail × Resolved)
  | 0, here, path, _ => .error (.loop (joined (writtenPath here.reverse) path))
  | _ + 1, here, [], known => .ok (here, known)
  | fuel + 1, here, c :: path, known =>
    let name := (c :: path).takeWhile (· ≠ slash)
    let behind := (c :: path).drop (name.length + 1)
    if name.isEmpty || name = [dot] then tree.resolveFrom height fuel here behind known
    else if name = [dot, dot] then tree.resolveFrom height fuel (here.drop 1) behind known
    else
      let there := name :: here
      match unhanded? here name with
      | some accident => .error (.broke accident)
      | none =>
        match tree.linkAt? height there with
        | some target =>
          match known.lookup there with
          | some (some place) => tree.resolveFrom height fuel place behind known
          -- The link is on the way to itself.
          | some none => .error (.loop (joined (writtenPath there.reverse) behind))
          | none =>
            let start := if isAbsolute target then [] else here
            let target := (Text.Wide.plain target).toList
            match tree.resolveFrom height fuel start target ((there, none) :: known) with
            | .error why => .error (why.followedBy behind)
            | .ok (place, known) =>
              tree.resolveFrom height fuel place behind ((there, some place) :: known)
        | none => tree.resolveFrom height fuel there behind known

/-- Names without those that stay where they are, and with each one that goes up taking back the name
before it. -/
def walked {α : Type} (stays goesUp : α → Bool) (names : List α) : List α :=
  names.foldl (fun done name =>
    if stays name then done else if goesUp name then done.dropLast else done ++ [name]) []

def normalized (names : List Written) : List Written :=
  walked (fun name => name.isEmpty || name = [dot]) (· = [dot, dot]) names

/-- A path in its normal form, with the slashes of its root. -/
def normalForm (path : Written) : Written :=
  (Guard.UnixPath.root (path.map Text.Point.shown)).map Text.Point.char ++
    [slash].intercalate (normalized (path.splitOn slash))

/-- The path without links that a path leads to. One that a loop of links keeps from being resolved
is only brought into its normal form. -/
def realPath (tree : FileTree) (directory : Names) (path : Text.Wide) : Except Accident Text.Wide :=
  let steps := tree.nodes.map fun entry =>
    match entry.2 with
    | .link target => target.length + 2
    | _ => 0
  let fuel := steps.foldl (· + ·) path.toList.length + 2
  let start := if path.toList.head? = some slash then []
    else directory.reverse.map fun name => name.toList.map Text.Point.char
  match tree.resolveFrom tree.height fuel start path.toList [] with
  | .ok (trail, _) => .ok (.ofList (writtenPath trail.reverse))
  | .error (.loop left) => .ok (.ofList (normalForm left))
  | .error (.broke accident) => .error accident

end FileTree

end ContractInspector.Machine
