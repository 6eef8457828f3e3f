import ContractInspector.Machine.Permissions
import ContractInspector.Machine.Program.Basic

/-! The programs that list, make, change and remove files. -/
namespace ContractInspector.Machine.Program

open Host (Cause)
open Shell (ByteText)

/-- The lines of a directory listing. -/
def entryLines (options : List Char) (entries : List String) : ByteText :=
  let shown :=
    if options.contains 'a' then "." :: ".." :: entries
    else if options.contains 'A' then entries
    else entries.filter fun name => name.toList.head? != some '.'
  shown.flatMap fun name => ByteText.ofString name ++ ['\n']

/-- List directories. -/
def ls (call : Call) : Effect :=
  let (options, paths) := call.options
  let paths := if paths.isEmpty then [['.']] else paths.mergeSort fun a b => !List.lex b a
  let found (path : ByteText) : Except Cause (Names × Node) :=
    call.tree.find call.directory (ByteText.toString path)
  let missing := call.forEach paths fun effect path =>
    match found path with
    | .ok _ => effect
    | .error cause =>
      call.complain effect 2 ("cannot access " ++ Call.quoted path ++ ": " ++ cause.text)
  let isDirectory (path : ByteText) : Bool :=
    match found path with
    | .ok (_, .directory _) => !options.contains 'd'
    | _ => false
  let files := paths.filter fun path => (found path).isOk && !isDirectory path
  let directories := paths.filter isDirectory
  let listed := directories.map fun path =>
    let lines :=
      match found path with
      | .ok (names, _) => entryLines options (call.tree.entries names)
      | .error _ => []
    if 1 < paths.length then path ++ [':', '\n'] ++ lines else lines
  let fileLines := files.flatMap fun path => path ++ ['\n']
  let blocks := (if files.isEmpty then [] else [fileLines]) ++ listed
  missing.print (['\n'].intercalate blocks)

/-- Remove files, and directories if an option allows it. -/
def rm (call : Call) : Effect :=
  let (options, paths) := call.options
  let force := options.contains 'f'
  let recursive := options.contains 'r' || options.contains 'R'
  if paths.isEmpty then if force then call.done 0 else call.misused 1 "missing operand"
  else call.forEach paths fun effect path =>
    let problem := "cannot remove " ++ Call.quoted path
    match effect.tree.place call.directory (ByteText.toString path) false with
    | .ok ⟨names, some (.directory _)⟩ =>
      if recursive then { effect with tree := effect.tree.remove names }
      else call.complain effect 1 (problem ++ ": " ++ Cause.isDirectory.text)
    | .ok ⟨names, some _⟩ => { effect with tree := effect.tree.remove names }
    | .ok ⟨_, none⟩ =>
      if force then effect else call.complain effect 1 (problem ++ ": " ++ Cause.noEntry.text)
    | .error cause =>
      if force && cause = .noEntry then effect
      else call.complain effect 1 (problem ++ ": " ++ cause.text)

/-- Make a directory and those above it that are missing. -/
def makeParents (tree : FileTree) (directory : Names) (path : ByteText) :
    Except Cause FileTree :=
  let starts := (List.range path.length).filter fun n =>
    path[n + 1]? = some '/' && path[n]? ≠ some '/'
  let all := starts.map (fun n => path.take (n + 1)) ++ [path]
  all.foldlM (fun tree path =>
    match tree.find directory (ByteText.toString path) with
    | .ok (_, .directory _) => .ok tree
    | _ => tree.makeDirectory directory (ByteText.toString path)) tree

def mkdir (call : Call) : Effect :=
  let (options, paths) := call.options
  if paths.isEmpty then call.misused 1 "missing operand"
  else call.forEach paths fun effect path =>
    let problem := "cannot create directory " ++ Call.quoted path
    call.change effect problem
      (if options.contains 'p' then makeParents effect.tree call.directory path
      else effect.tree.makeDirectory call.directory (ByteText.toString path))

def rmdir (call : Call) : Effect :=
  call.forEach call.options.2 fun effect path =>
    let problem := "failed to remove " ++ Call.quoted path
    call.change effect problem
      (match effect.tree.place call.directory (ByteText.toString path) false with
      | .ok ⟨names, some (.directory _)⟩ =>
        if (effect.tree.entries names).isEmpty then .ok (effect.tree.remove names)
        else .error .notEmpty
      | .ok ⟨_, some _⟩ => .error .notDirectory
      | .ok ⟨_, none⟩ => .error .noEntry
      | .error cause => .error cause)

/-- Make files that are not there yet. -/
def touch (call : Call) : Effect :=
  call.forEach call.options.2 fun effect path =>
    let text := ByteText.toString path
    match effect.tree.find call.directory text with
    | .ok _ => effect
    | .error _ =>
      call.change effect ("cannot touch " ++ Call.quoted path)
        (effect.tree.write call.directory text true [])

/-- The path of a file in a directory if the target is one, or else the target itself. -/
def within (tree : FileTree) (directory : Names) (source target : ByteText) : ByteText :=
  match tree.find directory (ByteText.toString target) with
  | .ok (_, .directory _) =>
    target ++ ['/'] ++ (source.reverse.takeWhile (· ≠ '/')).reverse
  | _ => target

/-- Copy, move or link files: each source to its place in the last argument. -/
def transfer (call : Call) (one : Effect → ByteText → ByteText → Effect) : Effect :=
  let paths := call.options.2
  match paths.getLast? with
  | none => call.misused 1 "missing file operand"
  | some target =>
    if paths.length = 1 then
      call.misused 1 ("missing destination file operand after " ++ Call.quoted target)
    else call.forEach paths.dropLast fun effect source =>
      one effect source (within effect.tree call.directory source target)

def cp (call : Call) : Effect :=
  transfer call fun effect source target =>
    match effect.tree.find call.directory (ByteText.toString source) with
    | .ok (_, .directory _) =>
      call.complain effect 1 ("-r not specified; omitting directory " ++ Call.quoted source)
    | .ok (_, node) =>
      let (content, mode) :=
        match node with
        | .file content mode => (content, mode)
        | _ => ([], FileTree.fileMode)
      let problem := "cannot create regular file " ++ Call.quoted target
      match effect.tree.writable call.directory (ByteText.toString target) with
      | .error cause => call.complain effect 1 (problem ++ ": " ++ cause.text)
      | .ok names =>
        let mode :=
          if (effect.tree.node? names).isSome then (effect.tree.contentAt names).2 else mode
        { effect with tree := effect.tree.save names content mode }
    | .error cause =>
      call.complain effect 1 ("cannot stat " ++ Call.quoted source ++ ": " ++ cause.text)

def mv (call : Call) : Effect :=
  transfer call fun effect source target =>
    match effect.tree.place call.directory (ByteText.toString source) false with
    | .ok ⟨names, some _⟩ =>
      match effect.tree.place call.directory (ByteText.toString target) false with
      | .ok ⟨there, _⟩ =>
        let moved := effect.tree.nodes.filterMap fun (place, node) =>
          if names.isPrefixOf place then some (there ++ place.drop names.length, node) else none
        let others := (effect.tree.remove names).remove there
        { effect with tree := ⟨moved ++ others.nodes⟩ }
      | .error cause =>
        call.complain effect 1 ("cannot move " ++ Call.quoted source ++ " to " ++
          Call.quoted target ++ ": " ++ cause.text)
    | .ok ⟨_, none⟩ =>
      call.complain effect 1 ("cannot stat " ++ Call.quoted source ++ ": " ++ Cause.noEntry.text)
    | .error cause =>
      call.complain effect 1 ("cannot stat " ++ Call.quoted source ++ ": " ++ cause.text)

def ln (call : Call) : Effect :=
  let symbolic := call.options.1.contains 's'
  transfer call fun effect source target =>
    let problem := "failed to create " ++ (if symbolic then "symbolic" else "hard") ++ " link " ++
      Call.quoted target
    match effect.tree.place call.directory (ByteText.toString target) false with
    | .ok ⟨names, none⟩ =>
      if symbolic then
        { effect with tree := effect.tree.put names (.link (ByteText.toString source)) }
      else
        match effect.tree.find call.directory (ByteText.toString source) with
        | .ok (_, node) => { effect with tree := effect.tree.put names node }
        | .error cause =>
          call.complain effect 1
            ("failed to access " ++ Call.quoted source ++ ": " ++ cause.text)
    | .ok ⟨names, some _⟩ =>
      if symbolic && call.options.1.contains 'f' then
        { effect with tree := effect.tree.put names (.link (ByteText.toString source)) }
      else call.complain effect 1 (problem ++ ": " ++ Cause.alreadyThere.text)
    | .error cause => call.complain effect 1 (problem ++ ": " ++ cause.text)

def chmod (call : Call) : Effect :=
  match call.arguments with
  | [] => call.misused 1 "missing operand"
  | [description] =>
    call.misused 1 ("missing operand after " ++ Call.quoted description)
  | description :: paths =>
    if (Permissions.changed? call.mask description 0).isNone then
      call.misused 1 ("invalid mode: " ++ Call.quoted description)
    else call.forEach paths fun effect path =>
      match effect.tree.find call.directory (ByteText.toString path) with
      | .ok (names, .file content mode) =>
        let mode := (Permissions.changed? call.mask description mode).getD mode
        { effect with tree := effect.tree.put names (.file content mode) }
      | .ok _ => effect
      | .error cause =>
        call.complain effect 1 ("cannot access " ++ Call.quoted path ++ ": " ++ cause.text)

def basename (call : Call) : Effect :=
  match call.arguments with
  | [] => call.misused 1 "missing operand"
  | path :: others =>
    let trimmed := (path.reverse.dropWhile (· == '/')).reverse
    let name := (trimmed.reverse.takeWhile (· ≠ '/')).reverse
    let ending := others.headD []
    let name :=
      if ending.isSuffixOf name && ending.length < name.length then
        name.take (name.length - ending.length)
      else name
    call.prints ((if trimmed.isEmpty && !path.isEmpty then ['/'] else name) ++ ['\n'])

def dirname (call : Call) : Effect :=
  match call.arguments with
  | [] => call.misused 1 "missing operand"
  | path :: _ =>
    let trimmed := path.reverse.dropWhile (· == '/')
    let above := (trimmed.dropWhile (· ≠ '/')).dropWhile (· == '/')
    let name :=
      if !above.isEmpty then above.reverse
      else if path.head? = some '/' then ['/']
      else ['.']
    call.prints (name ++ ['\n'])

end ContractInspector.Machine.Program
