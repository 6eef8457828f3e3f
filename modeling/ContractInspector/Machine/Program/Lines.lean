import ContractInspector.Machine.Program.Texts
import ContractInspector.Machine.Shell.Glob

/-! The programs that work on a text line by line or character by character: they sort and thin out
lines, cut parts out of them and exchange characters. -/
namespace ContractInspector.Machine.Program

open Host (Cause)
open Shell (ByteText)

def bareLines (text : ByteText) : List ByteText :=
  (linesOf text).map fun line => if line.getLast? = some '\n' then line.dropLast else line

def sort (call : Call) : Effect :=
  let (options, paths) := call.options
  let paths := if paths.isEmpty then [['-']] else paths
  match paths.find? fun path => (call.contents path).toOption.isNone with
  | some path =>
    let cause := match call.contents path with
      | .error cause => cause.text
      | .ok _ => ""
    call.complain (call.done 0) 2 ("cannot read: " ++ ByteText.toString path ++ ": " ++ cause)
  | none =>
    let lines := paths.flatMap fun path => bareLines ((call.contents path).toOption.getD [])
    let number (line : ByteText) : Int :=
      let line := line.dropWhile fun c => c == ' ' || c == '\t'
      let digits := if line.head? = some '-' then line.drop 1 else line
      let size : Nat := (Shell.Arithmetic.numberIn 10 (digits.takeWhile Char.isDigit)).getD 0
      if line.head? = some '-' then -(size : Int) else size
    let isNumeric := options.contains 'n'
    let upTo (first second : ByteText) : Bool :=
      if isNumeric && number first != number second then number first < number second
      else !List.lex second first
    let sorted := lines.mergeSort fun first second =>
      if options.contains 'r' then upTo second first else upTo first second
    let isSame (first second : ByteText) : Bool :=
      if isNumeric then number first == number second else first == second
    let once := (sorted.splitBy isSame).filterMap List.head?
    let kept := if options.contains 'u' then once else sorted
    { call.prints (kept.flatMap (· ++ ['\n'])) with readsInput := paths.contains ['-'] }

/-- Write each of some equal lines that follow each other once. -/
def uniq (call : Call) : Effect :=
  let (options, paths) := call.options
  let path := paths.headD ['-']
  match call.contents path with
  | .error cause =>
    call.complain (call.done 0) 1 (ByteText.toString path ++ ": " ++ cause.text)
  | .ok text =>
    let groups := ((bareLines text).splitBy (· == ·)).filter fun group =>
      if options.contains 'd' then 1 < group.length
      else if options.contains 'u' then group.length = 1
      else true
    let row (group : List ByteText) : ByteText :=
      let count := (toString group.length).toList
      let shown := List.replicate (7 - count.length) ' ' ++ count ++ [' ']
      (if options.contains 'c' then shown else []) ++ group.headD [] ++ ['\n']
    { call.prints (groups.flatMap row) with readsInput := path = ['-'] }

def tee (call : Call) : Effect :=
  let (options, paths) := call.options
  let effect := call.forEach paths fun effect path =>
    match effect.tree.write call.directory (ByteText.toString path) (options.contains 'a')
        (ByteText.toBytes call.input) with
    | .ok tree => { effect with tree }
    | .error cause => call.complain effect 1 (ByteText.toString path ++ ": " ++ cause.text)
  { effect.print call.input with readsInput := true }

/-- A line that is repeated until nobody reads it any more. -/
def yes (call : Call) : Effect :=
  let words := if call.arguments.isEmpty then [['y']] else call.arguments
  let line := [' '].intercalate words ++ ['\n']
  let block := (List.replicate (65536 / line.length + 1) line).flatten
  { call.done 0 with writes := List.replicate 200 (1, block), milliseconds := 0 }

/-- The characters of a set, with its ranges, classes and escapes written out. The fuel bounds the
length of the set. -/
def setOf : (fuel : Nat) → ByteText → ByteText
  | 0, _ => []
  | _ + 1, [] => []
  | fuel + 1, '[' :: ':' :: rest =>
    let name := String.ofList (rest.takeWhile Char.isAlpha)
    let ranges := Shell.Glob.classRanges name
    if ranges.isEmpty then '[' :: setOf fuel (':' :: rest)
    else ranges.flatMap (fun range => between range.1 range.2) ++
      setOf fuel (rest.drop (name.length + 2))
  | fuel + 1, '\\' :: c :: rest =>
    match Shell.Format.named? c with
    | some d => d :: setOf fuel rest
    | none =>
      if Shell.Format.isOctal c then
        let (d, rest) := Shell.Format.octal 3 (c :: rest)
        d :: setOf fuel rest
      else c :: setOf fuel rest
  | fuel + 1, c :: '-' :: d :: rest => between c d ++ setOf fuel rest
  | fuel + 1, c :: rest => c :: setOf fuel rest
where
  between (first last : Char) : ByteText :=
    (List.range (last.toNat + 1 - first.toNat)).map fun n => Char.ofNat (first.toNat + n)

def tr (call : Call) : Effect :=
  let (options, sets) := call.options
  let removes := options.contains 'd'
  let squeezes := options.contains 's'
  let first := sets.headD []
  match sets with
  | [] => call.misused 1 "missing operand"
  | [_] =>
    if removes || squeezes then { call.prints (run options first none) with readsInput := true }
    else
      call.misused 1 ("missing operand after " ++ Call.quoted first ++
        "\nTwo strings must be given when translating.")
  | _ :: second :: others =>
    if removes && !squeezes then
      call.misused 1 ("extra operand " ++ Call.quoted second ++
        "\nOnly one string may be given when deleting without squeezing repeats.")
    else
      match others with
      | [] => { call.prints (run options first (some second)) with readsInput := true }
      | extra :: _ => call.misused 1 ("extra operand " ++ Call.quoted extra)
where
  /-- The input with its characters replaced, removed and squeezed. -/
  run (options : List Char) (first : ByteText) (second : Option ByteText) : ByteText :=
    let members := setOf (first.length + 1) first
    let others := second.map fun set => setOf (set.length + 1) set
    let isNot := options.contains 'c' || options.contains 'C'
    let isIn (c : Char) : Bool := members.contains c != isNot
    let replaced (others : ByteText) (c : Char) : Char :=
      if !isIn c then c
      else
        let place := if isNot then others.length else members.idxOf c
        (others[place]?).getD (others.getLast?.getD c)
    let text :=
      if options.contains 'd' then call.input.filter fun c => !isIn c
      else others.elim call.input fun others => call.input.map (replaced others)
    let squeezed := others.getD (if isNot then [] else members)
    if options.contains 's' then
      (text.splitBy (· == ·)).flatMap fun group =>
        if group.head?.any squeezed.contains then group.take 1 else group
    else text

/-- Whether a number is in a list of numbers and ranges, such as `1,3-5,7-`. -/
def isListed (list : ByteText) (n : Nat) : Bool :=
  (Text.splitAt ',' list).any fun range =>
    let number (text : ByteText) (usual : Nat) : Nat :=
      if text.isEmpty then usual else (Shell.Arithmetic.numberIn 10 text).getD 0
    let low := range.takeWhile (· ≠ '-')
    if low.length = range.length then n = number low 0
    else number low 1 ≤ n && n ≤ number (range.drop (low.length + 1)) n

/-- What parts of lines are asked for: a list of numbers, whether it counts fields or characters,
what separates the fields, and the files. -/
structure Selection where
  list : Option ByteText := none
  areFields : Bool := false
  separator : Char := '\t'
  paths : List ByteText := []

/-- The selection that arguments ask for; an option's value may stand beside it or follow it. -/
def Selection.ofArguments : List ByteText → Selection
  | [] => {}
  | ['-', 'd'] :: (c :: _) :: others => { Selection.ofArguments others with separator := c }
  | ('-' :: 'd' :: c :: _) :: others => { Selection.ofArguments others with separator := c }
  | ['-', 'f'] :: list :: others =>
    { Selection.ofArguments others with list := some list, areFields := true }
  | ('-' :: 'f' :: list) :: others =>
    { Selection.ofArguments others with list := some list, areFields := true }
  | ['-', 'c'] :: list :: others => { Selection.ofArguments others with list := some list }
  | ('-' :: 'c' :: list) :: others => { Selection.ofArguments others with list := some list }
  | ['-', 'b'] :: list :: others => { Selection.ofArguments others with list := some list }
  | ('-' :: 'b' :: list) :: others => { Selection.ofArguments others with list := some list }
  | path :: others =>
    let selection := Selection.ofArguments others
    { selection with paths := path :: selection.paths }

/-- The selected part of a line. A line without a separator is one field, which is always kept. -/
def Selection.part (selection : Selection) (list line : ByteText) : ByteText :=
  if selection.areFields then
    let fields := Text.splitAt selection.separator line
    if fields.length = 1 then line
    else
      let kept := fields.zipIdx.filter fun (_, n) => isListed list (n + 1)
      [selection.separator].intercalate (kept.map (·.1))
  else (line.zipIdx.filter fun (_, n) => isListed list (n + 1)).map (·.1)

/-- Write parts of the lines of files: characters, or fields with a separator between them. -/
def cut (call : Call) : Effect :=
  let selection := Selection.ofArguments call.arguments
  match selection.list with
  | none => call.misused 1 "you must specify a list of bytes, characters, or fields"
  | some list =>
    let paths := if selection.paths.isEmpty then [['-']] else selection.paths
    let effect := call.forEach paths fun effect path =>
      match call.contents path with
      | .ok text =>
        effect.print ((bareLines text).flatMap fun line => selection.part list line ++ ['\n'])
      | .error cause => call.complain effect 1 (ByteText.toString path ++ ": " ++ cause.text)
    { effect with readsInput := paths.contains ['-'] }

end ContractInspector.Machine.Program
