import ContractInspector.Machine.Shell.Builtin.Basic

/-! The commands of the shell that deal with its variables and options. -/
namespace ContractInspector.Machine.Shell.Builtin

/-- The variables as commands that bring them back, each behind a word. A variable that has only
been marked has no value. -/
def listing (word : String) (names : List String) (state : Configuration) : ByteText :=
  let entries := names.map fun name => (name, (state.value? name).getD [])
  (Bindings.byName entries).flatMap fun (name, value) =>
    let shown :=
      if (state.value? name).isSome then '=' :: ByteText.quoted value else []
    word.toList ++ ByteText.ofString name ++ shown ++ ['\n']

/-- Mark each of some variables and give it a value if there is one. -/
def markAll (mark : String → Configuration → Configuration) : Action
  | [], state => succeed state
  | argument :: others, state =>
    let (name, value?) := splitAssignment argument
    if !isName name.toList then reject (name ++ ": bad variable name") state
    else
      match value?.elim (.ok state) (state.store name) with
      | .ok state => markAll mark others (mark name state)
      | .error message => reject message state

/-- Declare variables that programs get, too, or list them. -/
def exportNames : Action := fun arguments state =>
  withOptions ['p'] arguments state fun letters names state =>
    if names.isEmpty || letters.contains 'p' then
      put (listing "export " state.process.exported state) state
    else markAll (fun name state => state.markExported name) names state

def markConstant (name : String) (state : Configuration) : Configuration :=
  let process := state.process
  { state with process := { process with constants := name :: process.constants } }

/-- Fix the values of variables, or list those that have fixed ones. -/
def fixNames : Action := fun arguments state =>
  withOptions ['p'] arguments state fun letters names state =>
    if names.isEmpty || letters.contains 'p' then
      put (listing "readonly " state.process.constants.eraseDups state) state
    else markAll markConstant names state

/-- Remember the value of a variable, or the options, for the end of the function. -/
def remember (name : String) (state : Configuration) : Configuration :=
  let process := state.process
  { state with
    process := { process with locals := (name, state.value? name) :: process.locals } }

/-- Declare variables that are local to the function. -/
def declareLocal : Action := fun arguments state =>
  if state.process.depth = 0 then reject "not in a function" state
  else
    let state :=
      if arguments.contains ['-'] then
        let process := state.process
        let outerOptions := process.outerOptions <|> some process.options
        { state with process := { process with outerOptions } }
      else state
    let names := arguments.filter (· ≠ ['-'])
    let state := names.foldl (fun state argument =>
      remember (splitAssignment argument).1 state) state
    markAll (fun _ state => state) names state

def unset : Action := fun arguments state =>
  withOptions ['f', 'v'] arguments state fun letters names state =>
    if letters.getLast? = some 'f' then
      let functions := state.process.functions.filter fun entry =>
        !names.contains entry.1.toList
      succeed { state with process := { state.process with functions } }
    else
      let problem? (name : ByteText) : Option String :=
        match state.store (String.ofList name) [] with
        | .ok _ => none
        | .error message => some message
      match names.findSome? problem? with
      | some message => reject message state
      | none =>
        succeed (names.foldl (fun state name => state.unset (String.ofList name)) state)

def setOption (state : Configuration) (on : Bool) (letter : Char) : Configuration :=
  let others := state.process.options.filter (· ≠ letter)
  let options := if on then letter :: others else others
  { state with process := { state.process with options } }

def setArguments (arguments : List ByteText) (state : Configuration) : Configuration :=
  { state with process := { state.process with arguments, optionPlace := none } }

/-- Turn options on or off, list variables or options, or set the arguments. -/
def set (arguments : List ByteText) (state : Configuration) : Flow × Configuration :=
  if arguments.isEmpty then put (listing "" (state.process.bindings.map (·.1)) state) state
  else turn arguments state
where
  /-- Turn options on or off as long as there are any, and take what is left as arguments. -/
  turn : Action
    | [], state => succeed state
    | ['-', '-'] :: others, state => succeed (setArguments others state)
    | ['-'] :: others, state =>
      let state := setOption (setOption state false 'x') false 'v'
      succeed (if others.isEmpty then state else setArguments others state)
    | ['-', 'o'] :: [], state => put (Options.table state.process.options) state
    | ['+', 'o'] :: [], state => put (Options.commands state.process.options) state
    | ['-', 'o'] :: name :: others, state => turnNamed true name others state
    | ['+', 'o'] :: name :: others, state => turnNamed false name others state
    | (sign :: letter :: letters) :: others, state =>
      if sign = '-' || sign = '+' then
        match (letter :: letters).find? fun letter => !Options.letters.contains letter with
        | some wrong => reject ("Illegal option -" ++ ByteText.toString [wrong]) state
        | none =>
          turn others ((letter :: letters).foldl (setOption · (sign = '-')) state)
      else succeed (setArguments ((sign :: letter :: letters) :: others) state)
    | others, state => succeed (setArguments others state)
  /-- Turn an option on or off that is given by its name. -/
  turnNamed (on : Bool) (name : ByteText) (others : List ByteText) (state : Configuration) :
      Flow × Configuration :=
    match Options.all.find? (·.1.toList == name) with
    | some (_, some letter) => turn others (setOption state on letter)
    | some (_, none) => turn others state
    | none => reject ("Illegal option -o " ++ ByteText.toString name) state

def shift : Action := fun arguments state =>
  withNumber 1 arguments state fun count state =>
    if state.process.arguments.length < count then reject "can't shift that many" state
    else succeed (setArguments (state.process.arguments.drop count) state)

/-- The line at the front of a text, what is behind it, and whether it was ended. Without `raw` a
backslash keeps the next character, and one before a line end is dropped with it. The characters
come with whether a backslash stood before them. -/
def takeLine (raw : Bool) : ByteText → List (Char × Bool) × ByteText × Bool
  | [] => ([], [], false)
  | '\n' :: rest => ([], rest, true)
  | ['\\'] => if raw then ([('\\', false)], [], false) else ([], [], false)
  | '\\' :: c :: rest =>
    if raw then
      let (line, rest, ended) := takeLine raw (c :: rest)
      (('\\', false) :: line, rest, ended)
    else
      let (line, rest, ended) := takeLine raw rest
      (if c = '\n' then line else (c, true) :: line, rest, ended)
  | c :: rest =>
    let (line, rest, ended) := takeLine raw rest
    ((c, false) :: line, rest, ended)

def isSplitBlank (separators : ByteText) (entry : Char × Bool) : Bool :=
  !entry.2 && separators.contains entry.1 && [' ', '\t', '\n'].contains entry.1

/-- Distribute a line to some variables; the last one gets all that is left. -/
def distribute (separators : ByteText) :
    List String → List (Char × Bool) → Configuration → Except String Configuration
  | [], _, state => .ok state
  | [name], line, state =>
    let trimmed := (line.reverse.dropWhile (isSplitBlank separators)).reverse
    state.store name (trimmed.map (·.1))
  | name :: names, line, state => do
    let isSeparator (entry : Char × Bool) : Bool := !entry.2 && separators.contains entry.1
    let front := line.takeWhile fun entry => !isSeparator entry
    let behind := (line.drop front.length).dropWhile (isSplitBlank separators)
    let behind :=
      match behind with
      | entry :: others =>
        if isSeparator entry then others.dropWhile (isSplitBlank separators) else behind
      | [] => []
    distribute separators names behind (← state.store name (front.map (·.1)))

def read : Action := fun arguments state =>
  match arguments with
  | ['-', 'p'] :: _ :: others => readLine others state
  | _ => readLine arguments state
where
  readLine (arguments : List ByteText) (state : Configuration) : Flow × Configuration :=
    withOptions ['r'] arguments state fun letters names state =>
      if names.isEmpty then reject "arg count" state
      else
        let separators := (state.value? "IFS").getD [' ', '\t', '\n']
        let (line, rest, ended) := takeLine (letters.contains 'r') (state.pending 0).text
        let state := state.leavePending 0 rest
        let line := line.dropWhile (isSplitBlank separators)
        match distribute separators (names.map String.ofList) line state with
        | .ok state => giveStatus (if ended then 0 else 1) state
        | .error message => reject message state

/-- What the search for the next option among arguments has found. -/
structure FoundOption where
  letter : Char := '?'
  value : Option ByteText := none
  problem : Option String := none
  /-- The number of the argument at which the search goes on; or else how far it has come in the
  argument before that one. -/
  place : Nat × Nat
  isEnd : Bool := false

/-- Look for the next option at a place among arguments. In `accepted` a colon behind a letter tells
that the option has a value; one at the front keeps the search silent. -/
def nextOption (accepted : ByteText) (arguments : List ByteText) (place : Nat × Nat) :
    FoundOption :=
  let (next, offset) := place
  let begun := if offset = 0 then [] else (arguments[next - 2]?.getD []).drop offset
  match begun with
  | letter :: behind => found letter behind next (offset + 1)
  | [] =>
    match arguments[next - 1]? with
    | some ['-', '-'] => { place := (next + 1, 0), isEnd := true }
    | some ('-' :: letter :: behind) => found letter behind (next + 1) 2
    | _ => { place := (next, 0), isEnd := true }
where
  /-- An option with the rest of its argument. -/
  found (letter : Char) (behind : ByteText) (next offset : Nat) : FoundOption :=
    let isSilent := accepted.head? = some ':'
    let place := (next, if behind.isEmpty then 0 else offset)
    let known := if letter = ':' then [] else accepted.dropWhile (· ≠ letter)
    match known.drop 1 with
    | ':' :: _ =>
      if !behind.isEmpty then { letter, value := some behind, place := (next, 0) }
      else
        match arguments[next - 1]? with
        | some value => { letter, value := some value, place := (next + 1, 0) }
        | none =>
          if isSilent then { letter := ':', value := some [letter], place }
          else { place, problem := some ("No arg for -" ++ String.singleton letter ++ " option") }
    | _ =>
      if !known.isEmpty then { letter, value := some [], place }
      else if isSilent then { place, value := some [letter] }
      else { place, problem := some ("Illegal option -" ++ String.singleton letter) }

def getOptions : Action := fun arguments state =>
  match arguments with
  | accepted :: name :: given =>
    let all := if given.isEmpty then state.process.arguments else given
    let index := ((state.value? "OPTIND").bind natural?).getD 1
    let offset :=
      match state.process.optionPlace with
      | some (before, offset) => if before = index then offset else 0
      | none => 0
    let option := nextOption accepted all (max 1 index, offset)
    let state := option.problem.elim state fun problem =>
      state.write 2 (problem.toList ++ ['\n'])
    let state :=
      if option.isEnd then state
      else
        match option.value with
        | some value => state.assign "OPTARG" value
        | none => state.unset "OPTARG"
    let state := state.assign "OPTIND" (toString option.place.1).toList
    let process := { state.process with optionPlace := some option.place }
    match { state with process }.store (String.ofList name) [option.letter] with
    | .ok state => giveStatus (if option.isEnd then 1 else 0) state
    | .error message => reject message state
  | _ => reject "Usage: getopts optstring var [arg...]" state

/-- Let words stand for other text, or tell what they stand for. -/
def shorten : Action := fun arguments state =>
  let shown (entry : String × ByteText) : ByteText :=
    ByteText.ofString entry.1 ++ '=' :: ByteText.quoted entry.2 ++ ['\n']
  if arguments.isEmpty then put (state.process.shorthands.flatMap shown) state
  else arguments.foldl (fun (flow, state) argument =>
    match splitAssignment argument with
    | (name, some text) =>
      let shorthands := state.process.shorthands.put name text
      (flow, { state with process := { state.process with shorthands } })
    | (name, none) =>
      match state.process.shorthands.lookup name with
      | some text => (flow, state.write 1 (shown (name, text)))
      | none =>
        (flow, (state.write 2 ("alias: ".toList ++ argument ++ " not found\n".toList)).setStatus
          1)) (succeed state)

/-- Let words stand for themselves again. -/
def unshorten : Action := fun arguments state =>
  withOptions ['a'] arguments state fun letters names state =>
    if letters.contains 'a' then
      succeed { state with process := { state.process with shorthands := [] } }
    else names.foldl (fun (flow, state) argument =>
      let name := String.ofList argument
      if (state.process.shorthands.lookup name).isSome then
        let shorthands := state.process.shorthands.remove name
        (flow, { state with process := { state.process with shorthands } })
      else
        (flow, (state.write 2 ("unalias: ".toList ++ argument ++ " not found\n".toList)).setStatus
          1)) (succeed state)

end ContractInspector.Machine.Shell.Builtin
