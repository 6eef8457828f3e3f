import ContractInspector.Machine.Shell.Arithmetic
import ContractInspector.Machine.Shell.Glob
import ContractInspector.Machine.Shell.Options
import ContractInspector.Machine.Shell.State
import ContractInspector.Machine.Shell.Token

/-! Expansion: the texts that words stand for. Variables, commands and arithmetic are replaced by
their values; what was not quoted is split at blanks and stands for the names of files that fit. -/
namespace ContractInspector.Machine.Shell.Expansion

inductive Atom where
  /-- A character that stands for itself. -/
  | fixed (c : Char)
  /-- A character of the script without quotes. -/
  | bare (c : Char)
  /-- A character of a value without quotes, at which the word may be split. -/
  | loose (c : Char)
  /-- The place of a quote, so that the word is there even if it is empty. -/
  | quote
  /-- The border between two arguments. -/
  | border
deriving DecidableEq

/-- A character of the script without quotes as a part of a value. -/
def Atom.loosened : Atom → Atom
  | .bare c => .loose c
  | atom => atom

abbrev Atoms := List Atom

def ofText (quoted : Bool) (text : ByteText) : Atoms :=
  if quoted then .quote :: text.map .fixed else text.map .loose

/-- Runs a script that starts on a line and gives what it writes. -/
abbrev Runner := (line : Nat) → ByteText → Configuration → ByteText × Configuration

/-- Something expanded, or nothing if the shell has to end. -/
abbrev Expanding (α : Type) := Configuration → Option α × Configuration

def giveUp {α : Type} (message : String) (state : Configuration) : Option α × Configuration :=
  (none, state.fail 2 message)

/-- The characters at which values are split. -/
def separators (state : Configuration) : ByteText :=
  (state.value? "IFS").getD [' ', '\t', '\n']

def valueOf? (state : Configuration) (name : String) : Option ByteText :=
  let process := state.process
  match name with
  | "#" => some (toString process.arguments.length).toList
  | "?" => some (toString process.status).toList
  | "$" => some (toString process.number).toList
  | "!" => process.jobs.head?.map fun job => (toString job.number).toList
  | "-" => some (Options.shown process.options)
  | "0" => some process.name
  | "*" | "@" =>
    if process.arguments.isEmpty then none else some ([' '].intercalate process.arguments)
  | _ =>
    match name.toNat? with
    | some n => if n = 0 then some process.name else process.arguments[n - 1]?
    | none => state.value? name

/-- The arguments, each for itself or together as one text. -/
def arguments (state : Configuration) (quoted together : Bool) : Atoms :=
  let all := state.process.arguments
  if together && quoted then
    .quote :: ((separators state).take 1 |>.intercalate all).map .fixed
  else (([Atom.border].intercalate (all.map (ofText quoted))))

/-- The shortest or longest end of a text that fits a pattern is taken away. -/
def withoutEnd (pattern : List Glob) (longest : Bool) (text : ByteText) : ByteText :=
  let cuts := List.range (text.length + 1)
  let ordered := if longest then cuts else cuts.reverse
  match ordered.find? fun n => Glob.fits pattern (text.drop n) with
  | some n => text.take n
  | none => text

/-- The shortest or longest start of a text that fits a pattern is taken away. -/
def withoutStart (pattern : List Glob) (longest : Bool) (text : ByteText) : ByteText :=
  let cuts := List.range (text.length + 1)
  let ordered := if longest then cuts.reverse else cuts
  match ordered.find? fun n => Glob.fits pattern (text.take n) with
  | some n => text.drop n
  | none => text

/-- The characters of atoms, each with whether it stands for itself. -/
def globText (atoms : Atoms) : GlobText :=
  atoms.filterMap fun atom =>
    match atom with
    | .fixed c => some (c, true)
    | .bare c | .loose c => some (c, false)
    | .border => some (' ', false)
    | .quote => none

def plainText (atoms : Atoms) : ByteText :=
  (globText atoms).plain

/-- A text without its double quotes, except those behind a backslash, and without the backslashes
before closing braces. -/
def withoutQuotes : ByteText → ByteText
  | [] => []
  | '\\' :: c :: rest =>
    if c = '}' then c :: withoutQuotes rest else '\\' :: c :: withoutQuotes rest
  | c :: rest => if c = '"' then withoutQuotes rest else c :: withoutQuotes rest

/-- The word inside an expansion on a line. -/
def innerWord (quoted : Bool) (line : Nat) (text : ByteText) : Word :=
  let whole := if quoted then '"' :: withoutQuotes text ++ ['"'] else text
  match takeWord true (whole.length + 2) false line whole [] with
  | .ok (word, _) => word
  | .error _ => [⟨quoted, .text text⟩]

mutual

def word (run : Runner) : (fuel : Nat) → Word → Expanding Atoms
  | 0, _, state => (some [], state)
  | _ + 1, [], state => (some [], state)
  | fuel + 1, part :: parts, state =>
    match piece run fuel part.quoted part.piece state with
    | (none, state) => (none, state)
    | (some atoms, state) =>
      match word run fuel parts state with
      | (none, state) => (none, state)
      | (some others, state) => (some (atoms ++ others), state)

def piece (run : Runner) : (fuel : Nat) → (quoted : Bool) → Piece → Expanding Atoms
  | 0, _, _, state => (some [], state)
  | fuel + 1, quoted, part, state =>
    match part with
    | .text chars =>
      (some (if quoted then .quote :: chars.map .fixed else chars.map .bare), state)
    | .variable name =>
      if name = "@" then (some (arguments state quoted false), state)
      else if name = "*" then (some (arguments state quoted true), state)
      else
        match valueOf? state name with
        | some value => (some (ofText quoted value), state)
        | none =>
          if state.hasOption 'u' && name != "@" && name != "*" then
            giveUp (name ++ ": parameter not set") state
          else (some (ofText quoted []), state)
    | .length name =>
      match valueOf? state name with
      | some value => (some (ofText quoted (toString value.length).toList), state)
      | none =>
        if state.hasOption 'u' && name != "@" && name != "*" then
          giveUp (name ++ ": parameter not set") state
        else (some (ofText quoted ['0']), state)
    | .substitution line script =>
      let (output, state) := run line script state
      let trimmed := (output.reverse.dropWhile (· == '\n')).reverse
      (some (ofText quoted (trimmed.filter (· != '\x00'))), state)
    | .arithmetic expression =>
      let inner := innerWord true state.process.line expression
      match word run fuel inner state with
      | (none, state) => (none, state)
      | (some atoms, state) =>
        let text := plainText atoms
        match Arithmetic.evaluate text state.process.bindings state.process.constants with
        | .ok (value, bindings) =>
          (some (ofText quoted (toString value).toList),
            { state with process := { state.process with bindings } })
        | .error fault => giveUp (fault.message text) state
    | .modified name operator inner => modified run fuel quoted name operator inner state
    | .wrong => giveUp "Bad substitution" state

def modified (run : Runner) : (fuel : Nat) → (quoted : Bool) → (name operator : String) →
    ByteText → Expanding Atoms
  | 0, _, _, _, _, state => (some [], state)
  | fuel + 1, quoted, name, operator, inner, state =>
    let value := valueOf? state name
    let isMissing :=
      if operator.toList.head? = some ':' then value.getD [] == [] else value.isNone
    let usual : Atoms :=
      if name = "@" || name = "*" then arguments state quoted (name == "*")
      else ofText quoted (value.getD [])
    let replacement : Expanding Atoms := fun state =>
      match word run fuel (innerWord quoted state.process.line inner) state with
      | (some atoms, state) => (some (atoms.map Atom.loosened), state)
      | (none, state) => (none, state)
    match operator.toList.getLast? with
    | some '-' => if isMissing then replacement state else (some usual, state)
    | some '+' =>
      if isMissing then (some (if quoted then [.quote] else []), state) else replacement state
    | some '=' =>
      if isMissing then
        match replacement state with
        | (some atoms, state) =>
          let text := plainText atoms
          match state.store name text with
          | .ok state => (some (ofText quoted text), state)
          | .error message => giveUp message state
        | (none, state) => (none, state)
      else (some usual, state)
    | some '?' =>
      if isMissing then
        match replacement state with
        | (some atoms, state) =>
          let text := ByteText.toString (plainText atoms)
          let message :=
            if !inner.isEmpty then text
            else if operator = ":?" then "parameter not set or null"
            else "parameter not set"
          giveUp (name ++ ": " ++ message) state
        | (none, state) => (none, state)
      else (some usual, state)
    | _ =>
      if value.isNone && state.hasOption 'u' && name != "@" && name != "*" then
        giveUp (name ++ ": parameter not set") state
      else
      match word run fuel (innerWord false state.process.line inner) state with
      | (none, state) => (none, state)
      | (some atoms, state) =>
        let text := globText atoms
        let pattern := Glob.ofText text.length text
        let value := value.getD []
        let longest := operator.length = 2
        let cut :=
          if operator.toList.head? = some '#' then withoutStart pattern longest value
          else withoutEnd pattern longest value
        (some (ofText quoted cut), state)

end

/-- A field that is being put together, in reverse order, and whether it is there at all. -/
structure Field where
  text : GlobText := []
  isThere : Bool := false

/-- The fields so far, last first, and the one that is being put together. -/
structure Fields where
  finished : List GlobText := []
  current : Field := {}
  /-- The last field was ended by a separator that is no blank. -/
  isAfterSeparator : Bool := false

namespace Fields

/-- End the current field if it is there. -/
def close (fields : Fields) : Fields :=
  if fields.current.isThere || !fields.current.text.isEmpty then
    { finished := fields.current.text.reverse :: fields.finished }
  else { fields with current := {} }

def add (fields : Fields) (c : Char) (literal : Bool) : Fields :=
  { fields with
    current := ⟨(c, literal) :: fields.current.text, true⟩
    isAfterSeparator := false }

def isBlank (c : Char) : Bool :=
  c == ' ' || c == '\t' || c == '\n'

def step (separators : ByteText) (fields : Fields) : Atom → Fields
  | .fixed c => fields.add c true
  | .bare c => fields.add c false
  | .quote => { fields with current := { fields.current with isThere := true } }
  | .border => { fields.close with current := {} }
  | .loose c =>
    if !separators.contains c then fields.add c false
    else if isBlank c then fields.close
    else if fields.current.isThere then { fields.close with isAfterSeparator := true }
    else
      { fields with
        finished := if fields.isAfterSeparator || fields.finished.isEmpty then
            [] :: fields.finished else fields.finished
        isAfterSeparator := true }

end Fields

def split (separators : ByteText) (atoms : Atoms) : List GlobText :=
  (atoms.foldl (Fields.step separators) {}).close.finished.reverse

def depth : Nat := 1000

/-- A word that is nothing but the quoted list of all arguments. -/
def isArguments (text : Word) : Bool :=
  text.contains ⟨true, .variable "@"⟩ &&
    text.all fun part => part.piece == .text [] || part.piece == .variable "@"

/-- The directory of a user, or of the one who runs the shell. -/
def homeOf? (state : Configuration) (user : ByteText) : Option ByteText :=
  if user.isEmpty then state.value? "HOME"
  else if user = "root".toList then some "/root".toList
  else none

/-- A word with the directory of a user in the place of a tilde at its front. -/
def withHome (state : Configuration) : Word → Word
  | ⟨false, .text ('~' :: chars)⟩ :: parts =>
    let user := chars.takeWhile (· ≠ '/')
    let behind := chars.drop user.length
    let others := if behind.isEmpty then parts else ⟨false, .text behind⟩ :: parts
    match if behind.isEmpty && !parts.isEmpty then none else homeOf? state user with
    | some home => ⟨true, .text home⟩ :: others
    | none => ⟨false, .text ('~' :: chars)⟩ :: parts
  | parts => parts

/-- The texts that a word stands for as part of a command. -/
def fields (run : Runner) (text : Word) : Expanding (List ByteText) := fun state =>
  match word run depth (withHome state text) state with
  | (none, state) => (none, state)
  | (some atoms, state) =>
    if isArguments text && state.process.arguments.isEmpty then (some [], state)
    else
      let found := split (separators state) atoms
      if state.hasOption 'f' then (some (found.map GlobText.plain), state)
      else (some (found.flatMap (globbed state.world.tree state.process.directory)), state)

def allFields (run : Runner) : List Word → Expanding (List ByteText)
  | [], state => (some [], state)
  | text :: texts, state =>
    match fields run text state with
    | (none, state) => (none, state)
    | (some found, state) =>
      match allFields run texts state with
      | (none, state) => (none, state)
      | (some others, state) => (some (found ++ others), state)

/-- The one text that a word stands for where it is not split. -/
def single (run : Runner) (text : Word) : Expanding ByteText := fun state =>
  match word run depth (withHome state text) state with
  | (none, state) => (none, state)
  | (some atoms, state) => (some (plainText atoms), state)

/-- The pattern that a word stands for. -/
def pattern (run : Runner) (text : Word) : Expanding (List Glob) := fun state =>
  match word run depth text state with
  | (none, state) => (none, state)
  | (some atoms, state) =>
    let text := globText atoms
    (some (Glob.ofText text.length text), state)

end ContractInspector.Machine.Shell.Expansion
