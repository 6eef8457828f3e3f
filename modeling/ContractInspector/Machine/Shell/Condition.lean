import ContractInspector.Machine.Shell.Arithmetic
import ContractInspector.Machine.FileTree

/-! Conditions: tests of texts, numbers and files. -/
namespace ContractInspector.Machine.Shell.Condition

/-- What a condition is looked at with: the files and the working directory. -/
structure Scene where
  tree : FileTree
  directory : Names

def unary : List String :=
  ["-n", "-z", "-e", "-f", "-d", "-r", "-w", "-x", "-s", "-L", "-h", "-t", "-p", "-S", "-b", "-c",
    "-g", "-k", "-u", "-O", "-G"]

def binary : List String :=
  ["=", "!=", "<", ">", "-eq", "-ne", "-lt", "-le", "-gt", "-ge", "-nt", "-ot", "-ef"]

def isIn (texts : List String) (text : ByteText) : Bool :=
  texts.any (·.toList == text)

def holdsFor (scene : Scene) (sign : String) (operand : ByteText) : Bool :=
  let path := ByteText.toString operand
  let node? :=
    match scene.tree.find scene.directory path with
    | .ok (_, node) => some node
    | .error _ => none
  match sign with
  | "-n" => !operand.isEmpty
  | "-z" => operand.isEmpty
  | "-f" =>
    match node? with
    | some (.file _ _) | some (.program _) => true
    | _ => false
  | "-d" =>
    match node? with
    | some (.directory _) => true
    | _ => false
  | "-c" =>
    match node? with
    | some .sink => true
    | _ => false
  | "-s" =>
    match node? with
    | some (.file content _) => !content.isEmpty
    | some .sink | none => false
    | some _ => true
  | "-x" =>
    match node? with
    | some (.directory _) => true
    | _ => scene.tree.isExecutable scene.directory path
  | "-e" | "-r" | "-w" | "-O" | "-G" => node?.isSome
  | "-L" | "-h" =>
    match scene.tree.place scene.directory path false with
    | .ok ⟨_, some (.link _)⟩ => true
    | _ => false
  | _ => false

/-- The number that an operand spells. -/
def number (operand : ByteText) : Except String Int :=
  let illegal := "Illegal number: " ++ ByteText.toString operand
  let trimmed := (operand.dropWhile Arithmetic.isBlank).reverse.dropWhile Arithmetic.isBlank
  let digits :=
    match trimmed.reverse with
    | '-' :: digits => digits
    | '+' :: digits => digits
    | digits => digits
  if !digits.isEmpty && digits.all Char.isDigit then
    let size : Nat := (Arithmetic.numberIn 10 digits).getD 0
    let value : Int := if trimmed.getLast? = some '-' then -(size : Int) else size
    if Arithmetic.kept value = value then .ok value else .error illegal
  else .error illegal

/-- Two paths lead to one place. -/
def isSame (scene : Scene) (first second : ByteText) : Bool :=
  let place (path : ByteText) : Option Names :=
    match scene.tree.find scene.directory (ByteText.toString path) with
    | .ok (names, _) => some names
    | .error _ => none
  (place first).any fun names => place second == some names

/-- A test of two operands. Files are taken to be of one age. -/
def holdsBetween (scene : Scene) (sign : String) (first second : ByteText) :
    Except String Bool := do
  match sign with
  | "=" => return first == second
  | "!=" => return first != second
  | "<" => return first < second
  | ">" => return second < first
  | "-nt" | "-ot" => return false
  | "-ef" => return isSame scene first second
  | _ =>
    let a ← number first
    let b ← number second
    return match sign with
      | "-eq" => a == b
      | "-ne" => a != b
      | "-lt" => a < b
      | "-le" => a ≤ b
      | "-gt" => b < a
      | _ => b ≤ a

/-- What a condition is worth, and the words behind it. -/
abbrev Judged := Except String (Bool × List ByteText)

/-- The message about a word that is not expected. -/
def unexpected (word : ByteText) : String :=
  ByteText.toString word ++ ": unexpected operator"

mutual

def disjunction (scene : Scene) : (fuel : Nat) → List ByteText → Judged
  | 0, _ => .error "argument expected"
  | fuel + 1, words => do
    let (first, rest) ← conjunction scene fuel words
    match rest with
    | ['-', 'o'] :: rest =>
      if rest.isEmpty then return (first, [])
      else
        let (second, rest) ← disjunction scene fuel rest
        return (first || second, rest)
    | _ => return (first, rest)

def conjunction (scene : Scene) : (fuel : Nat) → List ByteText → Judged
  | 0, _ => .error "argument expected"
  | fuel + 1, words => do
    let (first, rest) ← negation scene fuel words
    match rest with
    | ['-', 'a'] :: rest =>
      if rest.isEmpty then return (false, [])
      else
        let (second, rest) ← conjunction scene fuel rest
        return (first && second, rest)
    | _ => return (first, rest)

def negation (scene : Scene) : (fuel : Nat) → List ByteText → Judged
  | 0, _ => .error "argument expected"
  | fuel + 1, words =>
    match words with
    | ['!'] :: next :: rest =>
      if isIn binary next && !rest.isEmpty then primary scene fuel words
      else do
        let (value, rest) ← negation scene fuel (next :: rest)
        return (!value, rest)
    | _ => primary scene fuel words

def primary (scene : Scene) : (fuel : Nat) → List ByteText → Judged
  | 0, _ => .error "argument expected"
  | fuel + 1, words =>
    match words with
    | [] => .error "argument expected"
    | [word] => .ok (!word.isEmpty, [])
    | first :: sign :: others =>
      if isIn binary sign then
        match others with
        | second :: rest => do
          return (← holdsBetween scene (String.ofList sign) first second, rest)
        | [] => .error (ByteText.toString sign ++ ": argument expected")
      else if first = ['('] then do
        let (value, rest) ← disjunction scene fuel (sign :: others)
        match rest with
        | [')'] :: rest => return (value, rest)
        | _ => .error "closing paren expected"
      else if isIn unary first then .ok (holdsFor scene (String.ofList first) sign, others)
      else .ok (!first.isEmpty, sign :: others)

end

def evaluate (scene : Scene) (words : List ByteText) : Except String Bool := do
  if words.isEmpty then return false
  let (value, rest) ← disjunction scene (8 * words.length + 8) words
  match rest with
  | [] => return value
  | _ :: _ => .error (unexpected ((words.drop (words.length - rest.length - 1)).headD []))

end ContractInspector.Machine.Shell.Condition
