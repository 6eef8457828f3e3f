import ContractInspector.Machine.Shell.Bindings

/-! Arithmetic of the shell: expressions over whole numbers of 64 bits and over variables. -/
namespace ContractInspector.Machine.Shell.Arithmetic

/-- What keeps an expression from having a value. -/
inductive Fault where
  | illegalNumber (text : ByteText)
  /-- A variable whose value is fixed is assigned to. -/
  | constant (name : String)
  /-- The expression is not written correctly, or divides by zero. -/
  | expression (problem : String)

/-- What is reported about a fault in an expression. -/
def Fault.message (text : ByteText) : Fault → String
  | illegalNumber number => "Illegal number: " ++ ByteText.toString number
  | constant name => name ++ ": is read only"
  | expression problem =>
    "arithmetic expression: " ++ problem ++ ": \"" ++ ByteText.toString text ++ "\""

/-- What is left of an expression, the variables with their values, and those whose values are
fixed. -/
structure State where
  rest : ByteText
  bindings : Bindings
  constants : List String := []

abbrev Calculation := StateT State (Except Fault)

/-- How many numbers have 64 bits, `2 ^ 64`. -/
def modulus : Nat := 18446744073709551616

/-- The number of 64 bits that a number is kept as. -/
def wrapped (n : Int) : Int :=
  Int.bmod n modulus

/-- The number of 64 bits that a written number is kept as: too great and too small ones become the
greatest and the least. -/
def kept (n : Int) : Int :=
  max (-9223372036854775808) (min n 9223372036854775807)

def isBlank (c : Char) : Bool :=
  c == ' ' || c == '\t' || c == '\n'

def skipBlanks : Calculation Unit :=
  modify fun state => { state with rest := state.rest.dropWhile isBlank }

/-- An operator may start with a character: it is no letter, digit or parenthesis. -/
def mayStartOperator (c : Char) : Bool :=
  !(c.isAlphanum || c == '(' || c == ')')

/-- Pass over one of some operators, the first that is at the front and does not start one of the
longer operators. -/
def operator? (texts longer : List String) : Calculation (Option String) := do
  skipBlanks
  let rest := (← get).rest
  let isHere (text : String) : Bool := text.toList.isPrefixOf rest
  if !rest.head?.any mayStartOperator || longer.any isHere then return none
  match texts.find? isHere with
  | some text =>
    modify fun state => { state with rest := state.rest.drop text.length }
    return some text
  | none => return none

/-- The value of a digit in numbers up to base 16. -/
def digit? (c : Char) : Option Nat :=
  if c.isDigit then some (c.toNat - '0'.toNat)
  else if 'a' ≤ c && c ≤ 'f' then some (c.toNat - 'a'.toNat + 10)
  else if 'A' ≤ c && c ≤ 'F' then some (c.toNat - 'A'.toNat + 10)
  else none

/-- The number that some digits spell. -/
def numberIn (base : Nat) (digits : ByteText) : Option Nat :=
  digits.foldl (fun value? c => do
    let value ← value?
    let digit ← digit? c
    if digit < base then some (value * base + digit) else none) (some 0)

/-- The number that a text spells, with a sign before it or not. -/
def number? (text : ByteText) : Option Int :=
  match text with
  | '-' :: digits => (natural? digits).map fun n => -(n : Int)
  | '+' :: digits => (natural? digits).map fun n => (n : Int)
  | digits => (natural? digits).map fun n => (n : Int)
where
  natural? : ByteText → Option Nat
    | [] => none
    | '0' :: 'x' :: digits => if digits.isEmpty then none else numberIn 16 digits
    | '0' :: 'X' :: digits => if digits.isEmpty then none else numberIn 16 digits
    | '0' :: digits => numberIn 8 digits
    | digits => numberIn 10 digits

/-- The digits at the front, as far as they spell a number. -/
def leadingNumber (text : ByteText) : ByteText :=
  let isHex (c : Char) : Bool := (digit? c).isSome
  let isOctal (c : Char) : Bool := '0' ≤ c && c ≤ '7'
  match text with
  | '0' :: 'x' :: rest | '0' :: 'X' :: rest => text.take (2 + (rest.takeWhile isHex).length)
  | '0' :: _ => text.takeWhile isOctal
  | _ => text.takeWhile Char.isDigit

/-- The value of a variable. One that is not set or empty counts as zero. -/
def valueOf (name : String) : Calculation Int := do
  let text := (((← get).bindings.lookup name).getD []).dropWhile isBlank
  if text.isEmpty then return 0
  match number? text with
  | some n => return kept n
  | none => throw (.illegalNumber text)

def assign (name : String) (value : Int) : Calculation Int := do
  let text := (toString value).toList
  if (← get).constants.contains name then throw (.constant name)
  modify fun state => { state with bindings := state.bindings.put name text }
  return value

/-- The operators between two operands with those of the longer ones that they start, the ones that
bind least first. -/
def levels : List (List String × List String) :=
  [(["||"], []), (["&&"], []), (["|"], ["||", "|="]), (["^"], ["^="]), (["&"], ["&&", "&="]),
    (["==", "!="], []), (["<=", ">=", "<", ">"], ["<<", ">>"]), (["<<", ">>"], ["<<=", ">>="]),
    (["+", "-"], ["+=", "-="]), (["*", "/", "%"], ["*=", "/=", "%="])]

def ofBool (flag : Bool) : Int :=
  if flag then 1 else 0

/-- The bits of a number from 64 bits. -/
def bits (n : Int) : Nat :=
  (n % modulus).toNat

def apply (sign : String) (a b : Int) : Calculation Int :=
  match sign with
  | "||" => return ofBool (a != 0 || b != 0)
  | "&&" => return ofBool (a != 0 && b != 0)
  | "|" => return wrapped (bits a ||| bits b : Nat)
  | "^" => return wrapped (bits a ^^^ bits b : Nat)
  | "&" => return wrapped (bits a &&& bits b : Nat)
  | "==" => return ofBool (a == b)
  | "!=" => return ofBool (a != b)
  | "<=" => return ofBool (a ≤ b)
  | ">=" => return ofBool (b ≤ a)
  | "<" => return ofBool (a < b)
  | ">" => return ofBool (b < a)
  | "<<" => return wrapped (a <<< (bits b % 64))
  | ">>" => return a >>> (bits b % 64)
  | "+" => return wrapped (a + b)
  | "-" => return wrapped (a - b)
  | "*" => return wrapped (a * b)
  | "/" => if b = 0 then throw (.expression "division by zero") else return wrapped (a.tdiv b)
  | "%" => if b = 0 then throw (.expression "division by zero") else return a.tmod b
  | _ => throw (.expression "expecting EOF")

/-- The name of a variable at the front. -/
def name? : Calculation (Option String) := do
  skipBlanks
  match (← get).rest with
  | c :: rest =>
    if c.isAlpha || c == '_' then
      let isInside (d : Char) : Bool := d.isAlphanum || d == '_'
      modify fun state => { state with rest := rest.dropWhile isInside }
      return some (String.ofList (c :: rest.takeWhile isInside))
    else return none
  | [] => return none

/-- The operators that assign, with the one that they apply first. -/
def assignments : List (String × String) :=
  [("<<=", "<<"), (">>=", ">>"), ("+=", "+"), ("-=", "-"), ("*=", "*"), ("/=", "/"), ("%=", "%"),
    ("&=", "&"), ("|=", "|"), ("^=", "^"), ("=", "")]

mutual

/-- An expression, which may be an assignment or a choice. -/
def expression : (fuel : Nat) → Calculation Int
  | 0 => throw (.expression "expecting primary")
  | fuel + 1 => do
    let before ← get
    match ← name? with
    | some name =>
      match ← operator? (assignments.map (·.1)) ["=="] with
      | some sign =>
        let value ← expression fuel
        match assignments.lookup sign with
        | some "" | none => assign name value
        | some first => assign name (← apply first (← valueOf name) value)
      | none =>
        set before
        choice fuel
    | none => choice fuel

def choice : (fuel : Nat) → Calculation Int
  | 0 => throw (.expression "expecting primary")
  | fuel + 1 => do
    let condition ← binary fuel levels
    match ← operator? ["?"] [] with
    | none => return condition
    | some _ =>
      let yes ← expression fuel
      match ← operator? [":"] [] with
      | none => throw (.expression "expecting ':'")
      | some _ =>
        let no ← expression fuel
        return if condition != 0 then yes else no

/-- Operands with operators of one level or a later one between them. -/
def binary : (fuel : Nat) → List (List String × List String) → Calculation Int
  | 0, _ => throw (.expression "expecting primary")
  | fuel + 1, [] => unary fuel
  | fuel + 1, level :: others => do
    let first ← binary fuel others
    binaryFrom fuel level others first

def binaryFrom : (fuel : Nat) → List String × List String → List (List String × List String) →
    Int → Calculation Int
  | 0, _, _, first => return first
  | fuel + 1, level, others, first => do
    match ← operator? level.1 level.2 with
    | none => return first
    | some sign =>
      let second ← binary fuel others
      binaryFrom fuel level others (← apply sign first second)

def unary : (fuel : Nat) → Calculation Int
  | 0 => throw (.expression "expecting primary")
  | fuel + 1 => do
    match ← operator? ["-", "+", "!", "~"] [] with
    | some "-" => return wrapped (-(← unary fuel))
    | some "!" => return ofBool ((← unary fuel) == 0)
    | some "~" => return -1 - (← unary fuel)
    | some _ => unary fuel
    | none => primary fuel

def primary : (fuel : Nat) → Calculation Int
  | 0 => throw (.expression "expecting primary")
  | fuel + 1 => do
    match ← operator? ["("] [] with
    | some _ =>
      let value ← expression fuel
      match ← operator? [")"] [] with
      | some _ => return value
      | none => throw (.expression "expecting ')'")
    | none =>
      match ← name? with
      | some name => valueOf name
      | none =>
        let digits := leadingNumber (← get).rest
        match number? digits with
        | some n =>
          modify fun state => { state with rest := state.rest.drop digits.length }
          return kept n
        | none => throw (.expression "expecting primary")

end

/-- The value of an expression, and the variables after it. -/
def evaluate (text : ByteText) (bindings : Bindings) (constants : List String) :
    Except Fault (Int × Bindings) := do
  let fuel := 20 * text.length + 20
  let (value, state) ← (expression fuel).run ⟨text, bindings, constants⟩
  if state.rest.all isBlank then return (value, state.bindings)
  else throw (.expression "expecting EOF")

end ContractInspector.Machine.Shell.Arithmetic
