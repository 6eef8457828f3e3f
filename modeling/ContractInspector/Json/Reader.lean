import ContractInspector.Json.Fault
import ContractInspector.Json.Value
import ContractInspector.Text.Cursor

/-! Reading JSON texts. Besides the standard's values the reader takes `NaN`, `Infinity` and
`-Infinity` as numbers. Each reader starts at a place and answers with what it read and the place
behind it, or with the fault that it met first. -/
namespace ContractInspector.Json

open Text (Cursor)

abbrev Read (α : Type) := Except Fault (α × Cursor)

/-- The blanks between the parts of a JSON text. -/
def isSpace (c : Char) : Bool :=
  c == ' ' || c == '\t' || c == '\n' || c == '\r'

def skipSpace (cursor : Cursor) : Cursor :=
  cursor.skipWhile isSpace

def hexDigit? (c : Char) : Option Nat :=
  if '0' ≤ c && c ≤ '9' then some (c.toNat - 48)
  else if 'a' ≤ c && c ≤ 'f' then some (c.toNat - 87)
  else if 'A' ≤ c && c ≤ 'F' then some (c.toNat - 55)
  else none

def fourDigits? : List Char → Option (Nat × List Char)
  | a :: b :: c :: d :: rest => do
    let digits ← [a, b, c, d].mapM hexDigit?
    return (digits.foldl (fun n digit => 16 * n + digit) 0, rest)
  | _ => none

def simpleEscape? : Char → Option Char
  | '"' => some '"'
  | '\\' => some '\\'
  | '/' => some '/'
  | 'b' => some '\x08'
  | 'f' => some '\x0c'
  | 'n' => some '\n'
  | 'r' => some '\r'
  | 't' => some '\t'
  | _ => none

/-- What an escape with four digits that follow at `offset` stands for, and the length of these digits.
The two halves of a surrogate pair are one character. -/
def unicodeEscape (digits : List Char) (offset : Nat) : Except Fault (Text.Point × Nat) :=
  match fourDigits? digits with
  | none => .error (.malformed .unicodeEscape (offset - 1))
  | some (_, []) => .error (.malformed .unicodeEscape (offset - 1))
  | some (high, rest) =>
    if 0xd800 ≤ high && high < 0xdc00 then
      match rest with
      | '\\' :: 'u' :: more =>
        match fourDigits? more with
        | some (low, after) =>
          if 0xdc00 ≤ low && low < 0xe000 && !after.isEmpty then
            .ok (.ofNat (0x10000 + (high - 0xd800) * 0x400 + (low - 0xdc00)), 10)
          else .ok (.ofNat high, 4)
        | none =>
          -- At the end of the text the first half is read by itself.
          if (more.drop 4).isEmpty then .ok (.ofNat high, 4)
          else .error (.malformed .unicodeEscape (offset + 5))
      | _ => .ok (.ofNat high, 4)
    else .ok (.ofNat high, 4)

/-- The characters of a text up to its closing quote; `opened` is the offset of its opening quote
and `seen` holds what was read so far, last first. -/
def readCharacters (opened : Nat) (text : List Char) (offset : Nat) (seen : List Text.Point) :
    Read Text.Wide :=
  match text with
  | [] => .error (.malformed .openText opened)
  | c :: rest =>
    if c = '"' then .ok (.ofList seen.reverse, ⟨some c, rest, offset + 1⟩)
    else if c.toNat < 32 then .error (.malformed .control offset)
    else if c = '\\' then
      match rest with
      | [] => .error (.malformed .openText opened)
      | 'u' :: digits =>
        match unicodeEscape digits (offset + 2) with
        | .error fault => .error fault
        | .ok (d, length) =>
          readCharacters opened (digits.drop length) (offset + 2 + length) (d :: seen)
      | d :: after =>
        match simpleEscape? d with
        | some e => readCharacters opened after (offset + 2) (e :: seen)
        | none => .error (.malformed .escape offset)
    else readCharacters opened rest (offset + 1) (c :: seen)
  termination_by text.length
  decreasing_by
    all_goals
      simp only [List.length_cons, List.length_drop]
      omega

def isAsciiDigit (c : Char) : Bool :=
  '0' ≤ c && c ≤ '9'

def digitsOf (text : List Char) : List Char × List Char :=
  text.span isAsciiDigit

/-- A part of a number at the front of a text, how many characters it takes, and the rest. -/
structure Part (α : Type) where
  value : α
  length : Nat
  rest : List Char

def fractionOf (text : List Char) : Part (List Char) :=
  match text with
  | '.' :: more =>
    match digitsOf more with
    | ([], _) => ⟨[], 0, text⟩
    | (digits, rest) => ⟨digits, digits.length + 1, rest⟩
  | _ => ⟨[], 0, text⟩

/-- A bound for exponents. Beyond it a number is zero or infinite, whatever its other digits. -/
def maxExponent : Nat := 1000000000000000000

/-- The size of an exponent, or the bound if it is beyond. -/
def exponentSize (digits : List Char) : Nat :=
  let significant := digits.dropWhile (· == '0')
  if 18 < significant.length then maxExponent else Text.decimal significant

def exponentOf (text : List Char) : Part (Option Int) :=
  match text with
  | e :: more =>
    if e = 'e' || e = 'E' then
      let (sign, negative, digits) :=
        match more with
        | '-' :: digits => (1, true, digits)
        | '+' :: digits => (1, false, digits)
        | digits => (0, false, digits)
      match digitsOf digits with
      | ([], _) => ⟨none, 0, text⟩
      | (found, rest) =>
        let size : Int := exponentSize found
        ⟨some (if negative then -size else size), 1 + sign + found.length, rest⟩
    else ⟨none, 0, text⟩
  | [] => ⟨none, 0, text⟩

/-- How many digits of a real number are looked at one by one. Of those behind only counts whether
they are all zero: no number in the middle between two neighbours has as many digits. -/
def maxSignificant : Nat := 800

/-- The real number with these digits, the last of which stands for `10 ^ power`. -/
def realOf (negative : Bool) (digits : List Char) (power : Int) : Number.Binary64 :=
  let digits := digits.dropWhile (· == '0')
  let front := digits.take maxSignificant
  let back := digits.drop maxSignificant
  if back.all (· == '0') then
    .ofDecimal negative (Text.decimal front) (power + back.length)
  else .ofDecimal negative (Text.decimal (front ++ ['1'])) (power + back.length - 1)

/-- The whole number at the front of a text: a zero, or digits that do not start with one. -/
def wholeOf? (text : List Char) : Option (List Char × List Char) :=
  match text with
  | '0' :: rest => some (['0'], rest)
  | _ => if (digitsOf text).1.isEmpty then none else some (digitsOf text)

def numberOf (negative : Bool) (whole fraction : List Char) (exponent? : Option Int) :
    Except Fault Value :=
  if fraction.isEmpty && exponent?.isNone then
    match Text.readDecimal whole with
    | .error number => .error (.longNumber number)
    | .ok size => .ok (.integer (if negative then -size else size))
  else
    let power := exponent?.getD 0 - fraction.length
    .ok (.real (realOf negative (whole ++ fraction) power))

def words : List (String × Value) :=
  [("null", .null), ("true", .bool true), ("false", .bool false), ("NaN", .real .undefined),
    ("Infinity", .real (.infinity false)), ("-Infinity", .real (.infinity true))]

def readNumber (cursor : Cursor) : Read Value :=
  let (sign, negative, text) :=
    match cursor.rest with
    | '-' :: text => (1, true, text)
    | text => (0, false, text)
  match wholeOf? text with
  | none => .error (.malformed .value cursor.offset)
  | some (whole, rest) =>
    let fraction := fractionOf rest
    let exponent := exponentOf fraction.rest
    let length := sign + whole.length + fraction.length + exponent.length
    match numberOf negative whole fraction.value exponent.value with
    | .error fault => .error fault
    | .ok value => .ok (value, ⟨none, exponent.rest, cursor.offset + length⟩)

def readAtom (cursor : Cursor) : Read Value :=
  let word? := words.findSome? fun (word, value) =>
    (cursor.skip? word.toList).map fun reached => (value, reached)
  match word? with
  | some found => .ok found
  | none => readNumber cursor

mutual

/-- A value that may hold containers inside one another up to a depth. The fuel bounds the number of
values and members still to be read: each character starts at most one value and one list of
items. -/
def readValue : (fuel depth : Nat) → Cursor → Read Value
  | 0, _, cursor => .error (.malformed .value cursor.offset)
  | fuel + 1, depth, cursor =>
    match cursor.rest with
    | '"' :: rest =>
      (readCharacters cursor.offset rest (cursor.offset + 1) []).map fun (text, reached) =>
        (.text text, reached)
    | '[' :: rest =>
      if depth = 0 then .error (.tooDeep .array)
      else
        let first := skipSpace (cursor.advance '[' rest 1)
        match first.rest with
        | ']' :: rest => .ok (.array [], first.advance ']' rest 1)
        | _ => readItems fuel (depth - 1) first []
    | '{' :: rest =>
      if depth = 0 then .error (.tooDeep .object)
      else
        let first := skipSpace (cursor.advance '{' rest 1)
        match first.rest with
        | '}' :: rest => .ok (.object [], first.advance '}' rest 1)
        | _ => readMembers fuel (depth - 1) first []
    | _ => readAtom cursor

/-- The items of an array from the next one on; `items` holds the earlier ones, last first. -/
def readItems : (fuel depth : Nat) → Cursor → List Value → Read Value
  | 0, _, cursor, _ => .error (.malformed .value cursor.offset)
  | fuel + 1, depth, cursor, items =>
    match readValue fuel depth cursor with
    | .error fault => .error fault
    | .ok (item, reached) =>
      let reached := skipSpace reached
      match reached.rest with
      | ']' :: rest => .ok (.array (item :: items).reverse, reached.advance ']' rest 1)
      | ',' :: rest =>
        readItems fuel depth (skipSpace (reached.advance ',' rest 1)) (item :: items)
      | _ => .error (.malformed .comma reached.offset)

/-- The members of an object from the next one on; `members` holds the earlier ones, last first. -/
def readMembers : (fuel depth : Nat) → Cursor → List (Text.Wide × Value) → Read Value
  | 0, _, cursor, _ => .error (.malformed .name cursor.offset)
  | fuel + 1, depth, cursor, members =>
    match cursor.rest with
    | '"' :: rest =>
      match readCharacters cursor.offset rest (cursor.offset + 1) [] with
      | .error fault => .error fault
      | .ok (name, reached) =>
        let reached := skipSpace reached
        match reached.rest with
        | ':' :: rest =>
          match readValue fuel depth (skipSpace (reached.advance ':' rest 1)) with
          | .error fault => .error fault
          | .ok (value, reached) =>
            let reached := skipSpace reached
            let members := (name, value) :: members
            match reached.rest with
            | '}' :: rest =>
              .ok (Value.ofMembers members.reverse, reached.advance '}' rest 1)
            | ',' :: rest =>
              readMembers fuel depth (skipSpace (reached.advance ',' rest 1)) members
            | _ => .error (.malformed .comma reached.offset)
        | _ => .error (.malformed .colon reached.offset)
    | _ => .error (.malformed .name cursor.offset)

end

/-- The value that a whole text writes. Containers stand inside one another up to a depth. -/
def read (depth : Nat) (text : List Char) : Except Fault Value :=
  if text.head? = some '\ufeff' then .error (.malformed .byteOrderMark 0)
  else
    match readValue (2 * text.length + 2) depth (skipSpace (.start text)) with
    | .error fault => .error fault
    | .ok (value, reached) =>
      let reached := skipSpace reached
      if reached.rest.isEmpty then .ok value else .error (.malformed .extraData reached.offset)

end ContractInspector.Json
