import ContractInspector.Machine.Shell.Real

/-! Formatted output: escapes, and formats with their directives. -/
namespace ContractInspector.Machine.Shell.Format

def byte (n : Nat) : Char :=
  Char.ofNat (n % 256)

/-- The character that a letter behind a backslash stands for. -/
def named? : Char → Option Char
  | 'a' => some '\x07'
  | 'b' => some '\x08'
  | 'e' => some '\x1b'
  | 'f' => some '\x0c'
  | 'n' => some '\n'
  | 'r' => some '\r'
  | 't' => some '\t'
  | 'v' => some '\x0b'
  | '\\' => some '\\'
  | _ => none

def isOctal (c : Char) : Bool :=
  '0' ≤ c && c ≤ '7'

/-- The byte of some octal digits, at most `most`, and what is behind them. -/
def octal (most : Nat) (text : ByteText) : Char × ByteText :=
  let digits := (text.take most).takeWhile isOctal
  (byte (digits.foldl (fun n c => 8 * n + (c.toNat - '0'.toNat)) 0), text.drop digits.length)

/-- A text with its escapes written out, and whether it ends before its end because of `\c`. Octal
escapes start with a zero, which does not count as a digit. -/
def escaped : (fuel : Nat) → ByteText → ByteText × Bool
  | 0, _ => ([], false)
  | _ + 1, [] => ([], false)
  | fuel + 1, '\\' :: c :: rest =>
    if c = 'c' then ([], true)
    else
      let (written, rest) :=
        match named? c with
        | some d => ([d], rest)
        | none =>
          if c = '0' then
            let (d, rest) := octal 3 rest
            ([d], rest)
          else if isOctal c then
            let (d, rest) := octal 3 (c :: rest)
            ([d], rest)
          else (['\\', c], rest)
      let (others, ended) := escaped fuel rest
      (written ++ others, ended)
  | fuel + 1, c :: rest =>
    let (others, ended) := escaped fuel rest
    (c :: others, ended)

/-- What is written for some arguments with blanks between them. -/
def echo (arguments : List ByteText) : ByteText :=
  let (withEnd, arguments) :=
    match arguments with
    | ['-', 'n'] :: others => (false, others)
    | _ => (true, arguments)
  let text := [' '].intercalate arguments
  let (written, ended) := escaped (text.length + 1) text
  if withEnd && !ended then written ++ ['\n'] else written

/-- A directive: its flags, its width, its precision and its letter. -/
structure Directive where
  flags : ByteText
  width : Nat
  precision : Option Nat
  letter : Char

def Directive.padded (directive : Directive) (text : ByteText) : ByteText :=
  let padding := List.replicate (directive.width - text.length) ' '
  if directive.flags.contains '-' then text ++ padding else padding ++ text

/-- A number in a field of a width, from its sign and its digits. -/
def Directive.number (directive : Directive) (sign digits : ByteText) : ByteText :=
  let digits :=
    match directive.precision with
    | some least => List.replicate (least - digits.length) '0' ++ digits
    | none =>
      if directive.flags.contains '0' && !directive.flags.contains '-' then
        List.replicate (directive.width - digits.length - sign.length) '0' ++ digits
      else digits
  directive.padded (sign ++ digits)

def Directive.sign (directive : Directive) (negative : Bool) : ByteText :=
  if negative then ['-']
  else if directive.flags.contains '+' then ['+']
  else if directive.flags.contains ' ' then [' ']
  else []

def digits (base n : Nat) : ByteText :=
  Nat.toDigits base n

/-- The arguments that are left, the mistakes that were found in them, and the mistake in the format
if it has one. -/
structure State where
  arguments : List ByteText
  mistakes : List String := []
  wrong : Option String := none
  ended : Bool := false

/-- Take an argument; a missing one is empty. -/
def State.take (state : State) : ByteText × State :=
  match state.arguments with
  | [] => ([], state)
  | first :: others => (first, { state with arguments := others })

def State.complain (state : State) (argument : ByteText) (problem : String) : State :=
  { state with mistakes := state.mistakes ++ [ByteText.toString argument ++ ": " ++ problem] }

def outOfRange : String := "Numerical result out of range"

/-- The problem with an argument of which a front was read as a number. -/
def State.complainAbout (state : State) (argument front : ByteText) : State :=
  state.complain argument
    (if front.isEmpty then "expected numeric value" else "not completely converted")

/-- The whole number at the front of a text, and the part of the text that it was read from. -/
def leading (text : ByteText) : Int × ByteText :=
  match Arithmetic.number? text with
  | some n => (n, text)
  | none =>
    let (sign, rest) :=
      match text with
      | '-' :: rest => ((-1 : Int), rest)
      | '+' :: rest => (1, rest)
      | rest => (1, rest)
    let front := Arithmetic.leadingNumber rest
    let front := if (Arithmetic.number? front).isSome then front else front.take 1
    (sign * (Arithmetic.number? front).getD 0, front)

/-- Take an argument as a whole number between two bounds. -/
def State.takeBetween (state : State) (least greatest : Int) : Int × State :=
  match state.arguments with
  | [] => (0, state)
  | text :: others =>
    let state := { state with arguments := others }
    match text with
    | '\'' :: c :: _ => (c.toNat, state)
    | '"' :: c :: _ => (c.toNat, state)
    | _ =>
      let blankless := text.dropWhile Arithmetic.isBlank
      let (n, front) := leading blankless
      let state :=
        if n < least || greatest < n then state.complain text outOfRange
        else if blankless.isEmpty || (Arithmetic.number? blankless).isSome then state
        else state.complainAbout text front
      (max least (min n greatest), state)

def State.takeNumber (state : State) : Int × State :=
  state.takeBetween (-9223372036854775808) 9223372036854775807

def State.takeReal (state : State) : Number.Binary64 × State :=
  match state.arguments with
  | [] => (.ofDecimal false 0 0, state)
  | text :: others =>
    let state := { state with arguments := others }
    match text with
    | '\'' :: c :: _ => (.ofDecimal false c.toNat 0, state)
    | '"' :: c :: _ => (.ofDecimal false c.toNat 0, state)
    | _ =>
      let blankless := text.dropWhile Arithmetic.isBlank
      match Real.read? blankless with
      | none =>
        (.ofDecimal false 0 0,
          if blankless.isEmpty then state else state.complainAbout text [])
      | some reading =>
        (reading.number,
          if reading.outOfRange then state.complain text outOfRange
          else if reading.rest.isEmpty then state
          else state.complainAbout text text)

def Directive.write (directive : Directive) (state : State) : ByteText × State :=
  match directive.letter with
  | 's' =>
    let (text, state) := state.take
    (directive.padded (text.take (directive.precision.getD text.length)), state)
  | 'c' =>
    let (text, state) := state.take
    (directive.padded (if text.isEmpty then ['\x00'] else text.take 1), state)
  | 'b' =>
    let (text, state) := state.take
    let (written, ended) := escaped (text.length + 1) text
    (directive.padded (written.take (directive.precision.getD written.length)),
      { state with ended := state.ended || ended })
  | 'd' | 'i' =>
    let (n, state) := state.takeNumber
    (directive.number (directive.sign (n < 0)) (digits 10 n.natAbs), state)
  | 'u' | 'o' | 'x' | 'X' =>
    let (n, state) := state.takeBetween (-18446744073709551615) 18446744073709551615
    let whole := Arithmetic.bits n
    let isMarked := directive.flags.contains '#' && whole ≠ 0
    let written :=
      match directive.letter with
      | 'u' => directive.number [] (digits 10 whole)
      | 'o' => directive.number [] ((if isMarked then ['0'] else []) ++ digits 8 whole)
      | 'x' => directive.number (if isMarked then ['0', 'x'] else []) (digits 16 whole)
      | _ =>
        directive.number (if isMarked then ['0', 'X'] else [])
          ((digits 16 whole).map Char.toUpper)
    (written, state)
  | letter =>
    let (number, state) := state.takeReal
    let text := Real.unsignedText (directive.flags.contains '#') (directive.precision.getD 6)
      letter number
    let text := if letter.isUpper then text.map Char.toUpper else text
    let isWord := text.any fun c => c == 'n' || c == 'N'
    let flags := if isWord then directive.flags.filter (· ≠ '0') else directive.flags
    let whole : Directive := { directive with flags, precision := none }
    (whole.number (directive.sign (Real.isNegative number)) text, state)

/-- A number of a directive, which may be an argument. -/
def takeSize (format : ByteText) (state : State) : Option Nat × ByteText × State :=
  match format with
  | '*' :: rest =>
    let (n, state) := state.takeNumber
    (some n.toNat, rest, state)
  | _ =>
    let front := format.takeWhile Char.isDigit
    let number := if front.isEmpty then none else Arithmetic.numberIn 10 front
    (number, format.drop front.length, state)

def letters : List Char :=
  ['s', 'c', 'b', 'd', 'i', 'u', 'o', 'x', 'X', 'e', 'E', 'f', 'F', 'g', 'G']

def once : (fuel : Nat) → ByteText → State → ByteText × State
  | 0, _, state => ([], state)
  | _ + 1, [], state => ([], state)
  | fuel + 1, '%' :: '%' :: rest, state =>
    let (others, state) := once fuel rest state
    ('%' :: others, state)
  | fuel + 1, '%' :: whole, state =>
    let flags := whole.takeWhile fun c => ['-', '+', ' ', '#', '0'].contains c
    let (width, rest, state) := takeSize (whole.drop flags.length) state
    let (precision, rest, state) :=
      match rest with
      | '.' :: rest =>
        let (precision, rest, state) := takeSize rest state
        (some (precision.getD 0), rest, state)
      | _ => (none, rest, state)
    match rest with
    | letter :: rest =>
      if letters.contains letter then
        let (written, state) := Directive.write ⟨flags, width.getD 0, precision, letter⟩ state
        if state.ended then (written, state)
        else
          let (others, state) := once fuel rest state
          (written ++ others, state)
      else
        let directive := whole.take (whole.length - rest.length)
        let wrong := some ("%" ++ ByteText.toString directive ++ ": invalid directive")
        ([], { state with ended := true, wrong })
    | [] => ([], { state with ended := true, wrong := some "missing format character" })
  | fuel + 1, '\\' :: c :: rest, state =>
    let (written, rest) :=
      match named? c with
      | some d => ([d], rest)
      | none =>
        if isOctal c then
          let (d, rest) := octal 3 (c :: rest)
          ([d], rest)
        else (['\\', c], rest)
    let (others, state) := once fuel rest state
    (written ++ others, state)
  | fuel + 1, c :: rest, state =>
    let (others, state) := once fuel rest state
    (c :: others, state)

/-- Write a format again and again until the arguments are used up. A format that uses none is
written once. -/
def formatted : (fuel : Nat) → ByteText → State → ByteText × State
  | 0, _, state => ([], state)
  | fuel + 1, format, state =>
    let (written, after) := once (format.length + 1) format state
    if after.ended || after.arguments.isEmpty ||
        after.arguments.length = state.arguments.length then (written, after)
    else
      let (others, after) := formatted fuel format after
      (written ++ others, after)

/-- What is written for a format and its arguments, the mistakes in them, and whether the format has
one. -/
def print (format : ByteText) (arguments : List ByteText) : ByteText × List String × Bool :=
  let (written, state) := formatted (arguments.length + 1) format { arguments }
  (written, state.mistakes ++ state.wrong.toList, state.wrong.isSome)

end ContractInspector.Machine.Shell.Format
