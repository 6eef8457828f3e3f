import ContractInspector.Machine.Shell.Arithmetic
import ContractInspector.Number.Binary64

/-! Real numbers in formatted output: the number at the front of a text, and numbers written with so
many decimal places, with an exponent, or in the shorter of both ways. -/
namespace ContractInspector.Machine.Shell.Real

open Number (Binary64)

/-- A number that was read, what is behind it, and whether it is too great or too small to be
kept. -/
structure Reading where
  number : Binary64
  rest : ByteText
  outOfRange : Bool := false

/-- The exponent of ten at the front, with its letter, if there is one. -/
def exponent? (text : ByteText) : Option (Int × ByteText) :=
  match text with
  | c :: rest =>
    if c = 'e' || c = 'E' then
      let (negative, behind) :=
        match rest with
        | '-' :: behind => (true, behind)
        | '+' :: behind => (false, behind)
        | _ => (false, rest)
      let digits := behind.takeWhile Char.isDigit
      if digits.isEmpty then none
      else
        let size : Nat := min 100000 ((Arithmetic.numberIn 10 (digits.take 9)).getD 0)
        some (if negative then -(size : Int) else size, behind.drop digits.length)
    else none
  | [] => none

/-- A number is infinite, or so small that it has lost some of its places. -/
def isOutOfRange : Binary64 → Bool
  | .finite _ significand exponent =>
    significand < Binary64.leastFull && exponent = Binary64.leastExponent && significand ≠ 0
  | .infinity _ => true
  | .undefined => false

def unsigned? (negative : Bool) (text : ByteText) : Option Reading :=
  let whole := text.takeWhile Char.isDigit
  let behind := text.drop whole.length
  let (places, behind) :=
    match behind with
    | '.' :: after => (after.takeWhile Char.isDigit, after.dropWhile Char.isDigit)
    | _ => ([], behind)
  if (whole ++ places).isEmpty then none
  else
    let digits := (Arithmetic.numberIn 10 (whole ++ places)).getD 0
    let (power, rest) := (exponent? behind).getD (0, behind)
    let number := Binary64.ofDecimal negative digits (power - places.length)
    let vanished := digits ≠ 0 && number == .finite negative 0 Binary64.leastExponent
    some ⟨number, rest, isOutOfRange number || vanished⟩

/-- The number at the front of a text, which may be written in words. -/
def read? (text : ByteText) : Option Reading :=
  let (negative, rest) :=
    match text with
    | '-' :: rest => (true, rest)
    | '+' :: rest => (false, rest)
    | _ => (false, text)
  let lowered := (rest.take 8).map Char.toLower
  if lowered = "infinity".toList then
    some { number := .infinity negative, rest := rest.drop 8 }
  else if lowered.take 3 = "inf".toList then
    some { number := .infinity negative, rest := rest.drop 3 }
  else if lowered.take 3 = "nan".toList then some { number := .undefined, rest := rest.drop 3 }
  else
    match rest with
    | '0' :: x :: digits =>
      let hex := digits.takeWhile fun c => (Arithmetic.digit? c).isSome
      if (x = 'x' || x = 'X') && !hex.isEmpty then
        let value := (Arithmetic.numberIn 16 hex).getD 0
        some { number := Binary64.ofDecimal negative value 0, rest := digits.drop hex.length }
      else unsigned? negative rest
    | _ => unsigned? negative rest

/-- Digits with a point before the last `places` of them. -/
def pointed (keepPoint : Bool) (digits places : Nat) : ByteText :=
  let text := (toString digits).toList
  let text := List.replicate (places + 1 - text.length) '0' ++ text
  let whole := text.take (text.length - places)
  let behind := text.drop (text.length - places)
  whole ++ if behind.isEmpty && !keepPoint then [] else '.' :: behind

def fixed (keepPoint : Bool) (places : Nat) (value : Rat) : ByteText :=
  pointed keepPoint (Number.nearest (value * (10 : Rat) ^ places)) places

/-- The digits of a value, one of them before the point, and its exponent. -/
def scaled (places : Nat) (value : Rat) : Nat × Int :=
  if value = 0 then (0, 0)
  else
    let exponent := Number.exponentOf 10 value
    let digits := Number.nearest (value / (10 : Rat) ^ (exponent - (places : Int)))
    if (toString digits).length = places + 1 then (digits, exponent)
    else (digits / 10, exponent + 1)

def scientific (keepPoint : Bool) (places : Nat) (value : Rat) : ByteText :=
  let (digits, exponent) := scaled places value
  let size := (toString exponent.natAbs).toList
  pointed keepPoint digits places ++ ['e', if exponent < 0 then '-' else '+'] ++
    (if size.length < 2 then '0' :: size else size)

def trimmed (text : ByteText) : ByteText :=
  let front := text.takeWhile (· ≠ 'e')
  let behind := text.drop front.length
  let front :=
    if front.contains '.' then
      (((front.reverse.dropWhile (· == '0')).dropWhile (· == '.'))).reverse
    else front
  front ++ behind

/-- A value in the shorter of both ways. -/
def general (keepPoint : Bool) (precision : Nat) (value : Rat) : ByteText :=
  let precision := max 1 precision
  let exponent := (scaled (precision - 1) value).2
  let text :=
    if -4 ≤ exponent && exponent < precision then
      fixed keepPoint (precision - 1 - exponent).toNat value
    else scientific keepPoint (precision - 1) value
  if keepPoint then text else trimmed text

/-- The text of a number without its sign, in the way that a letter names. -/
def unsignedText (keepPoint : Bool) (precision : Nat) (letter : Char) : Binary64 → ByteText
  | .undefined => "nan".toList
  | .infinity _ => "inf".toList
  | .finite _ significand exponent =>
    let value := significand * (2 : Rat) ^ exponent
    match letter.toLower with
    | 'f' => fixed keepPoint precision value
    | 'e' => scientific keepPoint precision value
    | _ => general keepPoint precision value

def isNegative : Binary64 → Bool
  | .finite negative _ _ | .infinity negative => negative
  | .undefined => false

end ContractInspector.Machine.Shell.Real
