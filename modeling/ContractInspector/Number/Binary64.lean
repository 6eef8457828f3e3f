/-! Real numbers of 53 binary places: the nearest one to a decimal number, and the fewest decimal
digits that read back as the same one. -/
namespace ContractInspector.Number

inductive Binary64 where
  /-- The number `significand * 2 ^ exponent`, with its sign. -/
  | finite (negative : Bool) (significand : Nat) (exponent : Int)
  | infinity (negative : Bool)
  | undefined
deriving DecidableEq

/-- The natural number nearest to a nonnegative one, of two the even one. -/
def nearest (value : Rat) : Nat :=
  let low := value.floor
  let part := value - low
  let up := 1 / 2 < part || (part == 1 / 2 && low % 2 == 1)
  (if up then low + 1 else low).toNat

/-- The greatest `e` with `base ^ e ≤ value`, for a positive value. -/
def exponentOf (base : Nat) (value : Rat) : Int :=
  let guess : Int := (Nat.log2 value.num.toNat : Int) - Nat.log2 value.den
  let start : Int := if base = 2 then guess - 1 else (guess - 1) * 30103 / 100000 - 1
  let steps := (List.range 6).filter fun (n : Nat) => ((base : Rat) ^ (start + n)) ≤ value
  start + (steps.getLast?.getD 0 : Nat)

namespace Binary64

/-- Numbers below the least exponent share it, so they have fewer places. -/
def leastExponent : Int := -1074

def greatestExponent : Int := 971

/-- The least significand that has all 53 places, `2 ^ 52`; twice as much has one place too many. -/
def leastFull : Nat := 4503599627370496

/-- The nearest number to a nonnegative value with the given sign. -/
def ofRat (negative : Bool) (value : Rat) : Binary64 :=
  if value = 0 then finite negative 0 leastExponent
  else
    let exponent := max (exponentOf 2 value - 52) leastExponent
    let significand := nearest (value / (2 : Rat) ^ exponent)
    let full := significand == 2 * leastFull
    let exponent := if full then exponent + 1 else exponent
    if greatestExponent < exponent then infinity negative
    else finite negative (if full then leastFull else significand) exponent

/-- The nearest number to `digits * 10 ^ power`. Far outside the range the power need not be
computed: the number is zero or infinite. -/
def ofDecimal (negative : Bool) (digits : Nat) (power : Int) : Binary64 :=
  let size := (toString digits).length + power
  if digits = 0 || size < -400 then finite negative 0 leastExponent
  else if 400 < size then infinity negative
  else ofRat negative (digits * (10 : Rat) ^ power)

/-- The candidate with `count` digits for a value between two ends: the value's neighbour on the
grid `10 ^ power` that lies between the ends, of two the nearer, at a tie the even one. -/
def candidate? (value low high : Rat) (closed : Bool) (power : Int) : Option Nat :=
  let unit := (10 : Rat) ^ power
  let below := (value / unit).floor.toNat
  let fits (n : Nat) : Bool :=
    let x := n * unit
    if closed then low ≤ x && x ≤ high else low < x && x < high
  let first := nearest (value / unit)
  let second := if first = below then below + 1 else below
  if fits first then some first else if fits second then some second else none

/-- The fewest digits that read back as `significand * 2 ^ exponent`, and their power of ten. -/
def shortest (significand : Nat) (exponent : Int) : Nat × Int :=
  let unit := (2 : Rat) ^ exponent
  let value := significand * unit
  let high := value + unit / 2
  let narrow := significand == leastFull && leastExponent < exponent
  let low := value - (if narrow then unit / 4 else unit / 2)
  let closed := significand % 2 == 0
  let top := exponentOf 10 value
  let grids := (List.range 17).map fun (n : Nat) => top - (n : Int)
  let found := grids.findSome? fun power =>
    (candidate? value low high closed power).map fun digits => (digits, power)
  found.getD (significand, exponent)

/-- The digits of a number without its trailing zeros, which move into the power of ten. -/
def trimmed : Nat → Nat → Int → Nat × Int
  | 0, digits, power => (digits, power)
  | fuel + 1, digits, power =>
    if digits % 10 = 0 && digits ≠ 0 then trimmed fuel (digits / 10) (power + 1)
    else (digits, power)

/-- The text of a number: positional between `10 ^ -4` and `10 ^ 16`, with at least one decimal
place, else with an exponent of at least two digits. -/
def text : Binary64 → String
  | undefined => "nan"
  | infinity negative => if negative then "-inf" else "inf"
  | finite negative significand exponent =>
    let sign := if negative then "-" else ""
    if significand = 0 then sign ++ "0.0"
    else
      let (digits, power) := shortest significand exponent
      let (digits, power) := trimmed 400 digits power
      let shown := toString digits
      let point := power + shown.length
      let zeros (n : Int) := String.ofList (List.replicate n.toNat '0')
      if -4 < point && point ≤ 16 then
        if point ≤ 0 then sign ++ "0." ++ zeros (-point) ++ shown
        else if (shown.length : Int) ≤ point then
          sign ++ shown ++ zeros (point - shown.length) ++ ".0"
        else sign ++ String.ofList (shown.toList.take point.toNat) ++ "." ++
          String.ofList (shown.toList.drop point.toNat)
      else
        let lead := String.ofList (shown.toList.take 1)
        let more := String.ofList (shown.toList.drop 1)
        let fraction := if more.isEmpty then "" else "." ++ more
        let power := point - 1
        let size := toString power.natAbs
        sign ++ lead ++ fraction ++ "e" ++ (if power < 0 then "-" else "+") ++
          (if size.length < 2 then "0" else "") ++ size

end Binary64

end ContractInspector.Number
