import ContractInspector.Text.Wide

/-! Quoted texts in messages. A text stands between single quotes, or between double quotes if it
holds single quotes and no double ones; what cannot be shown as itself is escaped. -/
namespace ContractInspector.Text

/-- A number in lower-case hexadecimal digits, filled up with zeros to a width. -/
def hexadecimal (width n : Nat) : List Char :=
  let digits := Nat.toDigits 16 n
  List.replicate (width - digits.length) '0' ++ digits

/-- The quote that a text is put between. -/
def quoteFor (text : List Char) : Char :=
  if text.contains '\'' && !text.contains '"' then '"' else '\''

/-- One character of a quoted text. -/
def escaped (quote c : Char) : List Char :=
  if c = quote || c = '\\' then ['\\', c]
  else if c = '\n' then ['\\', 'n']
  else if c = '\r' then ['\\', 'r']
  else if c = '\t' then ['\\', 't']
  else if isVisible c then [c]
  else if c.toNat < 0x100 then '\\' :: 'x' :: hexadecimal 2 c.toNat
  else if c.toNat < 0x10000 then '\\' :: 'u' :: hexadecimal 4 c.toNat
  else '\\' :: 'U' :: hexadecimal 8 c.toNat

/-- What stands at one place of a quoted text. -/
def escapedPoint (quote : Char) : Point → List Char
  | .char c => escaped quote c
  | .lone half => '\\' :: 'u' :: hexadecimal 4 (Point.lone half).number

/-- The text between quotes. -/
def quoted (text : Wide) : String :=
  let quote := quoteFor text.shown.toList
  String.ofList (quote :: text.toList.flatMap (escapedPoint quote) ++ [quote])

/-- The fault of a text that UTF-8 cannot write. -/
def Unencodable.message (fault : Unencodable) : String :=
  let place :=
    if fault.length = 1 then
      "character '" ++ String.ofList (escapedPoint '\'' (.lone fault.first)) ++ "' in position " ++
        toString fault.offset
    else
      "characters in position " ++ toString fault.offset ++ "-" ++
        toString (fault.offset + fault.length - 1)
  "'utf-8' codec can't encode " ++ place ++ ": surrogates not allowed"

end ContractInspector.Text
