import ContractInspector.Json.Value

/-! JSON text of a value on one line, in ASCII: other characters are written as escapes of their
UTF-16 units. -/
namespace ContractInspector.Json

/-- One UTF-16 unit as an escape. -/
def unitEscape (unit : Nat) : List Char :=
  '\\' :: 'u' :: Text.hexadecimal 4 unit

/-- One character inside a written text. -/
def writtenChar (c : Char) : List Char :=
  if c = '"' then ['\\', '"']
  else if c = '\\' then ['\\', '\\']
  else if c = '\n' then ['\\', 'n']
  else if c = '\r' then ['\\', 'r']
  else if c = '\t' then ['\\', 't']
  else if 32 ≤ c.toNat && c.toNat < 127 then [c]
  else if c.toNat < 0x10000 then unitEscape c.toNat
  else
    let above := c.toNat - 0x10000
    unitEscape (0xd800 + above / 0x400) ++ unitEscape (0xdc00 + above % 0x400)

/-- What stands at one place of a text. -/
def writtenPoint : Text.Point → List Char
  | .char c => writtenChar c
  | .lone half => unitEscape (Text.Point.lone half).number

def writtenText (text : Text.Wide) : String :=
  String.ofList ('"' :: text.toList.flatMap writtenPoint ++ ['"'])

namespace Value

mutual

/-- The text of a value. -/
def write : Value → String
  | null => "null"
  | bool value => if value then "true" else "false"
  | integer value => toString value
  | real value => value.text
  | text value => writtenText value
  | array items => "[" ++ Text.join "," (writeItems items []) ++ "]"
  | object members => "\x7b" ++ Text.join "," (writeMembers members []) ++ "\x7d"

/-- The texts of some items, behind those in `done`, which are in reverse order. -/
def writeItems : List Value → (done : List String) → List String
  | [], done => done.reverse
  | item :: items, done => writeItems items (item.write :: done)

/-- The texts of some members, behind those in `done`, which are in reverse order. -/
def writeMembers : List (Text.Wide × Value) → (done : List String) → List String
  | [], done => done.reverse
  | (name, value) :: members, done =>
    writeMembers members ((writtenText name ++ ":" ++ value.write) :: done)

end

end Value

end ContractInspector.Json
