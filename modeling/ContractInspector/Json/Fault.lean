import ContractInspector.Text.Basic
import ContractInspector.Text.Decimal

/-! Why a text is not read as JSON. -/
namespace ContractInspector.Json

/-- What is wrong with a text that is not JSON. -/
inductive Cause where
  | byteOrderMark
  | value
  | name
  | colon
  | comma
  | extraData
  | openText
  | control
  | escape
  | unicodeEscape
deriving DecidableEq

namespace Cause

def message : Cause → String
  | byteOrderMark => "Unexpected UTF-8 BOM (decode using utf-8-sig)"
  | value => "Expecting value"
  | name => "Expecting property name enclosed in double quotes"
  | colon => "Expecting ':' delimiter"
  | comma => "Expecting ',' delimiter"
  | extraData => "Extra data"
  | openText => "Unterminated string starting at"
  | control => "Invalid control character at"
  | escape => "Invalid \\escape"
  | unicodeEscape => "Invalid \\uXXXX escape"

end Cause

inductive Container where
  | array
  | object
deriving DecidableEq

def Container.name : Container → String
  | array => "array"
  | object => "object"

inductive Fault where
  /-- The text is not JSON, which shows at an offset. -/
  | malformed (cause : Cause) (offset : Nat)
  | longNumber (number : Text.LongNumber)
  /-- A container is inside too many others. -/
  | tooDeep (container : Container)
deriving DecidableEq

namespace Fault

/-- The place of an offset in a text: its line and its column, which count from one, and itself. -/
def place (offset : Nat) (text : List Char) : String :=
  let before := text.take offset
  let column := (before.reverse.takeWhile (· ≠ '\n')).length + 1
  "line " ++ toString (Text.lineCount before) ++ " column " ++ toString column ++ " (char " ++
    toString offset ++ ")"

/-- The fault of a text. -/
def message (fault : Fault) (text : List Char) : String :=
  match fault with
  | malformed cause offset => cause.message ++ ": " ++ place offset text
  | longNumber number => number.message
  | tooDeep container =>
    "maximum recursion depth exceeded while decoding a JSON " ++ container.name ++
      " from a unicode string"

end Fault

end ContractInspector.Json
