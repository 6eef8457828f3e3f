import ContractInspector.Host.Fault
import ContractInspector.Text.Decimal
import ContractInspector.Text.Utf8

/-! Accidents, which nothing here expects, replies of the host, which are what was asked for, a fault, or
an accident, and a file system as its readers see it. -/
namespace ContractInspector

/-- An accident that no refusal describes. -/
inductive Accident where
  /-- A path holds the null character. -/
  | nullInPath
  /-- A text has no bytes in UTF-8. -/
  | unencodable (fault : Text.Unencodable)
  /-- The version text of a compiler is not UTF-8. -/
  | undecodable (fault : Text.Utf8.Fault)
  /-- A number in the words of a compiler is too long. -/
  | longNumber (number : Text.LongNumber)
  | other (text : String)
deriving DecidableEq

def Accident.message : Accident → String
  | nullInPath => "embedded null byte"
  | unencodable fault => fault.message
  | undecodable fault => fault.message
  | longNumber number => number.message
  | other text => text

namespace Host

/-- The answer to a request that can fail. -/
inductive Reply (α : Type) where
  | done (answer : α)
  | failed (fault : Fault)
  | broke (accident : Accident)

/-- A file system as its readers see it. -/
structure FileView where
  /-- The absolute path without symbolic links that a path leads to, or what came in between. -/
  realPath : Text.Wide → Except Accident Text.Wide
  /-- The contents of a file. -/
  read : Text.Wide → Reply (List UInt8)

end Host

end ContractInspector
