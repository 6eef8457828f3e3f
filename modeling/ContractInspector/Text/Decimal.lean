import ContractInspector.Text.Character

/-! Numbers written in decimal digits of any digit system. Only numbers of a bounded length are
read. -/
namespace ContractInspector.Text

/-- The number written by decimal digits, most significant first. -/
def decimal (digits : List Char) : Nat :=
  digits.foldl (fun n c => 10 * n + (digitValue? c).getD 0) 0

/-- The most digits that a number is read with. -/
def maxDigits : Nat := 4300

/-- A number with more digits than are read. -/
structure LongNumber where
  digits : Nat
deriving DecidableEq

def LongNumber.message (fault : LongNumber) : String :=
  "Exceeds the limit (" ++ toString maxDigits ++ " digits) for integer string conversion: value " ++
    "has " ++ toString fault.digits ++
    " digits; use sys.set_int_max_str_digits() to increase the limit"

/-- Read a number. Leading zeros count as digits, too. -/
def readDecimal (digits : List Char) : Except LongNumber Nat :=
  if maxDigits < digits.length then .error ⟨digits.length⟩ else .ok (decimal digits)

end ContractInspector.Text
