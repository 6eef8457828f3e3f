import ContractInspector.Number.Binary64

/-! Times in seconds. -/
namespace ContractInspector.Number

inductive Seconds where
  | whole (seconds : Int)
  | real (seconds : Binary64)
deriving DecidableEq

namespace Seconds

def text : Seconds → String
  | whole seconds => toString seconds
  | real seconds => seconds.text

/-- The time in thousandths of a second, cut off. Only a finite time lasts. -/
def milliseconds : Seconds → Int
  | whole seconds => 1000 * seconds
  | real (.finite negative significand exponent) =>
    let size := (1000 * significand * (2 : Rat) ^ exponent).floor
    if negative then -size else size
  | real (.infinity _) | real .undefined => 0

end Seconds

end ContractInspector.Number
