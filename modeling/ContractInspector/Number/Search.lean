/-! Searching in sorted numbers. -/
namespace ContractInspector.Number

/-- How many of the sorted numbers are at most `n`, when those before `low` are and those from
`high` on are not. -/
def countBetween (sorted : Array Nat) (n low high : Nat) : Nat :=
  if low < high then
    let middle := (low + high) / 2
    if sorted.getD middle 0 ≤ n then countBetween sorted n (middle + 1) high
    else countBetween sorted n low middle
  else low
  termination_by high - low

/-- How many of the sorted numbers are at most `n`. -/
def countUpTo (sorted : Array Nat) (n : Nat) : Nat :=
  countBetween sorted n 0 sorted.size

end ContractInspector.Number
