import Std.Data.HashSet

/-! Lists of named things of which only the first with each name counts. -/
namespace ContractInspector.Text

variable {ν α : Type} [BEq ν] [Hashable ν]

/-- The entries whose name is not in `seen` and not that of an earlier one, behind those in
`found`, which are in reverse order. -/
def firstOnto : List (ν × α) → (seen : Std.HashSet ν) → (found : List (ν × α)) → List (ν × α)
  | [], _, found => found.reverse
  | entry :: others, seen, found =>
    if seen.contains entry.1 then firstOnto others seen found
    else firstOnto others (seen.insert entry.1) (entry :: found)

/-- The first entry with each name, in their order. -/
def firstOfEach (entries : List (ν × α)) : List (ν × α) :=
  firstOnto entries ∅ []

end ContractInspector.Text
