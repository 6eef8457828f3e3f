import ContractInspector.Json.Value

/-! Values of the wrong shape: for each bad field of an expected object what is wrong with it. -/
namespace ContractInspector.Tool

open Json (Value)

inductive Problem where
  | notText
  | notFlag
  | notFalse
  | notList
  | notObject
  | missing
  | notFields (model : String)
deriving DecidableEq

def Problem.message : Problem → String
  | notText => "Input should be a valid string [type=string_type]"
  | notFlag => "Input should be a valid boolean [type=bool_type]"
  | notFalse => "Input should be False [type=literal_error]"
  | notList => "Input should be a valid list [type=list_type]"
  | notObject => "Input should be a valid dictionary [type=dict_type]"
  | missing => "Field required [type=missing]"
  | notFields model =>
    "Input should be a valid dictionary or instance of " ++ model ++ " [type=model_type]"

/-- The problems of a value, in field order; one that concerns the whole value has no field. -/
structure ShapeFault where
  model : String
  problems : List (Option String × Problem)
deriving DecidableEq

namespace ShapeFault

def fields (fault : ShapeFault) : List String :=
  fault.problems.filterMap (·.1)

def message (fault : ShapeFault) : String :=
  let count := fault.problems.length
  let head := toString count ++ " validation error" ++ (if count = 1 then "" else "s") ++ " for " ++
    fault.model
  Text.join "\n" (head :: fault.problems.flatMap fun (field?, problem) =>
    field?.toList ++ ["  " ++ problem.message])

end ShapeFault

/-- A field that was read, or what is wrong with it. -/
abbrev Field (α : Type) := Except (String × Problem) α

/-- The problem of a field, if it has one. -/
def Field.problem? {α : Type} : Field α → Option (Option String × Problem)
  | .error (name, problem) => some (some name, problem)
  | .ok _ => none

/-- A text that may be missing or null. -/
def optionalText (name : String) : Option Value → Field (Option Text.Wide)
  | none | some .null => .ok none
  | some (.text text) => .ok (some text)
  | some _ => .error (name, .notText)

def requiredText (name : String) : Option Value → Field Text.Wide
  | none => .error (name, .missing)
  | some (.text text) => .ok text
  | some _ => .error (name, .notText)

/-- An object that may be missing, but not null. -/
def objectOrEmpty (name : String) : Option Value → Field Value
  | none => .ok (.object [])
  | some (.object members) => .ok (.object members)
  | some _ => .error (name, .notObject)

/-- An object that may be missing or null. -/
def optionalObject (name : String) : Option Value → Field (Option Value)
  | none | some .null => .ok none
  | some (.object members) => .ok (some (.object members))
  | some _ => .error (name, .notObject)

end ContractInspector.Tool
