import ContractInspector.Text.Decimal
import ContractInspector.Text.Search

/-! Locations in compiler output: `line 8`, `line 8 char 1`, `line 8, column 1` or `:8:1`, in either
case. -/
namespace ContractInspector.Diagnostic

open Text (Pattern)

structure Location where
  line : Nat
  column : Option Nat
deriving DecidableEq

/-- A captured number. -/
def number (slot : Nat) : Pattern :=
  .capture slot (.oneOrMore Text.isDigit)

/-- A location. A line in words is captured as 1 and its column as 2, a line between colons as 3 and
its column as 4. -/
def locationPattern : Pattern :=
  .orElse
    (.wordBoundary ++ .anyCase "line" ++ .space ++ number 1 ++
      .optional (.space ++ .optional (.word "," ++ .space) ++
        .orElse (.anyCase "char") (.anyCase "col" ++ .optional (.anyCase "umn")) ++ .space ++
        number 2))
    (.word ":" ++ number 3 ++ .word ":" ++ number 4)

/-- The texts of the line and of the column of the first location in a text. -/
def locationText? (text : List Char) : Option (List Char × Option (List Char)) := do
  let found ← locationPattern.search? text
  let line ← found.text? 1 <|> found.text? 3
  return (line, found.text? 2 <|> found.text? 4)

/-- The first location in a text. -/
def locate? (text : List Char) : Except Text.LongNumber (Option Location) :=
  match locationText? text with
  | none => .ok none
  | some (line, none) => do return some ⟨← Text.readDecimal line, none⟩
  | some (line, some column) => do
    let line ← Text.readDecimal line
    let column ← Text.readDecimal column
    return some ⟨line, some column⟩

/-- The first location in the first of some texts that has one. -/
def locateIn? : (texts : List (List Char)) → Except Text.LongNumber (Option Location)
  | [] => .ok none
  | text :: others =>
    match locate? text with
    | .ok none => locateIn? others
    | found => found

end ContractInspector.Diagnostic
