import ContractInspector.Refusal
import ContractInspector.Text.Search

/-! Versions of compilers: what a compiler answers when asked, and whether that is recent enough. -/
namespace ContractInspector.Compiler

open Text (Pattern)

/-- The first two numbers of a version. -/
def versionPattern : Pattern :=
  .capture 1 (.oneOrMore Text.isDigit) ++ .word "." ++ .capture 2 (.oneOrMore Text.isDigit)

/-- The first two numbers in a version text. -/
def versionNumbers? (version : String) : Except Text.LongNumber (Option (Nat × Nat)) :=
  match versionPattern.search? version.toList with
  | none => .ok none
  | some found => do
    let major ← Text.readDecimal (found.text 1)
    let minor ← Text.readDecimal (found.text 2)
    return some (major, minor)

/-- One version comes before another. -/
def isBefore (first second : Nat × Nat) : Bool :=
  first.1 < second.1 || (first.1 == second.1 && first.2 < second.2)

/-- Refuse a compiler from before the earliest supported language version. One whose version has no
numbers is accepted. -/
def checkVersion (compiler : Identity) : Except Failure Unit :=
  match versionNumbers? compiler.version with
  | .error number => .error (.broken (.longNumber number))
  | .ok none => .ok ()
  | .ok (some numbers) =>
    if isBefore numbers Language.earliestVersion then .error (.refused (.outdated compiler))
    else .ok ()

end ContractInspector.Compiler
