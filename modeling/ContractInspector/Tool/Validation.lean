import ContractInspector.Compiler.Run
import ContractInspector.Diagnostic.Report

/-! The validation tool: check a contract, compile it, and explain what the compiler wrote. -/
namespace ContractInspector.Tool

open Json (Value)

structure Validation where
  source : Guard.ContractSource
  localIncludes : List String
  run : Compiler.Run

/-- Validate the contract that a payload gives. Nothing is asked of the host before the contract has
passed all checks that do not need the compiler. -/
def validate (settings : Settings) (search : Compiler.SearchPath) (files : Host.FileView)
    (payload : Value) : Compiler.Attempt Validation := do
  let input ← Compiler.Attempt.settled ((Guard.Input.ofJson payload).mapError .misshapen)
  let source ← Compiler.Attempt.settled (Guard.resolve settings files input)
  let localIncludes ← Compiler.Attempt.settled (Guard.checkIncludes source)
  Compiler.Attempt.settled (Guard.precheck source.text)
  let run ← Compiler.compile settings search source
  return ⟨source, localIncludes, run⟩

namespace Validation

def contractInfo (validation : Validation) : Value :=
  .object
    [("filename", .text validation.source.filename),
      ("codeLength", .ofNat validation.source.text.length),
      ("lineCount", .ofNat (Text.lineCount validation.source.text))]

/-- The warnings of the compiler, and a note on local includes. -/
def warnings (validation : Validation) : List String :=
  let note :=
    if validation.localIncludes.isEmpty then []
    else
      ["Note: Contract has local includes (" ++ Text.join ", " validation.localIncludes ++
        ") - ensure these files exist relative to your contract"]
  Diagnostic.warnings validation.run.errors.toList ++ note

def nextSteps : List String :=
  ["The contract syntax is valid and compiles",
    "Generated files would be in the output directory",
    "You can proceed with deployment or further development"]

def successJson (validation : Validation) : Value :=
  let run := validation.run
  let includes := validation.localIncludes
  .object
    [("success", .bool true), ("errorType", .null), ("compilerInstalled", .bool true),
      ("compilerVersion", .text run.compiler.version),
      ("compilerPath", .text run.compiler.path),
      ("message", .text "Contract compiled successfully!"),
      ("output", .text
        (if run.output.isEmpty then "Compilation completed without errors" else run.output)),
      ("warnings", .texts validation.warnings),
      ("localIncludes", if includes.isEmpty then .null else .texts includes),
      ("contractInfo", validation.contractInfo), ("nextSteps", .texts nextSteps)]

/-- What the compiler wrote about a failure: its errors, or else its output, or else its status. -/
def failureText (validation : Validation) : String :=
  let run := validation.run
  if !run.errors.isEmpty then run.errors
  else if !run.output.isEmpty then run.output
  else "Compiler exited with code " ++ toString run.status

/-- The most characters of the compiler's text that a result repeats. -/
def maxRawOutput : Nat := 2000

def errors (validation : Validation) : Except Text.LongNumber (List Diagnostic) :=
  Diagnostic.errors validation.failureText.toList validation.source.text

def failureJson (validation : Validation) (errors : List Diagnostic) : Value :=
  let run := validation.run
  let text := validation.failureText.toList
  let category := Diagnostic.categorize text
  .object
    [("success", .bool false), ("errorType", .text Concern.compilation.name),
      ("error", .text category.title), ("message", .text category.title),
      ("errorCategory", category.json), ("compilerInstalled", .bool true),
      ("compilerVersion", .text run.compiler.version),
      ("compilerPath", .text run.compiler.path),
      ("errors", .array (errors.map (·.json))), ("errorCount", .ofNat errors.length),
      ("rawOutput", .text (String.ofList (text.take maxRawOutput))),
      ("contractInfo", validation.contractInfo),
      ("userAction",
        UserAction.json { problem := category.explanation, solution := category.solution }),
      ("suggestions", .texts (Diagnostic.suggestions text)),
      ("commonFixes", .array
        ((Diagnostic.commonFixes (errors.map (·.message))).map (·.json)))]

def json (validation : Validation) : Except Failure Value :=
  if validation.run.isOk then .ok validation.successJson
  else
    match validation.errors with
    | .ok errors => .ok (validation.failureJson errors)
    | .error number => .error (.broken (.longNumber number))

end Validation

/-- A validation that did not come to a run of the compiler, or whose run was given up. -/
def validationFailure (refusal : Refusal) : Value :=
  let report := refusal.report
  .object
    (("success", .bool false) :: ("errorType", .text report.concern.name) ::
      ("error", .text report.title) :: ("message", .text report.message) ::
      ("userAction", report.action.json) :: report.more)

/-- The result of the validation tool for a payload. -/
def validationResult (settings : Settings) (search : Compiler.SearchPath)
    (files : Host.FileView) (payload : Value) : Compiler.Procedure Value := do
  let outcome ← (validate settings search files payload).run
  match outcome.bind Validation.json with
  | .ok result => return result
  | .error failure => return validationFailure failure.refusal

end ContractInspector.Tool
