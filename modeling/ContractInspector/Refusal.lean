import ContractInspector.Compiler.Identity
import ContractInspector.Host.Reply
import ContractInspector.Json.Value
import ContractInspector.Language.Catalogue
import ContractInspector.Number.Seconds
import ContractInspector.Tool.Shape

/-! Refusals: why a tool does not do what it was asked for. Each cause has one report, with what is
wrong and what to do about it. -/
namespace ContractInspector

open Json (Value)

/-- Whose affair a refusal is. -/
inductive Concern where
  | security
  | user
  | environment
  | system
  | timeout
  | compilation
deriving DecidableEq

def Concern.name : Concern → String
  | security => "security_error"
  | user => "user_error"
  | environment => "environment_error"
  | system => "system_error"
  | timeout => "timeout_error"
  | compilation => "compilation_error"

inductive PathProblem where
  | relative
  | traversal
  | extension
  | systemDirectory
deriving DecidableEq

def PathProblem.message : PathProblem → String
  | relative => "File path must be absolute (e.g., /Users/you/contract.compact)"
  | traversal => "Path traversal detected - use absolute paths without ../"
  | extension => "File must have " ++ Language.fileExtension ++ " extension"
  | systemDirectory => "Cannot access files in system directories"

inductive Refusal where
  | badPath (problem : PathProblem)
  | ambiguousInput
  | missingInput
  /-- The size of the source in bytes is over the limit. -/
  | tooLarge (size : Nat) (limit : Int)
  /-- Source that was sent is not text. -/
  | codeNotText
  /-- A file is not text. -/
  | fileNotText
  | unreadable (path : Text.Wide) (fault : Host.Fault)
  | localIncludes (targets : List String)
  | blankSource
  | missingPragma
  | missingImport
  | noCompiler
  | outdated (compiler : Compiler.Identity)
  /-- The host failed at something that has to work. -/
  | hostFailure (title text : String) (fault : Host.Fault)
  | timedOut (seconds : Number.Seconds) (compiler : Compiler.Identity)
  | tooMuchOutput (limit : Int) (compiler : Compiler.Identity)
  | badArguments (fault : Tool.ShapeFault)
  /-- Something happened that nothing here expects. -/
  | unexpected (text : String)
deriving DecidableEq

/-- What is wrong and what to do about it. -/
structure UserAction where
  problem : String
  solution : String
  isUserFault : Bool := true
  fix : Option String := none
  sample : Option Value := none
  command : Option String := none
  details : Option String := none
  detectedIncludes : Option (List String) := none
  possibleCauses : Option (List String) := none

def UserAction.json (action : UserAction) : Value :=
  .present
    [("problem", some (.text action.problem)), ("solution", some (.text action.solution)),
      ("isUserFault", some (.bool action.isUserFault)), ("fix", action.fix.map .text),
      ("example", action.sample), ("command", action.command.map .text),
      ("details", action.details.map .text),
      ("detectedIncludes", action.detectedIncludes.map .texts),
      ("possibleCauses", action.possibleCauses.map .texts)]

/-- A refusal in words. `more` holds what only some refusals tell. -/
structure Report where
  concern : Concern
  title : String
  message : Text.Wide
  action : UserAction
  more : List (Text.Wide × Value) := []

namespace Refusal

def installCommand : String :=
  "curl --proto '=https' --tlsv1.2 -LsSf " ++
    "https://github.com/midnightntwrk/compact/releases/latest/download/compact-installer.sh | sh"

def installation : Value :=
  .object
    [("message",
        .text "The Compact compiler is required for contract validation. Install it with:"),
      ("command", .text installCommand),
      ("postInstall", .texts ["After installation, run: compact update",
        "Then verify with: compact compile --version"]),
      ("docs", .text "https://docs.midnight.network/develop/tutorial/building")]

/-- The problem and the solution for a fault of the host. -/
def hostAdvice (fault : Host.Fault) : String × String :=
  if fault.number = some 28 then ("Disk is full", "Free up disk space and retry")
  else if fault.isDenial then ("Permission denied", "Check file system permissions")
  else ("File system error", "Check system resources")

/-- The problem and the solution for a file that cannot be read. -/
def readAdvice (fault : Host.Fault) : String × String :=
  if fault.isAbsence then ("File does not exist", "Check that the file path is correct")
  else if fault.isDenial then ("Permission denied", "Check file permissions")
  else ("Cannot read file", "Check that the path points to a readable .compact file")

/-- The standard library's types, as messages list them. -/
def libraryTypeNames : String :=
  Text.join ", " (Language.libraryTypes.map (·.name))

/-- What is known of a compiler that was found. -/
def found (compiler : Compiler.Identity) : List (Text.Wide × Value) :=
  [("compilerInstalled", .bool true), ("compilerVersion", .text compiler.version)]

def located (compiler : Compiler.Identity) : List (Text.Wide × Value) :=
  found compiler ++ [(Text.Wide.plain "compilerPath", Value.text compiler.path)]

def report : Refusal → Report
  | badPath problem =>
    { concern := .security
      title := "Invalid file path"
      message := problem.message
      action :=
        { problem := problem.message
          solution := "Provide an absolute path to a .compact file in your project directory"
          sample := some (.object
            [("filePath", .text "/Users/you/projects/myapp/contract.compact")]) } }
  | ambiguousInput =>
    { concern := .user
      title := "Ambiguous input"
      message := "Provide either 'code' or 'filePath', not both"
      action :=
        { problem := "Both a code string and a file path were provided"
          solution := "Send the contract source as 'code' OR point to it with 'filePath'" } }
  | missingInput =>
    { concern := .user
      title := "No contract provided"
      message := "Must provide either 'code' or 'filePath'"
      action :=
        { problem := "Neither code string nor file path was provided"
          solution := "Provide the contract source code OR a path to a .compact file"
          sample := some (.object
            [("withCode",
                .object [("code", .text "pragma language_version >= 0.16; ...")]),
              ("withFile", .object [("filePath", .text "/path/to/contract.compact")])]) } }
  | tooLarge size limit =>
    { concern := .user
      title := "Contract code too large"
      message := "Contract code exceeds maximum size"
      action :=
        { problem := "Contract is " ++ Text.tenths size 1024 ++ "KB, maximum is " ++
            toString (limit / 1024) ++ "KB"
          solution := "Reduce contract size or split into multiple files" } }
  | codeNotText =>
    { concern := .user
      title := "Invalid code content"
      message := "Code contains invalid characters"
      action :=
        { problem := "The provided code contains binary or non-printable characters"
          solution := "Provide valid UTF-8 Compact source code" } }
  | fileNotText =>
    { concern := .user
      title := "Invalid file content"
      message := "File appears to be binary or contains invalid characters"
      action :=
        { problem := "The file is not a valid UTF-8 text file"
          solution := "Ensure you're pointing to a Compact source file (.compact), " ++
            "not a compiled binary" } }
  | unreadable path fault =>
    { concern := .user
      title := "Failed to read file"
      message := "Cannot read file: " ++ path
      action :=
        { problem := (readAdvice fault).1
          solution := (readAdvice fault).2
          details := some ((fault.name?.getD "None") ++ ": " ++ fault.text) } }
  | localIncludes targets =>
    { concern := .user
      title := "Local includes detected"
      message := "Contract has local file includes that cannot be resolved"
      action :=
        { problem := "Contract includes local files: " ++ Text.join ", " targets
          solution := "Use filePath instead of code when your contract has local includes, " ++
            "so relative paths can be resolved"
          detectedIncludes := some targets
          sample := some (.object
            [("instead", .text "\x7b code: \"include \\\"utils.compact\\\"; ...\" \x7d"),
              ("use", .text "\x7b filePath: \"/path/to/your/contract.compact\" \x7d")]) } }
  | blankSource =>
    { concern := .user
      title := "Empty contract code provided"
      message := "No contract code to validate"
      action :=
        { problem := "The contract code is empty or contains only whitespace"
          solution := "Provide valid Compact contract source code"
          sample := some (.text Language.Snippet.minimalContract.text) } }
  | missingPragma =>
    { concern := .user
      title := "Missing pragma directive"
      message := "Contract is missing required pragma directive"
      action :=
        { problem := "All Compact contracts must start with a pragma language_version directive"
          solution := "Add pragma directive at the beginning of your contract"
          fix := some ("Add: pragma language_version >= " ++
            Language.versionText Language.earliestVersion ++ ";")
          sample := some (.text Language.Snippet.pragmaHeader.text) }
      more := [("detectedIssues", .texts ["Missing pragma language_version directive"])] }
  | missingImport =>
    { concern := .user
      title := "Missing standard library import"
      message := "Contract uses standard library types without importing them"
      action :=
        { problem := "You're using types like " ++ libraryTypeNames ++
            " without importing the standard library"
          solution := "Add the import statement after your pragma directive"
          fix := some ("Add: import " ++ Language.libraryModule ++ ";")
          sample := some (.text Language.Snippet.importHeader.text) }
      more := [("detectedIssues", .texts
        ["Uses standard library types (" ++ libraryTypeNames ++ ")",
          "Missing: import " ++ Language.libraryModule ++ ";"])] }
  | noCompiler =>
    { concern := .environment
      title := "Compact compiler not found"
      message := "Compact compiler is not installed"
      action :=
        { problem := "The Compact compiler is not installed on this system"
          solution := "Install the compiler using the command above, then retry validation"
          isUserFault := false
          command := some installCommand }
      more := [("compilerInstalled", .bool false), ("installation", installation)] }
  | outdated compiler =>
    { concern := .environment
      title := "Compiler version too old"
      message := "Compact compiler " ++ compiler.version ++ " is outdated"
      action :=
        { problem := "Your compiler version (" ++ compiler.version ++
            ") may not support current syntax"
          solution := "Update to the latest compiler version"
          command := some "compact update"
          isUserFault := false }
      more := located compiler }
  | hostFailure title text fault =>
    { concern := .system
      title := title
      message := text
      action :=
        { problem := (hostAdvice fault).1
          solution := (hostAdvice fault).2
          isUserFault := false
          details := some fault.details }
      more := [("systemError", .object
        [("code", .textOrNull fault.name?), ("details", .text fault.details),
          ("problem", .text (hostAdvice fault).1), ("solution", .text (hostAdvice fault).2),
          ("isUserFault", .bool false)])] }
  | timedOut seconds compiler =>
    { concern := .timeout
      title := "Compilation timed out"
      message := "Compilation timed out after " ++ seconds.text ++ " seconds"
      action :=
        { problem := "The contract took too long to compile"
          solution := "Simplify the contract or check for infinite loops in circuit logic"
          possibleCauses := some
            ["Very complex contract with many circuits",
              "Recursive or deeply nested structures",
              "Large number of constraints"] }
      more := found compiler }
  | tooMuchOutput limit compiler =>
    { concern := .system
      title := "Compiler output too large"
      message := "Compiler output exceeded " ++ toString limit ++ " characters"
      action :=
        { problem := "The compiler produced more output than the service will buffer"
          solution := "Compile the contract locally to inspect the full output, " ++
            "or fix the first reported errors and retry"
          isUserFault := false }
      more := located compiler }
  | badArguments fault =>
    { concern := .user
      title := "Invalid input"
      message := "Invalid tool arguments: " ++ Text.join ", " fault.fields
      action :=
        { problem := "The tool arguments do not have the expected shape"
          solution := "Pass 'code' or 'filePath' as a string, optionally with 'filename'"
          details := some fault.message } }
  | unexpected text =>
    { concern := .system
      title := "Unexpected error"
      message := "System error: " ++ text
      action :=
        { problem := "An unexpected internal error occurred"
          solution := "Retry the request; if it keeps failing, report the error details"
          isUserFault := false
          details := some text } }

end Refusal

inductive Failure where
  | refused (refusal : Refusal)
  | misshapen (fault : Tool.ShapeFault)
  | broken (accident : Accident)
deriving DecidableEq

/-- The refusal that a failure is answered with. -/
def Failure.refusal : Failure → Refusal
  | refused refusal => refusal
  | misshapen fault => .badArguments fault
  | broken accident => .unexpected accident.message

end ContractInspector
