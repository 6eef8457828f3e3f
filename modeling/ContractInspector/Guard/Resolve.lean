import ContractInspector.Guard.Content
import ContractInspector.Guard.Path
import ContractInspector.Settings
import ContractInspector.Tool.Shape

/-! Resolving the input of a tool into one checked source: either code that was sent, or a contract
file. -/
namespace ContractInspector.Guard

open Json (Value)
open Text (Wide)

structure Input where
  code : Option Wide
  filePath : Option Wide
  filename : Option Wide

namespace Input

def model : String := "ContractInput"

/-- The name under which an object gives the path of the file: the first of its two spellings. -/
def pathName (value : Value) : String :=
  if (value.member? "filePath").isNone && (value.member? "file_path").isSome then "file_path"
  else "filePath"

/-- Read an input. Members with other names are passed over. -/
def ofJson (value : Value) : Except Tool.ShapeFault Input :=
  match value with
  | .object _ =>
    let code := Tool.optionalText "code" (value.member? "code")
    let name := pathName value
    let filePath := Tool.optionalText name (value.member? name)
    let filename := Tool.optionalText "filename" (value.member? "filename")
    match code, filePath, filename with
    | .ok code, .ok filePath, .ok filename => .ok ⟨code, filePath, filename⟩
    | _, _, _ =>
      .error ⟨model, [code, filePath, filename].filterMap Tool.Field.problem?⟩
  | _ => .error ⟨model, [(none, .notFields model)]⟩

end Input

inductive Origin where
  | inline
  | file (path directory : Wide)
deriving DecidableEq

structure ContractSource where
  text : List Char
  filename : Wide
  origin : Origin

/-- Read a contract file. A file that is not UTF-8 is no text. -/
def readSource (settings : Settings) (files : Host.FileView) (given : Wide) :
    Except Failure ContractSource := do
  let path ← checkUnixPath files given
  match files.read path with
  | .failed fault => .error (.refused (.unreadable given fault))
  | .broke accident => .error (.broken accident)
  | .done bytes =>
    match Text.Utf8.decode bytes with
    | .error _ => .error (.refused .fileNotText)
    | .ok decoded =>
      let text := Text.withNewlines decoded
      if !isText text then .error (.refused .fileNotText)
      else
        checkSize settings.maxCodeSize text
        return ⟨text, UnixPath.fileName path, .file path (UnixPath.directory path)⟩

/-- Check code that was sent. Its size is that of its bytes, which halves do not have. -/
def inlineSource (settings : Settings) (code : Wide) (filename : Option Wide) :
    Except Failure ContractSource :=
  match code.characters with
  | .error fault => .error (.broken (.unencodable fault))
  | .ok text => do
    checkSize settings.maxCodeSize text.toList
    if !isText text.toList then .error (.refused .codeNotText)
    else return ⟨text.toList, sanitizeFilename (filename.map (·.shown)), .inline⟩

/-- The one source of an input. An empty code or path counts as missing. -/
def resolve (settings : Settings) (files : Host.FileView) (input : Input) :
    Except Failure ContractSource :=
  match input.code.filter (!·.isEmpty), input.filePath.filter (!·.isEmpty) with
  | some _, some _ => .error (.refused .ambiguousInput)
  | none, some path => readSource settings files path
  | some code, none => inlineSource settings code input.filename
  | none, none => .error (.refused .missingInput)

/-- The local includes of a source. Code that was sent has nothing to resolve them against, so it
may have none. -/
def checkIncludes (source : ContractSource) : Except Failure (List String) :=
  let includes := localIncludes source.text
  match source.origin with
  | .inline =>
    if includes.isEmpty then .ok [] else .error (.refused (.localIncludes includes))
  | .file _ _ => .ok includes

end ContractInspector.Guard
