import ContractInspector.Refusal
import ContractInspector.Source.Mask

/-! Checking the content of a contract: its size, whether it is text, its filename, its includes,
and what would make a run of the compiler fail for sure. -/
namespace ContractInspector.Guard

open Text (Pattern)

/-- Control characters other than tabs, line feeds and carriage returns. -/
def isControl (c : Char) : Bool :=
  let n := c.toNat
  n ≤ 8 || n == 11 || n == 12 || (14 ≤ n && n ≤ 31)

/-- A text has no null character and at most one control character in a hundred. -/
def isText (content : List Char) : Bool :=
  !content.contains '\x00' && content.countP isControl * 100 ≤ content.length

def isFilenameChar (c : Char) : Bool :=
  c.toNat < 128 && (c.isAlphanum || c == '.' || c == '_' || c == '-')

/-- A safe filename for a contract. One that does not end in the extension of contracts is replaced
as a whole. -/
def sanitizeFilename (filename : Option String) : String :=
  let given := (filename.filter (!·.isEmpty)).getD Language.defaultFilename
  let name := given.toList.map fun c => if isFilenameChar c then c else '_'
  if Language.fileExtension.toList.isSuffixOf name then String.ofList name
  else Language.defaultFilename

def checkSize (limit : Int) (text : List Char) : Except Failure Unit :=
  let size := Text.byteSize text
  if limit < size then .error (.refused (.tooLarge size limit)) else .ok ()

def includePattern : Pattern :=
  .wordBoundary ++ .word "include" ++ .gap ++ .word "\"" ++ .capture 1 (.oneOrMore (· != '"')) ++
    .word "\""

/-- The target of an include is a file next to the contract, not the standard library. -/
def isLocal (target : String) : Bool :=
  !Language.includeAliases.contains target &&
    !Language.libraryModule.toList.isPrefixOf target.toList &&
    (Language.fileExtension.toList.isSuffixOf target.toList ||
      "./".toList.isPrefixOf target.toList || "../".toList.isPrefixOf target.toList)

def localIncludes (source : List Char) : List String :=
  ((includePattern.matchesIn (Source.stripComments source)).map fun found =>
    String.ofList (found.text 1)).filter isLocal

def pragmaPattern : Pattern :=
  .wordBoundary ++ .word "pragma" ++ .gap ++ .word "language_version" ++ .wordBoundary

/-- Refuse a source that the compiler would refuse: a blank one, one without a pragma, and one that
uses types of the standard library without importing it. -/
def precheck (source : List Char) : Except Failure Unit :=
  let uncommented := Source.stripComments source
  if source.all Text.isBlank then .error (.refused .blankSource)
  else if !pragmaPattern.occursIn uncommented then .error (.refused .missingPragma)
  else if Language.libraryTypePattern.occursIn (Source.maskAll source) &&
      !Language.libraryImportPattern.occursIn uncommented then
    .error (.refused .missingImport)
  else .ok ()

end ContractInspector.Guard
