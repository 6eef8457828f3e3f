import ContractInspector.Contract.Declaration
import ContractInspector.Contract.Forms
import ContractInspector.Source.Block
import ContractInspector.Source.Lines
import ContractInspector.Source.Mask
import ContractInspector.Source.Split
import ContractInspector.Text.Indexed

/-! Scanning a contract. Declarations are found in the masked source, so comments and literals
declare nothing; the texts of types, parameters and members are cut from the source itself at the
same offsets. -/
namespace ContractInspector.Contract

open Source (Block LineIndex)
open Text (Indexed Match)

/-- The version that the pragma writes, in a source without comments. -/
def versionIn? (uncommented : List Char) : Option String :=
  (Forms.pragma.search? uncommented).map fun found => String.ofList (found.text Forms.payload)

def languageVersion? (source : List Char) : Option String :=
  versionIn? (Source.stripComments source)

/-- The imported modules and included paths of a source without comments, in source order. -/
def importsIn (uncommented : List Char) : List String :=
  (Forms.importTarget.matchesIn uncommented).map fun found =>
    String.ofList ((found.text? Forms.name).getD (found.text Forms.payload))

def imports (source : List Char) : List String :=
  importsIn (Source.stripComments source)

structure Scanned where
  source : Indexed
  masked : Indexed
  lines : LineIndex

namespace Scanned

def ofSource (source : List Char) : Scanned :=
  ⟨.ofText source, .ofText (Source.maskAll source), .ofText source⟩

/-- The matches of a form in the masked source. -/
def matchesOf (scanned : Scanned) (form : Text.Pattern) : List Match :=
  form.matchesIn scanned.masked.text

/-- The source text of what a match captured, stripped. -/
def captured (scanned : Scanned) (found : Match) (slot : Nat) : String :=
  match found.capture? slot with
  | some part =>
    String.ofList (Text.strip (scanned.source.slice part.start part.stop))
  | none => ""

def nameOf (found : Match) : String :=
  String.ofList (found.text Forms.name)

def isExported (found : Match) : Bool :=
  (found.capture? Forms.exported).isSome

def isModified (found : Match) : Bool :=
  (found.capture? Forms.modifier).isSome

def lineOf (scanned : Scanned) (found : Match) : Nat :=
  scanned.lines.lineOf found.start.offset

/-- The block of source text opened at an offset. -/
def blockAt? (scanned : Scanned) (offset : Nat) : Option Block :=
  Source.blockFrom? offset (scanned.source.drop offset)

/-- The block of source text opened by the last character of a match. -/
def blockOf? (scanned : Scanned) (found : Match) : Option Block :=
  scanned.blockAt? (found.stop.offset - 1)

def paramsOf (parens : Block) : List String :=
  (Source.splitTop ',' (Source.stripComments parens.body)).map String.ofList

/-- The members between two braces, which commas or semicolons separate. -/
def membersOf (braces : Block) : List String :=
  ((Source.splitTop ',' (Source.stripComments braces.body)).flatMap (Source.splitTop ';')).map
    String.ofList

/-- The offsets of the body that follows an offset, unless a semicolon comes before its brace. -/
def bodyAfter? (scanned : Scanned) (offset : Nat) : Option (Nat × Nat) :=
  let before := (scanned.masked.drop offset).takeWhile fun c => c ≠ '{' && c ≠ ';'
  let start := offset + before.length
  (Source.blockFrom? start (scanned.masked.drop start)).map fun block =>
    (block.opening + 1, block.closing)

/-- A circuit, and its code if it has a body. -/
def circuit? (scanned : Scanned) (found : Match) : Option (Circuit × Option CodeBlock) :=
  (scanned.blockOf? found).map fun parens =>
    let after := parens.closing + 1
    let type? := Forms.returnType.matchAt? (scanned.masked.cursorAt after)
    let type := (type?.map fun type => scanned.captured type Forms.payload).getD ""
    let circuit : Circuit :=
      { name := nameOf found
        params := paramsOf parens
        returnType := if type.isEmpty then "[]" else type
        isExported := isExported found
        isPure := isModified found
        line := scanned.lineOf found }
    let body? := scanned.bodyAfter? ((type?.map (·.stop.offset)).getD after)
    (circuit, body?.map fun (bodyStart, bodyEnd) =>
      ⟨.circuit, circuit.name, circuit.params, circuit.isExported, circuit.line, bodyStart,
        bodyEnd⟩)

def circuits (scanned : Scanned) : List (Circuit × Option CodeBlock) :=
  (scanned.matchesOf Forms.circuit).filterMap scanned.circuit?

/-- A witness. Its parameters are optional, its type is not. -/
def witness? (scanned : Scanned) (found : Match) : Option Witness := do
  let (params, after) ←
    if found.stop.rest.head? = some '(' then do
      let parens ← scanned.blockAt? found.stop.offset
      pure (paramsOf parens, parens.closing + 1)
    else pure ([], found.stop.offset)
  let type ← Forms.witnessType.matchAt? (scanned.masked.cursorAt after)
  return ⟨nameOf found, scanned.captured type Forms.payload, params, isExported found,
    scanned.lineOf found⟩

def witnesses (scanned : Scanned) : List Witness :=
  (scanned.matchesOf Forms.witness).filterMap scanned.witness?

def ledgerItems (scanned : Scanned) : List LedgerItem :=
  (scanned.matchesOf Forms.ledgerItem).map fun found =>
    ⟨nameOf found, scanned.captured found Forms.payload, isExported found, isModified found,
      scanned.lineOf found⟩

def types (scanned : Scanned) : List TypeAlias :=
  (scanned.matchesOf Forms.typeAlias).map fun found =>
    ⟨nameOf found, scanned.captured found Forms.payload, isExported found, scanned.lineOf found⟩

def structs (scanned : Scanned) : List Struct :=
  (scanned.matchesOf Forms.struct).filterMap fun found =>
    (scanned.blockOf? found).map fun braces =>
      ⟨nameOf found, membersOf braces, isExported found, scanned.lineOf found⟩

def enums (scanned : Scanned) : List Enumeration :=
  (scanned.matchesOf Forms.enumeration).filterMap fun found =>
    (scanned.blockOf? found).map fun braces =>
      ⟨nameOf found, membersOf braces, isExported found, scanned.lineOf found⟩

/-- A constructor that has a body. -/
def constructor? (scanned : Scanned) (found : Match) : Option CodeBlock := do
  let parens ← scanned.blockOf? found
  let (bodyStart, bodyEnd) ← scanned.bodyAfter? (parens.closing + 1)
  return ⟨.constructor, "constructor", paramsOf parens, false, scanned.lineOf found, bodyStart,
    bodyEnd⟩

def constructors (scanned : Scanned) : List CodeBlock :=
  (scanned.matchesOf Forms.constructor).filterMap scanned.constructor?

end Scanned

structure Scan where
  text : List Char
  masked : Indexed
  /-- The source with comments blanked. -/
  uncommented : List Char
  lines : LineIndex
  languageVersion : Option String
  imports : List String
  declared : Structure
  circuitBlocks : List CodeBlock
  constructors : List CodeBlock

/-- Scan the source of a contract. A source that declares nothing has an empty result. -/
def scan (source : List Char) : Scan :=
  let scanned := Scanned.ofSource source
  let circuits := scanned.circuits
  let uncommented := Source.stripComments source
  { text := source
    masked := scanned.masked
    uncommented
    lines := scanned.lines
    languageVersion := versionIn? uncommented
    imports := importsIn uncommented
    declared :=
      { circuits := circuits.map (·.1)
        witnesses := scanned.witnesses
        ledgerItems := scanned.ledgerItems
        types := scanned.types
        structs := scanned.structs
        enums := scanned.enums }
    circuitBlocks := circuits.filterMap (·.2)
    constructors := scanned.constructors }

end ContractInspector.Contract
