import ContractInspector.Contract.Scan
import ContractInspector.Issue.Basic
import ContractInspector.Issue.Usage
import ContractInspector.Language.Catalogue
import ContractInspector.Source.Spans

/-! The rules that find issues. Each looks at a scanned contract by itself and lists what it finds
in its own order. All but two match on masked source, so nothing inside a comment or a literal
counts; the pragma and the imports are read with comments stripped. -/
namespace ContractInspector.Issue

open Contract (Scan CodeBlock)
open Text (Pattern Match)

/-- The masked body of a block. -/
def bodyOf (scan : Scan) (block : CodeBlock) : List Char :=
  scan.masked.slice block.bodyStart block.bodyEnd

def lineIn (scan : Scan) (block : CodeBlock) (offset : Nat) : Nat :=
  scan.lines.lineOf (block.bodyStart + offset : Nat)

def witnessNames (scan : Scan) : List String :=
  scan.declared.witnesses.map (·.name)

def capitalized (name : String) : String :=
  String.ofList ((name.toList.take 1).map Char.toUpper ++ name.toList.drop 1)

def constPattern : Pattern :=
  .wordBoundary ++ .word "const" ++ .gap ++ .capture 1 (.oneOrMore Text.isWord)

def constIssue (scan : Scan) (found : Match) : Issue :=
  let name := String.ofList (found.text 1)
  { kind := .moduleLevelConst
    message := "Module-level const '" ++ name ++ "' is not supported in Compact"
    suggestion := "Use a pure circuit instead: `pure circuit " ++ name ++
      "(): <Type> \x7b return <value>; \x7d`"
    line := scan.lines.lineOf found.start.offset }

/-- Constants are only valid inside a body. -/
def moduleLevelConst (scan : Scan) : List Issue :=
  let spans := Source.braceSpans scan.masked.text
  ((constPattern.matchesIn scan.masked.text).filter fun found =>
    !Source.insideSpans spans found.start.offset).map (constIssue scan)

def builtinCollisions (scan : Scan) : List Issue :=
  (scan.declared.circuits.filter fun circuit => Language.builtins.contains circuit.name).map
    fun circuit =>
      { kind := .stdlibNameCollision
        message := "Circuit '" ++ circuit.name ++ "' conflicts with the " ++
          Language.libraryModule ++ " builtin '" ++ circuit.name ++ "'"
        suggestion := "Rename the circuit (e.g. 'my" ++ capitalized circuit.name ++
          "') or drop it and use the builtin"
        line := circuit.line }

/-- A circuit named like a builtin shadows it once the standard library is imported. -/
def stdlibNameCollision (scan : Scan) : List Issue :=
  if Language.libraryImportPattern.occursIn scan.uncommented then builtinCollisions scan else []

/-- Sealed items are set only once, by the constructor, so no exported circuit may set them. -/
def sealedExportConflict (scan : Scan) : List Issue :=
  (scan.circuitBlocks.filter (·.isExported)).flatMap fun block =>
    let body := bodyOf scan block
    scan.declared.sealedItems.filterMap fun item =>
      ((assignment item.name.toList).search? body).map fun found =>
        { kind := .sealedExportConflict
          message := "Exported circuit '" ++ block.name ++ "' modifies sealed ledger field '" ++
            item.name ++ "'"
          suggestion := "Sealed fields can only be set once, in the constructor. " ++
            "Move the assignment into `constructor(...) \x7b " ++ item.name ++
            " = disclose(...); \x7d`"
          line := lineIn scan block found.start.offset }

/-- Sealed items need a constructor. -/
def missingConstructor (scan : Scan) : List Issue :=
  match scan.declared.sealedItems, scan.constructors with
  | first :: others, [] =>
    let names := Text.join ", " ((first :: others).map (·.name))
    [{ kind := .missingConstructor
       message := "Contract has sealed ledger fields (" ++ names ++ ") but no constructor"
       suggestion := "Add a constructor that initializes the sealed fields: " ++
         "`constructor(v: <Type>) \x7b field = disclose(v); \x7d`"
       line := first.line }]
  | _, _ => []

def unsupportedDivision (scan : Scan) : List Issue :=
  scan.circuitBlocks.filterMap fun block =>
    ((bodyOf scan block).findIdx? (· == '/')).map fun offset =>
      { kind := .unsupportedDivision
        message := "Division operator '/' is not supported inside circuit '" ++ block.name ++ "'"
        suggestion := "Compute the quotient off-chain with a witness and verify it in the " ++
          "circuit: `const q = getQuotient(a, b); assert(q * b + r == a, \"bad quotient\");`"
        line := lineIn scan block offset }

def valueAccess (name : List Char) : Pattern :=
  .notAfter joins ++ .text name ++ .space ++ .word "." ++ .space ++ .word "value" ++ .wordBoundary

def valueAccesses (scan : Scan) (name : String) : List Issue :=
  ((valueAccess name.toList).matchesIn scan.masked.text).map fun found =>
    { kind := .invalidCounterAccess
      message := "Counter '" ++ name ++ "' has no .value property"
      suggestion := "Read it with `" ++ name ++ ".read()` and change it with `" ++ name ++
        ".increment(n)` / `" ++ name ++ ".decrement(n)`"
      line := scan.lines.lineOf found.start.offset }

def invalidCounterAccess (scan : Scan) : List Issue :=
  (scan.declared.ledgerItems.filter (·.type == "Counter")).flatMap fun item =>
    valueAccesses scan item.name

def assertion : Pattern :=
  .keyword "assert" ++ .capture 1 (.many fun c => c != ';')

def fieldCast : Pattern :=
  .wordBoundary ++ .word "as" ++ .gap ++ .word "Field" ++ .wordBoundary

def firstUsed? (names : List String) (text : List Char) : Option String :=
  names.find? fun name => (identifier name.toList).occursIn text

/-- The first assertion of a body that multiplies one of the `bound` locals without a cast. -/
def overflowIn? (bound : List String) (body : List Char) : Option (String × Nat) :=
  (assertion.matchesIn body).findSome? fun found =>
    let expression := found.text 1
    if !expression.contains '*' || fieldCast.occursIn expression then none
    else (firstUsed? bound expression).map (·, found.start.offset)

/-- A product of a value that a witness provides may overflow. Widths are not looked at, so this
can miss an overflow or report one that cannot happen. -/
def potentialOverflow (scan : Scan) : List Issue :=
  scan.circuitBlocks.filterMap fun block =>
    let body := bodyOf scan block
    let bound := (witnessBound body (witnessNames scan)).map (·.1)
    (overflowIn? bound body).map fun (name, offset) =>
      { kind := .potentialOverflow
        message := "Witness-provided '" ++ name ++
          "' is multiplied inside an assert in circuit '" ++ block.name ++
          "'; the product may overflow its Uint width"
        suggestion := "Cast the operands to Field before multiplying, e.g. `assert((" ++ name ++
          " as Field) * (b as Field) == (a as Field), \"...\")`"
        line := lineIn scan block offset }

def conditional : Pattern :=
  .wordBoundary ++ .word "if" ++ .space ++ .word "("

/-- What a witness provides must be disclosed before it decides a branch. Of several names that are used
only one is told, which the order of the names decides. -/
def undisclosedWitnessConditional (scan : Scan) : List Issue :=
  let witnesses := witnessNames scan
  if witnesses.isEmpty then []
  else scan.circuitBlocks.flatMap fun block =>
    let body := bodyOf scan block
    let tainted := witnesses ++ (witnessBound body witnesses).map (·.1)
    (conditional.matchesIn body).filterMap fun found => do
      let condition ← Source.blockAt? body (found.stop.offset - 1)
      let name ← firstUsed? tainted (withoutDisclosed condition.body)
      return { kind := .undisclosedWitnessConditional
               message := "Witness value '" ++ name ++ "' is used in a conditional in circuit '" ++
                 block.name ++ "' without disclose()"
               suggestion := "Bind the disclosed value to a local first: `const revealed = " ++
                 "disclose(" ++ name ++ "); if (revealed ...) \x7b ... \x7d`"
               line := lineIn scan block found.start.offset }

/-- Parameters of a constructor must be disclosed before they are stored. -/
def undisclosedConstructorParam (scan : Scan) : List Issue :=
  scan.constructors.flatMap fun block =>
    let body := bodyOf scan block
    let params := ((block.params.map paramName).filter (!·.isEmpty)).map String.ofList
    scan.declared.ledgerItems.flatMap fun item =>
      ((assignment item.name.toList).matchesIn body).filterMap fun found =>
        (firstUsed? params (withoutDisclosed (found.text 1))).map fun param =>
          { kind := .undisclosedConstructorParam
            message := "Constructor parameter '" ++ param ++ "' is assigned to ledger field '" ++
              item.name ++ "' without disclose()"
            suggestion := "Wrap the parameter: `" ++ item.name ++ " = disclose(" ++ param ++ ");`"
            line := lineIn scan block found.start.offset }

def eachMatch (pattern : Pattern) (kind : Kind) (message suggestion : String) (scan : Scan) :
    List Issue :=
  (pattern.matchesIn scan.masked.text).map fun found =>
    { kind, message, suggestion, line := scan.lines.lineOf found.start.offset }

def deprecatedLedgerBlock : Scan → List Issue :=
  eachMatch (.wordBoundary ++ .word "ledger" ++ .space ++ .word "\x7b") .deprecatedLedgerBlock
    "Deprecated `ledger \x7b ... \x7d` block syntax"
    "Declare each field separately: `export ledger counter: Counter;`"

def invalidVoidType : Scan → List Issue :=
  eachMatch (.word ":" ++ .space ++ .word "Void" ++ .wordBoundary) .invalidVoidType
    "'Void' is not a Compact type"
    "Use `[]` for circuits that return nothing: `circuit f(): [] \x7b ... \x7d`"

def patchVersion : Pattern :=
  .wordBoundary ++ .word "pragma" ++ .gap ++ .word "language_version" ++ .wordBoundary ++
    .fewest (· != ';') ++
    .capture 1 (.oneOrMore Text.isDigit ++ .word "." ++ .oneOrMore Text.isDigit ++ .word "." ++
      .oneOrMore Text.isDigit)

/-- Language versions have two numbers. -/
def invalidPragmaFormat (scan : Scan) : List Issue :=
  ((patchVersion.search? scan.uncommented).map fun found =>
    { kind := .invalidPragmaFormat
      message := "Pragma uses a patch version (" ++ String.ofList (found.text 1) ++
        "); language versions are major.minor"
      suggestion := "Use: `" ++ Language.recommendedPragma ++ "`"
      line := scan.lines.lineOf found.start.offset : Issue }).toList

def deprecatedCellWrapper : Scan → List Issue :=
  eachMatch (.wordBoundary ++ .word "Cell" ++ .space ++ .word "<") .deprecatedCellWrapper
    "The Cell<T> wrapper is deprecated"
    "Use the type directly: `export ledger value: Field;`"

/-- Enumerations that are not exported are invisible to the program around the contract. -/
def unexportedEnum (scan : Scan) : List Issue :=
  (scan.declared.enums.filter (!·.isExported)).map fun declared =>
    { kind := .unexportedEnum
      message := "Enum '" ++ declared.name ++
        "' is not exported and cannot be used from TypeScript"
      suggestion := "Export it: `export enum " ++ declared.name ++ " \x7b ... \x7d`"
      line := declared.line }

abbrev Rule := Scan → List Issue

/-- All rules, in the order in which their issues stand on one line. -/
def rules : List Rule :=
  [moduleLevelConst, stdlibNameCollision, sealedExportConflict, missingConstructor,
    unsupportedDivision, invalidCounterAccess, potentialOverflow, undisclosedWitnessConditional,
    undisclosedConstructorParam, deprecatedLedgerBlock, invalidVoidType, invalidPragmaFormat,
    deprecatedCellWrapper, unexportedEnum]

end ContractInspector.Issue
