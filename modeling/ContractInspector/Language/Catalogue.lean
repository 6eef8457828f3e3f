import ContractInspector.Text.Search

/-! What is known about the Compact language: the standard library, example snippets, hints for
compiler output and fixes for common errors. -/
namespace ContractInspector.Language

/-- The standard library's module. -/
def libraryModule : String := "CompactStandardLibrary"

/-- The names by which a source may include the standard library. -/
def includeAliases : List String := ["std"]

/-- The circuits of the standard library. -/
def builtins : List String :=
  ["burnAddress", "ownPublicKey", "persistentHash", "persistentCommit", "transientHash",
    "transientCommit", "degradeToTransient", "upgradeFromTransient", "pad", "disclose", "default",
    "nativeToken", "tokenType", "mintToken", "evolveNonce", "createZswapInput",
    "createZswapOutput", "receive", "send", "sendImmediate", "mergeCoin", "mergeCoinImmediate",
    "shieldedBurnAddress", "blockTimeLessThan", "blockTimeGreaterThan", "ecAdd", "ecMul",
    "ecMulGenerator", "hashToCurve"]

/-- A type of the standard library. A generic one is recognised by the `<` behind its name. -/
structure LibraryType where
  name : String
  generic : Bool

def libraryTypes : List LibraryType :=
  [⟨"Counter", false⟩, ⟨"Map", true⟩, ⟨"Set", true⟩, ⟨"Opaque", true⟩]

/-- The earliest and the latest supported language version. -/
def earliestVersion : Nat × Nat := (0, 16)

def latestVersion : Nat × Nat := (0, 18)

/-- The text of a language version. -/
def versionText (version : Nat × Nat) : String :=
  toString version.1 ++ "." ++ toString version.2

def recommendedPragma : String :=
  "pragma language_version >= " ++ versionText earliestVersion ++ " && <= " ++
    versionText latestVersion ++ ";"

/-- The extension of contract files. -/
def fileExtension : String := ".compact"

def defaultFilename : String := "contract.compact"

/-- An example of contract source. -/
inductive Snippet where
  | minimalContract
  | pragmaHeader
  | importHeader
deriving DecidableEq

namespace Snippet

def name : Snippet → String
  | minimalContract => "minimal_contract"
  | pragmaHeader => "pragma_header"
  | importHeader => "import_header"

def ofName? (name : String) : Option Snippet :=
  [minimalContract, pragmaHeader, importHeader].find? (·.name == name)

def text : Snippet → String
  | minimalContract =>
    "pragma language_version >= 0.16;\n\nimport CompactStandardLibrary;\n\n" ++
      "export ledger counter: Counter;\n\nexport circuit increment(): [] \x7b\n" ++
      "  counter.increment(1);\n\x7d\n"
  | pragmaHeader =>
    "pragma language_version >= 0.16;\n\nimport CompactStandardLibrary;\n\n" ++
      "// ... rest of your contract\n"
  | importHeader =>
    "pragma language_version >= 0.16;\n\nimport CompactStandardLibrary;\n\n" ++
      "export ledger counter: Counter;\n// ...\n"

end Snippet

/-- What to suggest when compiler output mentions a term. -/
structure OutputHint where
  term : String
  suggestion : String

def outputHints : List OutputHint :=
  [⟨"Cell", "Remember to use .value to access Cell<T> contents (e.g., state.value)"⟩,
    ⟨"Opaque", "Opaque<\"string\"> is a type, not a type alias. Use it directly in signatures."⟩,
    ⟨"disclose", "In conditionals, use: const x = disclose(expr); if (x) \x7b ... \x7d " ++
      "instead of if (disclose(expr))"⟩,
    ⟨"Counter", "Counter type requires initialization: counter = Counter.increment(counter, 1)"⟩]

/-- A fix for errors whose message has one of the keywords. -/
structure CommonFix where
  keywords : List String
  pattern : String
  fix : String

def commonFixes : List CommonFix :=
  [⟨["cell", "value"], "Cell<T> access error",
      "Use `state.value` instead of just `state` when accessing Cell contents"⟩,
    ⟨["opaque", "string type"], "Opaque string type error",
      "Use `Opaque<\"your_type_name\">` directly - it cannot be aliased with type keyword"⟩,
    ⟨["boolean", "witness"], "Boolean witness error",
      "Witnesses return `Uint<1>` not `Boolean` - use `x != 0` to convert to Boolean"⟩,
    ⟨["disclose", "conditional"], "Disclosure in conditional error",
      "Store disclose() result in const before using in if: " ++
        "`const revealed = disclose(x); if (revealed) \x7b ... \x7d`"⟩,
    ⟨["counter", "increment"], "Counter initialization error",
      "Initialize counters with: `counter = Counter.increment(counter, 1)`"⟩,
    ⟨["map", "key", "insert"], "Map operation error",
      "Maps require aligned access: insert at key before reading, or use default values"⟩]

open Text (Pattern)

/-- One of several patterns, the earlier ones first. -/
def anyOf : List Pattern → Pattern
  | [] => .char fun _ => false
  | [only] => only
  | first :: others => .orElse first (anyOf others)

/-- A use of a standard library type: a whole word, behind which a generic type has a `<`. -/
def libraryTypePattern : Pattern :=
  anyOf (libraryTypes.map fun type =>
    if type.generic then .wordBoundary ++ .word type.name ++ .space ++ .word "<"
    else .keyword type.name)

/-- An import of the standard library, by its module or by an alias. -/
def libraryImportPattern : Pattern :=
  .orElse
    (.wordBoundary ++ .word "import" ++ .gap ++ .word libraryModule ++ .wordBoundary)
    (.wordBoundary ++ .word "include" ++ .gap ++ .word "\"" ++
      anyOf (includeAliases.map .word) ++ .word "\"")

end ContractInspector.Language
