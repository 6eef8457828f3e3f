import ContractInspector.Contract.Scan
import ContractInspector.Json.Value

/-! Scanned contracts as JSON values. -/
namespace ContractInspector.Contract

open Json (Value)

def Circuit.json (circuit : Circuit) : Value :=
  .object [("kind", .text "circuit"), ("name", .text circuit.name),
    ("params", .texts circuit.params), ("returnType", .text circuit.returnType),
    ("isExported", .bool circuit.isExported), ("isPure", .bool circuit.isPure),
    ("line", .ofNat circuit.line)]

def Witness.json (witness : Witness) : Value :=
  .object [("kind", .text "witness"), ("name", .text witness.name), ("type", .text witness.type),
    ("params", .texts witness.params), ("isExported", .bool witness.isExported),
    ("line", .ofNat witness.line)]

def LedgerItem.json (item : LedgerItem) : Value :=
  .object [("kind", .text "ledger"), ("name", .text item.name), ("type", .text item.type),
    ("isExported", .bool item.isExported), ("isSealed", .bool item.isSealed),
    ("line", .ofNat item.line)]

def TypeAlias.json (declared : TypeAlias) : Value :=
  .object [("kind", .text "type"), ("name", .text declared.name),
    ("definition", .text declared.definition), ("isExported", .bool declared.isExported),
    ("line", .ofNat declared.line)]

def Struct.json (declared : Struct) : Value :=
  .object [("kind", .text "struct"), ("name", .text declared.name),
    ("fields", .texts declared.fields), ("isExported", .bool declared.isExported),
    ("line", .ofNat declared.line)]

def Enumeration.json (declared : Enumeration) : Value :=
  .object [("kind", .text "enum"), ("name", .text declared.name),
    ("variants", .texts declared.variants), ("isExported", .bool declared.isExported),
    ("line", .ofNat declared.line)]

def Structure.json (declared : Structure) : Value :=
  .object [("circuits", .array (declared.circuits.map Circuit.json)),
    ("witnesses", .array (declared.witnesses.map Witness.json)),
    ("ledgerItems", .array (declared.ledgerItems.map LedgerItem.json)),
    ("types", .array (declared.types.map TypeAlias.json)),
    ("structs", .array (declared.structs.map Struct.json)),
    ("enums", .array (declared.enums.map Enumeration.json))]

def Exports.json (exports : Exports) : Value :=
  .object [("circuits", .texts exports.circuits), ("witnesses", .texts exports.witnesses),
    ("ledger", .texts exports.ledger)]

/-- The sizes of a scanned contract. -/
def Scan.stats (scan : Scan) : Value :=
  let declared := scan.declared
  let exports := declared.exports
  .object [("lineCount", .ofNat scan.lines.lineCount),
    ("circuitCount", .ofNat declared.circuits.length),
    ("witnessCount", .ofNat declared.witnesses.length),
    ("ledgerCount", .ofNat declared.ledgerItems.length),
    ("typeCount", .ofNat declared.types.length),
    ("structCount", .ofNat declared.structs.length),
    ("enumCount", .ofNat declared.enums.length),
    ("exportedCircuits", .ofNat exports.circuits.length),
    ("exportedWitnesses", .ofNat exports.witnesses.length),
    ("exportedLedger", .ofNat exports.ledger.length)]

def BlockKind.name : BlockKind → String
  | circuit => "circuit"
  | constructor => "constructor"

def CodeBlock.json (block : CodeBlock) : Value :=
  .object [("kind", .text block.kind.name), ("name", .text block.name),
    ("params", .texts block.params), ("isExported", .bool block.isExported),
    ("line", .ofNat block.line), ("bodyStart", .ofNat block.bodyStart),
    ("bodyEnd", .ofNat block.bodyEnd)]

end ContractInspector.Contract
