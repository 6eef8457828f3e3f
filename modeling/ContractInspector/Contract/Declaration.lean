/-! The declarations of a contract. Each knows its name, whether it is exported, and the line of its
first keyword; types, parameters and members are kept as the source writes them. -/
namespace ContractInspector.Contract

structure Circuit where
  name : String
  params : List String
  returnType : String
  isExported : Bool
  isPure : Bool
  line : Nat
deriving DecidableEq

structure Witness where
  name : String
  type : String
  params : List String
  isExported : Bool
  line : Nat
deriving DecidableEq

structure LedgerItem where
  name : String
  type : String
  isExported : Bool
  isSealed : Bool
  line : Nat
deriving DecidableEq

structure TypeAlias where
  name : String
  definition : String
  isExported : Bool
  line : Nat
deriving DecidableEq

structure Struct where
  name : String
  fields : List String
  isExported : Bool
  line : Nat
deriving DecidableEq

structure Enumeration where
  name : String
  variants : List String
  isExported : Bool
  line : Nat
deriving DecidableEq

/-- All declarations, each list in source order. -/
structure Structure where
  circuits : List Circuit
  witnesses : List Witness
  ledgerItems : List LedgerItem
  types : List TypeAlias
  structs : List Struct
  enums : List Enumeration
deriving DecidableEq

/-- The names that a contract exports. -/
structure Exports where
  circuits : List String
  witnesses : List String
  ledger : List String
deriving DecidableEq

inductive BlockKind where
  | circuit
  | constructor
deriving DecidableEq

/-- A circuit or a constructor that has a body, with the offsets of the first character of the
body and of the brace behind it. -/
structure CodeBlock where
  kind : BlockKind
  name : String
  params : List String
  isExported : Bool
  line : Nat
  bodyStart : Nat
  bodyEnd : Nat
deriving DecidableEq

namespace Structure

def exports (declared : Structure) : Exports where
  circuits := (declared.circuits.filter (·.isExported)).map (·.name)
  witnesses := (declared.witnesses.filter (·.isExported)).map (·.name)
  ledger := (declared.ledgerItems.filter (·.isExported)).map (·.name)

/-- The ledger items that only the constructor may set. -/
def sealedItems (declared : Structure) : List LedgerItem :=
  declared.ledgerItems.filter (·.isSealed)

/-- How many declarations of each kind there are, leaving out the kinds that are missing. -/
def counted (declared : Structure) : List String :=
  ([(declared.circuits.length, "circuit(s)"), (declared.witnesses.length, "witness(es)"),
    (declared.ledgerItems.length, "ledger item(s)"), (declared.types.length, "type alias(es)"),
    (declared.structs.length, "struct(s)"), (declared.enums.length, "enum(s)")].filter
      fun entry => 0 < entry.1).map fun entry => toString entry.1 ++ " " ++ entry.2

/-- The declarations in words. -/
def summary (declared : Structure) : String :=
  let parts := declared.counted
  if parts.isEmpty then "Empty contract" else ", ".intercalate parts

end Structure

end ContractInspector.Contract
