/-! A compiler that was found: where it is, and what it answers when asked for its version. -/
namespace ContractInspector.Compiler

structure Identity where
  path : String
  version : String
deriving DecidableEq

end ContractInspector.Compiler
