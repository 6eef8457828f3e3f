import ContractInspector.Number.Seconds

/-! What an operator can set. -/
namespace ContractInspector

structure Settings where
  /-- The greatest size of a source in bytes. -/
  maxCodeSize : Int := 1024 * 1024
  /-- How long a compilation may take. -/
  compileTimeout : Number.Seconds := .whole 60
  /-- How many characters are kept of each output of the compiler. -/
  maxCompilerOutput : Int := 10 * 1024 * 1024
  /-- The compiler to use, instead of those on the search path. -/
  compilerPath : Option String := none

end ContractInspector
