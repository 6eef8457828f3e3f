import ContractInspector.Machine.Shell.Arithmetic
import ContractInspector.Machine.Shell.Options
import ContractInspector.Machine.Shell.Script
import ContractInspector.Machine.Shell.State

/-! What the commands of the shell have in common: what they are, how they end, and how they read
their arguments. -/
namespace ContractInspector.Machine.Shell.Builtin

/-- What a command of the shell does with its arguments. -/
abbrev Action := List ByteText → Configuration → Flow × Configuration

/-- A mistake in a special command ends the shell. -/
def isSpecial (name : ByteText) : Bool :=
  Script.specials.any (·.toList == name)

def succeed (state : Configuration) : Flow × Configuration :=
  (.next, state.setStatus 0)

def giveStatus (status : Nat) (state : Configuration) : Flow × Configuration :=
  (.next, state.setStatus status)

/-- A mistake. It ends the shell if the command is special. -/
def reject (message : String) (state : Configuration) : Flow × Configuration :=
  (if isSpecial state.process.speaker then .finished else .next, state.fail 2 message)

def illegalNumber (text : ByteText) (state : Configuration) : Flow × Configuration :=
  reject ("Illegal number: " ++ ByteText.toString text) state

/-- The greatest number that may be an argument. -/
def greatest : Nat := 2147483647

def natural? (text : ByteText) : Option Nat :=
  if !text.isEmpty && text.all Char.isDigit then
    (Arithmetic.numberIn 10 text).filter (· ≤ greatest)
  else none

/-- Write the output of a command. If that is not possible, the command fails. -/
def put (text : ByteText) (state : Configuration) : Flow × Configuration :=
  let (isOpen, state) := state.writeTo 1 text
  if isOpen then succeed state else (.next, state.fail 1 "I/O error")

/-- Read the options of a command. -/
def withOptions (allowed : List Char) (arguments : List ByteText) (state : Configuration)
    (act : (letters : List Char) → Action) : Flow × Configuration :=
  match Options.take allowed arguments with
  | .ok (letters, others) => act letters others state
  | .error wrong => reject ("Illegal option -" ++ ByteText.toString [wrong]) state

/-- The first argument as a number, or a number for none. -/
def withNumber (usual : Nat) (arguments : List ByteText) (state : Configuration)
    (act : Nat → Configuration → Flow × Configuration) : Flow × Configuration :=
  match arguments with
  | [] => act usual state
  | text :: _ =>
    match natural? text with
    | some number => act number state
    | none => illegalNumber text state

/-- The two sides of the first equals sign, the second one if there is a sign. -/
def splitAssignment (argument : ByteText) : String × Option ByteText :=
  let name := argument.takeWhile (· ≠ '=')
  (String.ofList name,
    if name.length < argument.length then some (argument.drop (name.length + 1)) else none)

end ContractInspector.Machine.Shell.Builtin
