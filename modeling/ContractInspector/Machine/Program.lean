import ContractInspector.Machine.Program.Files
import ContractInspector.Machine.Program.Lines
import ContractInspector.Machine.Shell.Condition

/-! The programs of the system that scripts call by their paths. -/
namespace ContractInspector.Machine.Program

open Shell (ByteText)

/-- The thousandths of a second that a text gives. -/
def milliseconds? (text : ByteText) : Option Nat :=
  let (number, unit) :=
    match text.getLast? with
    | some 's' => (text.dropLast, 1000)
    | some 'm' => (text.dropLast, 60000)
    | some 'h' => (text.dropLast, 3600000)
    | some 'd' => (text.dropLast, 86400000)
    | _ => (text, 1000)
  let whole := number.takeWhile (· ≠ '.')
  let places := (number.drop (whole.length + 1)).takeWhile fun _ => true
  if !(whole ++ places).isEmpty && (whole ++ places).all Char.isDigit then
    let digits := (Shell.Arithmetic.numberIn 10 (whole ++ places)).getD 0
    some (digits * unit / Nat.pow 10 places.length)
  else none

def sleep (call : Call) : Effect :=
  match call.arguments with
  | [] => call.misused 1 "missing operand"
  | arguments =>
    match arguments.find? fun argument => (milliseconds? argument).isNone with
    | some wrong => call.misused 1 ("invalid time interval " ++ Call.quoted wrong)
    | none =>
      let times := arguments.filterMap milliseconds?
      { call.done 0 with milliseconds := times.foldl (· + ·) 0 }

def test (call : Call) (words : List ByteText) : Effect :=
  match Shell.Condition.evaluate ⟨call.tree, call.directory⟩ words with
  | .ok holds => call.done (if holds then 0 else 1)
  | .error message => call.complain (call.done 0) 2 message

/-- The programs by their names. -/
def all : List (String × (Call → Effect)) :=
  [("cat", cat), ("ls", ls), ("rm", rm), ("wc", wc), ("sleep", sleep), ("mkdir", mkdir),
    ("rmdir", rmdir), ("touch", touch), ("cp", cp), ("mv", mv), ("ln", ln), ("chmod", chmod),
    ("head", (part · false)), ("tail", (part · true)), ("basename", basename),
    ("dirname", dirname), ("seq", seq), ("echo", echo), ("printf", printf), ("sort", sort),
    ("uniq", uniq), ("tee", tee), ("yes", yes), ("tr", tr), ("cut", cut),
    ("pwd", fun call => call.prints (ByteText.ofString (FileTree.pathOf call.directory) ++ ['\n'])),
    ("true", fun call => call.done 0), ("false", fun call => call.done 1),
    ("test", fun call => test call call.arguments),
    ("[", fun call => test call call.arguments.dropLast)]

end ContractInspector.Machine.Program
