import ContractInspector.Machine.Shell.Command

/-! Variables of the shell with their values, the oldest first, and the orders in which they are
listed. -/
namespace ContractInspector.Machine.Shell

def isNameStart (c : Char) : Bool :=
  c.isAlpha || c == '_'

def isNameChar (c : Char) : Bool :=
  c.isAlphanum || c == '_'

/-- A text that may be the name of a variable. -/
def isName (text : ByteText) : Bool :=
  text.head?.any isNameStart && text.all isNameChar

abbrev Bindings := List (String × ByteText)

namespace Bindings

/-- Give a variable a value. A new one is the youngest. -/
def put (name : String) (value : ByteText) : Bindings → Bindings
  | [] => [(name, value)]
  | entry :: others =>
    if entry.1 == name then (name, value) :: others else entry :: put name value others

def remove (name : String) (bindings : Bindings) : Bindings :=
  bindings.filter (·.1 != name)

/-- The place of a name among so many places in which names are kept. -/
def bucketOf (places : Nat) (name : String) : Nat :=
  let bytes := (ByteText.ofString name).map Char.toNat
  (16 * bytes.headD 0 + bytes.foldl (· + ·) 0) % places

/-- The place of a variable. -/
def bucket (name : String) : Nat :=
  bucketOf 39 name

/-- Variables in the order in which programs get them: by their places, and at one place the oldest
first. -/
def inEnvironment (bindings : Bindings) : Bindings :=
  bindings.mergeSort fun first second => bucket first.1 ≤ bucket second.1

/-- Variables in the order of their names. -/
def byName (bindings : Bindings) : Bindings :=
  bindings.mergeSort fun first second => !List.lex (ByteText.ofString second.1)
    (ByteText.ofString first.1)

end Bindings

namespace ByteText

/-- A text as the shell reads it back: between single quotes, and single quotes themselves between
double quotes. The fuel bounds the number of pieces. -/
def quotedFrom : (fuel : Nat) → ByteText → ByteText
  | 0, _ => []
  | fuel + 1, text =>
    let plain := text.takeWhile (· != '\'')
    let behind := text.drop plain.length
    let quotes := behind.takeWhile (· == '\'')
    let rest := behind.drop quotes.length
    let piece := '\'' :: plain ++ ['\''] ++
      if quotes.isEmpty then [] else '"' :: quotes ++ ['"']
    if rest.isEmpty then piece else piece ++ quotedFrom fuel rest

def quoted (text : ByteText) : ByteText :=
  quotedFrom (text.length + 1) text

end ByteText

end ContractInspector.Machine.Shell
