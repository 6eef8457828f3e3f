import ContractInspector.Number.Search

/-! Line numbers of offsets. Lines end at newlines and count from one. -/
namespace ContractInspector.Source

/-- The offsets behind the newlines of a text that starts at `offset`, behind those in `found`. -/
def startsOnto : List Char → (offset : Nat) → (found : Array Nat) → Array Nat
  | [], _, found => found
  | c :: rest, offset, found =>
    startsOnto rest (offset + 1) (if c = '\n' then found.push (offset + 1) else found)

/-- The offsets at which the lines of a text start, in rising order. -/
structure LineIndex where
  starts : Array Nat

namespace LineIndex

def ofText (text : List Char) : LineIndex :=
  ⟨startsOnto text 0 #[0]⟩

/-- The line that holds an offset: as many lines as start at or before it. -/
def lineOf (index : LineIndex) : (offset : Int) → Nat
  | .ofNat n => Number.countUpTo index.starts n
  | .negSucc _ => 0

def lineCount (index : LineIndex) : Nat :=
  index.starts.size

end LineIndex

end ContractInspector.Source
