import ContractInspector.Text.CaseTable
import ContractInspector.Text.Character

/-! Texts in lower case. Each character has its own lower case but the capital sigma: it has another
one at the end of a word. -/
namespace ContractInspector.Text

def isCased (c : Char) : Bool :=
  withinBounds casedBounds c.toNat

/-- The characters that are passed over when the letters next to a sigma are looked for. -/
def isIgnorable (c : Char) : Bool :=
  withinBounds ignorableBounds c.toNat

def caseStarts : Array Nat :=
  caseRuns.map (·.first)

/-- The run that a letter is in, if it is a capital one. -/
def caseRun? (c : Char) : Option CaseRun :=
  (caseRuns[Number.countUpTo caseStarts c.toNat - 1]?).filter fun run =>
    run.first ≤ c.toNat && c.toNat ≤ run.last && (c.toNat - run.first) % run.stride == 0

/-- The lower case of a character by itself. The dotted capital I becomes two characters. -/
def lowerCase (c : Char) : List Char :=
  if c.toNat < 128 then [c.toLower]
  else if c == '\u0130' then ['i', '\u0307']
  else
    match caseRun? c with
    | some run => [Char.ofNat (c.toNat + run.shift).toNat]
    | none => [c]

/-- A sigma ends a word if a cased letter stands before it and none behind it. -/
def endsWord (before behind : List Char) : Bool :=
  (before.dropWhile isIgnorable).head?.any isCased &&
    !(behind.dropWhile isIgnorable).head?.any isCased

/-- The lower case of a text behind the characters in `seen`, behind its lower case `done`; both are
reversed. -/
def lowerOnto : List Char → (seen done : List Char) → List Char
  | [], _, done => done.reverse
  | c :: rest, seen, done =>
    if c == '\u03a3' then
      let sigma := if endsWord seen rest then '\u03c2' else '\u03c3'
      lowerOnto rest (c :: seen) (sigma :: done)
    else lowerOnto rest (c :: seen) ((lowerCase c).reverse ++ done)

def lower (text : List Char) : List Char :=
  lowerOnto text [] []

end ContractInspector.Text
