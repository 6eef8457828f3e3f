import ContractInspector.Text.Basic

/-! Splitting a list of items at a separator that stands outside every bracket and quote. -/
namespace ContractInspector.Source

/-- How far a splitter has come: the character before, the quote it is inside of, the open
brackets of each kind, the item so far, reversed, and the finished items, last first. -/
structure SplitState where
  before : Option Char
  quote : Option Char
  angles : Nat
  squares : Nat
  parens : Nat
  item : List Char
  items : List (List Char)

namespace SplitState

def start : SplitState :=
  ⟨none, none, 0, 0, 0, [], []⟩

/-- A quote opens a literal, and the same one closes it, unless a backslash stands before it. -/
def quoteAfter (state : SplitState) (c : Char) : Option Char :=
  if (c = '"' || c = '\'') && state.before ≠ some '\\' then
    match state.quote with
    | none => some c
    | some open? => if c = open? then none else some open?
  else state.quote

/-- Count a bracket. The head of an arrow `=>` is no bracket, and nothing closes more than is
open. -/
def count (state : SplitState) (c : Char) : SplitState :=
  match c with
  | '<' => { state with angles := state.angles + 1 }
  | '>' => if state.before = some '=' then state else { state with angles := state.angles - 1 }
  | '[' => { state with squares := state.squares + 1 }
  | ']' => { state with squares := state.squares - 1 }
  | '(' => { state with parens := state.parens + 1 }
  | ')' => { state with parens := state.parens - 1 }
  | _ => state

/-- No bracket and no quote is open. -/
def atTop (state : SplitState) : Bool :=
  state.quote.isNone && state.angles == 0 && state.squares == 0 && state.parens == 0

/-- The finished items and the current one, without blank ones. -/
def flush (state : SplitState) : List (List Char) :=
  let item := Text.strip state.item.reverse
  if item.isEmpty then state.items else item :: state.items

def step (separator : Char) (state : SplitState) (c : Char) : SplitState :=
  let quoted := { state with quote := state.quoteAfter c }
  let counted := if quoted.quote.isNone then quoted.count c else quoted
  if c = separator && counted.atTop then
    { counted with before := some c, item := [], items := counted.flush }
  else { counted with before := some c, item := c :: counted.item }

end SplitState

/-- The items between the separators at the top level, stripped, without blank ones. -/
def splitTop (separator : Char) (text : List Char) : List (List Char) :=
  (text.foldl (SplitState.step separator) SplitState.start).flush.reverse

end ContractInspector.Source
