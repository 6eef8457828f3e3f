import ContractInspector.Number.Search
import ContractInspector.Text.Basic

/-! The outermost brace regions of masked source. -/
namespace ContractInspector.Source

/-- The offsets of the braces around a region, or of the end of the text if none closes it. -/
structure Span where
  opening : Nat
  closing : Nat
deriving DecidableEq

namespace Span

/-- The offset is between the braces. -/
def encloses (span : Span) (offset : Int) : Bool :=
  (span.opening : Int) < offset && offset < span.closing

end Span

/-- The regions of a text that starts at `offset`, when `depth` braces are open since `opening`;
`found` holds earlier ones, last first. A closing brace that nothing opens is passed over. -/
def spansOnto : List Char → (depth offset opening : Nat) → (found : List Span) → List Span
  | [], depth, offset, opening, found =>
    (if depth = 0 then found else ⟨opening, offset⟩ :: found).reverse
  | c :: rest, depth, offset, opening, found =>
    if c = '{' then
      spansOnto rest (depth + 1) (offset + 1) (if depth = 0 then offset else opening) found
    else if c = '}' then
      spansOnto rest (depth - 1) (offset + 1) opening
        (if depth = 1 then ⟨opening, offset⟩ :: found else found)
    else spansOnto rest depth (offset + 1) opening found

/-- The outermost brace regions of masked source, from left to right. -/
def braceSpans (masked : List Char) : List Span :=
  spansOnto masked 0 0 0 []

/-- The last of so many regions encloses an offset. -/
def lastEncloses (spans : List Span) (offset : Int) : (count : Nat) → Bool
  | 0 => false
  | last + 1 => spans[last]?.any (·.encloses offset)

/-- The offset is inside one of the regions, which stand in order: only the last one that opens at it
or before it can enclose it. -/
def insideSpans (spans : List Span) : (offset : Int) → Bool
  | .ofNat n => lastEncloses spans n (Number.countUpTo (spans.map (·.opening)).toArray n)
  | .negSucc _ => false

end ContractInspector.Source
