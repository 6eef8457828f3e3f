import ContractInspector.Number.Search
import ContractInspector.Text.WordTable
import ContractInspector.Text.VisibleTable

/-! Classes of characters: the letters of identifiers, decimal digits, blanks, and forms of letters.
Below 128 each class is given by a rule, above by a table. -/
namespace ContractInspector.Text

/-- A code point is in the set whose membership changes at `bounds` when it has passed an odd
number of them. -/
def withinBounds (bounds : Array Nat) (point : Nat) : Bool :=
  Number.countUpTo bounds point % 2 == 1

/-- The letters, numbers and underscore that make up a word. -/
def isWord (c : Char) : Bool :=
  if c.toNat < 128 then c.isAlphanum || c == '_' else withinBounds wordBounds c.toNat

/-- The characters shown as themselves in a quoted text. -/
def isVisible (c : Char) : Bool :=
  if c.toNat < 128 then 32 ≤ c.toNat && c.toNat < 127 else withinBounds visibleBounds c.toNat

/-- The zeros of the decimal digit systems. Each is followed by its digits one to nine. -/
def digitZeros : List Nat :=
  [48, 1632, 1776, 1984, 2406, 2534, 2662, 2790, 2918, 3046, 3174, 3302, 3430, 3558, 3664, 3792,
    3872, 4160, 4240, 6112, 6160, 6470, 6608, 6784, 6800, 6992, 7088, 7232, 7248, 42528, 43216,
    43264, 43472, 43504, 43600, 44016, 65296, 66720, 68912, 69734, 69872, 69942, 70096, 70384,
    70736, 70864, 71248, 71360, 71472, 71904, 72016, 72784, 73040, 73120, 92768, 92864, 93008,
    120782, 120792, 120802, 120812, 120822, 123200, 123632, 125264, 130032]

def digitValue? (c : Char) : Option Nat :=
  (digitZeros.find? fun first => first ≤ c.toNat && c.toNat < first + 10).map (c.toNat - ·)

def isDigit (c : Char) : Bool :=
  (digitValue? c).isSome

/-- Spaces, tabs, line ends and the four separator controls, in ASCII and beyond. -/
def isBlank (c : Char) : Bool :=
  let n := c.toNat
  (9 ≤ n && n ≤ 13) || (28 ≤ n && n ≤ 32) || n == 0x85 || n == 0xa0 || n == 0x1680 ||
    (0x2000 ≤ n && n ≤ 0x200a) || n == 0x2028 || n == 0x2029 || n == 0x202f || n == 0x205f ||
    n == 0x3000

/-- Two characters are one letter when case is ignored. The dotted and dotless forms of `i`, the
long `s` and the Kelvin sign count as forms of their ASCII letters. -/
def sameLetter (letter c : Char) : Bool :=
  c.toLower == letter.toLower ||
    (letter.toLower == 'i' && (c == '\u0130' || c == '\u0131')) ||
    (letter.toLower == 's' && c == '\u017f') || (letter.toLower == 'k' && c == '\u212a')

end ContractInspector.Text
