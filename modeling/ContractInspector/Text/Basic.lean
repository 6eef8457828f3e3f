import ContractInspector.Text.Character

/-! Operations on texts as lists of characters: blanks at the ends, lines, searching, joining and
sizes. Offsets count characters. -/
namespace ContractInspector.Text

section Decidable

variable (text : List Char) (holds : Char → Prop) [DecidablePred holds]

-- A condition on the characters of a text is tried on these, and never on all characters there are.
instance decidableForallMem : Decidable (∀ c ∈ text, holds c) :=
  List.decidableBAll holds text

instance decidableExistsMem : Decidable (∃ c ∈ text, holds c) :=
  List.decidableBEx holds text

end Decidable

def strip (text : List Char) : List Char :=
  ((text.dropWhile isBlank).reverse.dropWhile isBlank).reverse

/-- The characters from offset `start` up to, not including, offset `stop`. -/
def slice (text : List Char) (start stop : Nat) : List Char :=
  (text.drop start).take (stop - start)

theorem slice_congr {text other : List Char} {start stop : Nat}
    (same : ∀ n, start ≤ n → n < stop → text[n]? = other[n]?) :
    slice text start stop = slice other start stop := by
  apply List.ext_getElem?
  intro n
  rw [slice, slice, List.getElem?_take, List.getElem?_take]
  split
  · rw [List.getElem?_drop, List.getElem?_drop]
    exact same _ (Nat.le_add_right start n) (by omega)
  · rfl

theorem getElem?_slice {text : List Char} {start stop n : Nat} (le : start ≤ n) (lt : n < stop) :
    (slice text start stop)[n - start]? = text[n]? := by
  rw [slice, List.getElem?_take_of_lt (by omega), List.getElem?_drop, Nat.add_sub_cancel' le]

/-- The pieces between the separators, from left to right; `piece` is the current one, reversed,
and `done` holds the finished ones, last first. -/
def splitOnto (separator : Char) : List Char → List Char → List (List Char) → List (List Char)
  | [], piece, done => (piece.reverse :: done).reverse
  | c :: rest, piece, done =>
    if c = separator then splitOnto separator rest [] (piece.reverse :: done)
    else splitOnto separator rest (c :: piece) done

/-- The pieces of a text between the separators: always one more than there are separators. -/
def splitAt (separator : Char) (text : List Char) : List (List Char) :=
  splitOnto separator text [] []

/-- The lines of a text, without their line ends. -/
def lines (text : List Char) : List (List Char) :=
  splitAt '\n' text

/-- `part` occurs in the text. -/
def contains (part : List Char) : List Char → Bool
  | [] => part.isEmpty
  | c :: rest => part.isPrefixOf (c :: rest) || contains part rest

/-- Texts one after another, with `separator` between neighbours. -/
def join (separator : String) (texts : List String) : String :=
  separator.intercalate texts

/-- How many line ends a text has, plus one. -/
def lineCount (text : List Char) : Nat :=
  text.count '\n' + 1

/-- The bytes that a text takes in UTF-8. -/
def byteSize (text : List Char) : Nat :=
  text.foldl (fun n c => n + c.utf8Size) 0

/-- The quotient rounded to the nearest natural number, a half to the even neighbour. -/
def roundedQuotient (numerator denominator : Nat) : Nat :=
  let low := numerator / denominator
  let twice := 2 * (numerator % denominator)
  if twice < denominator then low
  else if denominator < twice then low + 1
  else if low % 2 == 0 then low else low + 1

def tenths (numerator denominator : Nat) : String :=
  let n := roundedQuotient (10 * numerator) denominator
  toString (n / 10) ++ "." ++ toString (n % 10)

end ContractInspector.Text
