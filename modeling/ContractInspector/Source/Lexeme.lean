import ContractInspector.Text.Basic

/-! The lexemes of contract source: comments, string literals, and single characters of code. A
literal or block comment that is never closed runs to the end. -/
namespace ContractInspector.Source

def isQuote (c : Char) : Bool :=
  c == '"' || c == '\'' || c == '`'

inductive Lexeme where
  | code (c : Char)
  /-- A comment with its delimiters. The newline behind a line comment is code. -/
  | comment (text : List Char)
  /-- What follows the opening quote, up to the same quote if the literal is closed. -/
  | literal (quote : Char) (contents : List Char) (closed : Bool)

/-- What follows an opening quote: the contents, whether the quote closes them, and the rest. -/
structure LiteralTail where
  contents : List Char
  closed : Bool
  rest : List Char

/-- Read a literal behind its opening quote; `seen` holds the contents so far, last first. The
character behind a backslash belongs to the contents whatever it is. -/
def readLiteral (quote : Char) : List Char → (seen : List Char) → LiteralTail
  | [], seen => ⟨seen.reverse, false, []⟩
  | '\\' :: c :: rest, seen => readLiteral quote rest (c :: '\\' :: seen)
  | c :: rest, seen =>
    if c = quote then ⟨seen.reverse, true, rest⟩ else readLiteral quote rest (c :: seen)

/-- Read a block comment behind its opening, up to and with its end; `seen` holds the characters
so far, last first. -/
def readBlockComment : List Char → (seen : List Char) → List Char × List Char
  | [], seen => (seen.reverse, [])
  | '*' :: '/' :: rest, seen => (('/' :: '*' :: seen).reverse, rest)
  | c :: rest, seen => readBlockComment rest (c :: seen)

namespace Lexeme

/-- The lexeme that starts with `c`, and the text behind it. -/
def read (c : Char) (rest : List Char) : Lexeme × List Char :=
  if isQuote c then
    let tail := readLiteral c rest []
    (literal c tail.contents tail.closed, tail.rest)
  else if c = '/' then
    match rest with
    | '/' :: _ => (comment (c :: rest.takeWhile (· ≠ '\n')), rest.dropWhile (· ≠ '\n'))
    | '*' :: body =>
      let (block, after) := readBlockComment body []
      (comment (c :: '*' :: block), after)
    | _ => (code c, rest)
  else (code c, rest)

def source : Lexeme → List Char
  | code c => [c]
  | comment text => text
  | literal quote contents closed => quote :: contents ++ (if closed then [quote] else [])

end Lexeme

theorem readLiteral_rest_length (quote : Char) (text seen : List Char) :
    (readLiteral quote text seen).rest.length ≤ text.length := by
  fun_induction readLiteral quote text seen with
  | case1 => simp
  | case2 seen c rest ih => simp only [List.length_cons]; omega
  | case3 seen c rest => simp
  | case4 seen c rest _ _ ih => simp only [List.length_cons]; omega

theorem readBlockComment_rest_length (text seen : List Char) :
    (readBlockComment text seen).2.length ≤ text.length := by
  fun_induction readBlockComment text seen with
  | case1 => simp
  | case2 seen rest => simp only [List.length_cons]; omega
  | case3 seen c rest _ ih => simp only [List.length_cons]; omega

/-- Reading a lexeme leaves no more than what stood behind its first character. -/
theorem Lexeme.read_rest_length (c : Char) (rest : List Char) :
    (Lexeme.read c rest).2.length ≤ rest.length := by
  unfold Lexeme.read
  split
  · exact readLiteral_rest_length c rest []
  · split
    · split
      · exact (List.dropWhile_sublist _).length_le
      · simpa only [List.length_cons] using
          Nat.le_succ_of_le (readBlockComment_rest_length _ [])
      · exact Nat.le_refl _
    · exact Nat.le_refl _

/-- The lexemes of a text, behind those in `found`, which holds earlier ones, last first. -/
def lexemesOnto (text : List Char) (found : List Lexeme) : List Lexeme :=
  match text with
  | [] => found.reverse
  | c :: rest => lexemesOnto (Lexeme.read c rest).2 ((Lexeme.read c rest).1 :: found)
  termination_by text.length
  decreasing_by
    have := Lexeme.read_rest_length c rest
    simp only [List.length_cons]
    omega

def lexemes (text : List Char) : List Lexeme :=
  lexemesOnto text []

end ContractInspector.Source
